-- SUMMARY: The net devices of one Gobi device and the byte order of the host.
import Mathlib

/-!
# The Gobi device

One USB device carries four net devices: the primary adapter and
`MAX_MUX_DEVICES` multiplexed ones. The same numbering is used by the QMI control
path, where each has its own `sQMIDev`.
-/

namespace UsbNet

/-- `MAX_MUX_DEVICES`. -/
abbrev maxMuxDevices : Nat := 3

/-- The net devices of a `sGobiUSBNet`. -/
inductive NetDev where
  | mpNetDev
  | mpNetMUXDev (i : Fin maxMuxDevices)
  deriving DecidableEq, Repr

/-- `dev->data[1]`, the mux id, as `GobiUSBNetProbe` stores it. -/
def NetDev.data1 : NetDev → Nat
  | .mpNetDev => 0x81
  | .mpNetMUXDev i => 0x81 + i + 1

theorem NetDev.data1_bounds (dev : NetDev) : 0x81 ≤ dev.data1 ∧ dev.data1 ≤ 0x84 := by
  cases dev with
  | mpNetDev => decide
  | mpNetMUXDev i => fin_cases i <;> decide

/-! ## Byte order

The host is little-endian, the QMAP header and the ethertype are big-endian. -/

/-- The byte swap behind `htons`, `ntohs` and `__cpu_to_be16`. -/
def swab16 (x : UInt16) : UInt16 := UInt16.ofNat (x.toNat % 256 * 256 + x.toNat / 256)

abbrev htons := swab16
abbrev ntohs := swab16
abbrev cpuToBe16 := swab16

theorem swab16_toNat (x : UInt16) :
    (swab16 x).toNat = x.toNat % 256 * 256 + x.toNat / 256 := by
  have hx := x.toNat_lt
  rw [swab16, UInt16.toNat_ofNat']
  omega

@[simp] theorem swab16_swab16 (x : UInt16) : swab16 (swab16 x) = x := by
  have hx := x.toNat_lt
  apply UInt16.toNat.inj
  rw [swab16_toNat, swab16_toNat]
  omega

/-- The low byte, which comes first in memory. -/
def lowByte (x : UInt16) : UInt8 := UInt8.ofNat x.toNat

/-- The high byte. -/
def highByte (x : UInt16) : UInt8 := UInt8.ofNat (x.toNat / 256)

/-- A 16-bit field read from its two bytes in memory. -/
def ofBytes (low high : UInt8) : UInt16 := UInt16.ofNat (low.toNat + 256 * high.toNat)

@[simp] theorem ofBytes_lowByte_highByte (x : UInt16) : ofBytes (lowByte x) (highByte x) = x := by
  have hx := x.toNat_lt
  apply UInt16.toNat.inj
  simp only [ofBytes, lowByte, highByte, UInt16.toNat_ofNat', UInt8.toNat_ofNat']
  omega

end UsbNet
