-- SUMMARY: TLVs as bytes: how they are written, and what is read of one that stands in memory.
import QcomUsb.Library.Tlv

/-!
# Encoded TLVs

A list of TLVs is written one behind the other. `At` says that a TLV stands in memory, with what its
header and its value are then.
-/

namespace Tlv

open Memory

/-! ## Little-endian fields -/

def le16 (n : Nat) : List UInt8 := [.ofNat (n % 256), .ofNat (n / 256 % 256)]

/-- The `USHORT` at `p`. -/
def ushort (mem : Nat → UInt8) (p : Nat) : Nat := lengthField (mem p) (mem (p + 1))

def le32 (n : UInt32) : List UInt8 := le16 (n.toNat % 65536) ++ le16 (n.toNat / 65536)

/-- The `ULONG` at `p`. -/
def ulong (mem : Nat → UInt8) (p : Nat) : UInt32 := .ofNat (ushort mem p + 65536 * ushort mem (p + 2))

theorem lengthField_le16 {n : Nat} (h : n < 65536) :
    lengthField (.ofNat (n % 256)) (.ofNat (n / 256 % 256)) = n := by
  simp only [lengthField, UInt8.toNat_ofNat']
  omega

theorem slice_succ (mem : Nat → UInt8) (p n : Nat) :
    slice mem p (n + 1) = mem p :: slice mem (p + 1) n := by
  rw [Nat.add_comm, slice_add]
  rfl

theorem byte_of_slice {mem : Nat → UInt8} {p n : Nat} {b : UInt8} {bytes : List UInt8}
    (h : slice mem p n = b :: bytes) : mem p = b ∧ slice mem (p + 1) (n - 1) = bytes := by
  cases n with
  | zero => simp [slice] at h
  | succ n =>
    rw [slice_succ, List.cons.injEq] at h
    exact ⟨h.1, h.2⟩

theorem ushort_of_slice {mem : Nat → UInt8} {p n : Nat} (hn : n < 65536)
    (h : slice mem p 2 = le16 n) : ushort mem p = n := by
  rw [slice_succ, slice_succ, slice_zero, le16, List.cons.injEq, List.cons.injEq] at h
  rw [ushort, h.1, h.2.1, lengthField_le16 hn]

theorem ulong_of_slice {mem : Nat → UInt8} {p : Nat} {n : UInt32} (h : slice mem p 4 = le32 n) :
    ulong mem p = n := by
  obtain ⟨hlow, hhigh⟩ := slice_eq_append h
  have hlt := n.toNat_lt
  have hl : ushort mem p = n.toNat % 65536 := ushort_of_slice (by omega) hlow
  have hh : ushort mem (p + 2) = n.toNat / 65536 := ushort_of_slice (by omega) hhigh
  apply UInt32.toNat_inj.mp
  rw [ulong, hl, hh, UInt32.toNat_ofNat']
  omega

/-! ## TLVs -/

/-- The bytes of a TLV. -/
def Item.encode (item : Item) : List UInt8 := item.type :: (le16 item.value.length ++ item.value)

/-- The bytes of TLVs that follow each other. -/
def encode (items : List Item) : List UInt8 := items.flatMap Item.encode

/-- The length field can hold the length. -/
def Item.Fits (item : Item) : Prop := item.value.length < 65536

instance (item : Item) : Decidable item.Fits := inferInstanceAs (Decidable (item.value.length < 65536))

theorem Item.length_encode (item : Item) : item.encode.length = item.size := by
  simp [encode, le16, size]
  omega

/-- The TLV stands at `p`. -/
structure At (mem : Nat → UInt8) (p : Nat) (item : Item) : Prop where
  type : mem p = item.type
  size : sizeAt mem p = item.value.length
  value : slice mem (p + 3) item.value.length = item.value

/-- A block begins with a TLV. -/
theorem at_of_slice {mem : Nat → UInt8} {p n : Nat} {item : Item} {rest : List UInt8}
    (hfits : item.Fits) (h : slice mem p n = item.encode ++ rest) :
    At mem p item ∧ slice mem (p + item.size) (n - item.size) = rest ∧ item.size ≤ n := by
  have hlen : n = item.size + rest.length := by
    have hlength := congrArg List.length h
    rwa [slice_length, List.length_append, Item.length_encode] at hlength
  obtain ⟨hitem, hrest⟩ := slice_eq_append h
  rw [Item.length_encode] at hitem hrest
  refine ⟨?_, hrest, by omega⟩
  rw [Item.size, Nat.add_comm 3, slice_succ, slice_succ, slice_succ, Item.encode, le16] at hitem
  simp only [List.cons_append, List.nil_append, List.cons.injEq] at hitem
  obtain ⟨htype, hlow, hhigh, hvalue⟩ := hitem
  refine ⟨htype, ?_, hvalue⟩
  rw [sizeAt, hlow, hhigh, lengthField_le16 hfits]

theorem at_of_encode {mem : Nat → UInt8} {p n : Nat} {item : Item} {items : List Item}
    (hfits : item.Fits) (h : slice mem p n = encode (item :: items)) :
    At mem p item ∧ slice mem (p + item.size) (n - item.size) = encode items ∧ item.size ≤ n :=
  at_of_slice hfits (by rw [h, encode, List.flatMap_cons, ← encode])

end Tlv
