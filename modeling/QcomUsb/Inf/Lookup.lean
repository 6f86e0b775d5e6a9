-- SUMMARY: The lookup of an interface in the device table: which entries it reads, and when its answer is right.
import QcomUsb.Library.Footprint
import QcomUsb.Inf.DevInfo

/-!
# The lookup of a device

`QTIDevInfGetDevInfo` searches the table for the product and the interface number of a device. Its
loop also looks at the entry behind the last one, and what it answers there is an entry as well.
-/

namespace Inf

open Footprint LinearSearch

/-- What the lookup reads of an interface and of its device. -/
structure UsbInterface where
  idVendor : UInt16
  idProduct : UInt16
  bInterfaceNumber : UInt8

/-- An `int` of the table, least significant byte first. -/
def FileInfo.loadInt (f : FileInfo) (a : Nat) : UInt32 :=
  .ofNat ((f.mDevInfo a).toNat + 256 * ((f.mDevInfo (a + 1)).toNat +
    256 * ((f.mDevInfo (a + 2)).toNat + 256 * (f.mDevInfo (a + 3)).toNat)))

theorem FileInfo.loadInt_storeInt (f : FileInfo) (a : Nat) (v : UInt32) :
    (f.storeInt a v).loadInt a = v := by
  have h2 : a ≠ a + 1 + 1 := by omega
  have h3 : a ≠ a + 1 + 1 + 1 := by omega
  have hlt : v.toNat < 4294967296 := v.toNat_lt
  simp only [loadInt, storeInt, storeBytes, store, Function.update_apply, Nat.add_assoc,
    Nat.add_eq_left, Nat.add_right_inj, h2, h3]
  apply UInt32.toNat_inj.mp
  simp [UInt32.toNat_ofNat, UInt32.toNat_toUInt8, Nat.shiftRight_eq_div_pow]
  omega

/-! ## `QTIDevInfGetDevInfo` -/

/-- The loop, from the entry `idx` on. The interface number is read where the product agrees. -/
def findDevInfo (f : FileInfo) (iface : UsbInterface) : Nat → Nat → Traced Nat
  | 0, idx => .of idx
  | n + 1, idx =>
    .touch [⟨vidPidIfaceAt idx 1, 4⟩]
      (if f.loadInt (vidPidIfaceAt idx 1) = iface.idProduct.toUInt32 then
        .touch [⟨vidPidIfaceAt idx 2, 4⟩]
          (if f.loadInt (vidPidIfaceAt idx 2) = iface.bInterfaceNumber.toUInt32 then .of idx
          else findDevInfo f iface n (idx + 1))
      else findDevInfo f iface n (idx + 1))

/-- `QTIDevInfGetDevInfo`, with the index of the entry it answers. `mLength` was an `int`, so `idx`
does not wrap. -/
def qtiDevInfGetDevInfo (iface : UsbInterface) : Option FileInfo → Traced (Option Nat)
  | none => .of none
  | some f =>
    let t := findDevInfo f iface (f.mNumResp + 1) 0
    -- `idx <= mNumResp` holds for the entry behind the last one too
    ⟨if t.next ≤ f.mNumResp then some t.next else none, t.accesses⟩

/-! ## What the lookup is for -/

/-- What the loop compares: the product and the interface number. -/
def FileInfo.SameInterface (f : FileInfo) (iface : UsbInterface) (j : Nat) : Prop :=
  f.loadInt (vidPidIfaceAt j 1) = iface.idProduct.toUInt32 ∧
    f.loadInt (vidPidIfaceAt j 2) = iface.bInterfaceNumber.toUInt32

instance (f : FileInfo) (iface : UsbInterface) : DecidablePred (f.SameInterface iface) :=
  fun _ => inferInstanceAs (Decidable (_ ∧ _))

/-- The entry `j` is of the device's vendor. -/
def FileInfo.SameVendor (f : FileInfo) (iface : UsbInterface) (j : Nat) : Prop :=
  f.loadInt (vidPidIfaceAt j 0) = iface.idVendor.toUInt32

instance (f : FileInfo) (iface : UsbInterface) : DecidablePred (f.SameVendor iface) :=
  fun _ => inferInstanceAs (Decidable (_ = _))

/-- The lookup is sound and complete: it reads stored entries only, an entry it answers has all
three numbers of the device, and without an answer no stored entry has them. -/
structure FileInfo.LookupRight (f : FileInfo) (iface : UsbInterface) : Prop where
  inside : (qtiDevInfGetDevInfo iface (some f)).Inside (80 * f.mNumResp)
  found : ∀ j, (qtiDevInfGetDevInfo iface (some f)).next = some j →
    f.SameVendor iface j ∧ f.SameInterface iface j
  missed : (qtiDevInfGetDevInfo iface (some f)).next = none →
    ∀ j < f.mNumResp, ¬(f.SameVendor iface j ∧ f.SameInterface iface j)

/-! ## Where the loop stops, and what it reads -/

variable {f : FileInfo} {iface : UsbInterface}

theorem findDevInfo_next (f : FileInfo) (iface : UsbInterface) (n i : Nat) :
    (findDevInfo f iface n i).next = search (f.SameInterface iface) n i := by
  induction n generalizing i with
  | zero => rfl
  | succ n ih =>
    rw [findDevInfo, search, Traced.next_touch]
    by_cases hproduct : f.loadInt (vidPidIfaceAt i 1) = iface.idProduct.toUInt32
    · by_cases hnumber : f.loadInt (vidPidIfaceAt i 2) = iface.bInterfaceNumber.toUInt32
      · simp [FileInfo.SameInterface, hproduct, hnumber]
      · simp [FileInfo.SameInterface, hproduct, hnumber, ih]
    · simp [FileInfo.SameInterface, hproduct, ih]

/-- A number of the entry `j` lies in the first `m` entries exactly if the entry is one of them. -/
theorem vidPidIfaceAt_le {m j i : Nat} (hi : i < 3) : vidPidIfaceAt j i + 4 ≤ 80 * m ↔ j < m := by
  unfold vidPidIfaceAt
  omega

/-- A loop that may run one entry too far stays inside exactly if it stops before. -/
theorem findDevInfo_inside {m n i : Nat} (hm : i + n = m) :
    (findDevInfo f iface (n + 1) i).Inside (80 * m) ↔
      search (f.SameInterface iface) (n + 1) i < m := by
  induction n generalizing i with
  | zero =>
    -- the entry behind the last one
    have hout : ¬i < m := Nat.not_lt.mpr hm.ge
    have hstop := le_search (f.SameInterface iface) 1 i
    rw [findDevInfo, Traced.inside_touch]
    simp only [List.mem_singleton, forall_eq, Range.inside_mk, vidPidIfaceAt_le Nat.one_lt_ofNat,
      hout, false_and, false_iff, not_lt]
    exact hm.ge.trans hstop
  | succ n ih =>
    have hin : i < m := by omega
    have ih' := ih (i := i + 1) (by omega)
    rw [findDevInfo, search, Traced.inside_touch]
    by_cases hproduct : f.loadInt (vidPidIfaceAt i 1) = iface.idProduct.toUInt32
    · by_cases hnumber : f.loadInt (vidPidIfaceAt i 2) = iface.bInterfaceNumber.toUInt32
      · simp [FileInfo.SameInterface, hproduct, hnumber, vidPidIfaceAt_le, hin]
      · simp [FileInfo.SameInterface, hproduct, hnumber, vidPidIfaceAt_le, hin, ih']
    · simp [FileInfo.SameInterface, hproduct, vidPidIfaceAt_le, hin, ih']

theorem getDevInfo_inside :
    (qtiDevInfGetDevInfo iface (some f)).Inside (80 * f.mNumResp) ↔
      search (f.SameInterface iface) (f.mNumResp + 1) 0 < f.mNumResp :=
  findDevInfo_inside (Nat.zero_add _)

theorem getDevInfo_next :
    (qtiDevInfGetDevInfo iface (some f)).next =
      if search (f.SameInterface iface) (f.mNumResp + 1) 0 ≤ f.mNumResp then
        some (search (f.SameInterface iface) (f.mNumResp + 1) 0)
      else none := by
  rw [qtiDevInfGetDevInfo, findDevInfo_next]

/-! ## When the answer is right -/

/-- The lookup is sound and complete exactly if the table has the interface, and the first of its
entries is of the device's vendor. -/
theorem FileInfo.lookupRight_iff_first (f : FileInfo) (iface : UsbInterface) :
    f.LookupRight iface ↔
      ∃ j < f.mNumResp, (∀ i < j, ¬f.SameInterface iface i) ∧ f.SameInterface iface j ∧
        f.SameVendor iface j := by
  constructor
  · intro h
    have hlt := getDevInfo_inside.mp h.inside
    have hanswer := h.found _ (getDevInfo_next.trans (if_pos hlt.le))
    exact ⟨_, hlt, fun i hi => not_of_lt_search (Nat.zero_le i) hi, hanswer.2, hanswer.1⟩
  · rintro ⟨j, hj, hfirst, hsame, hvendor⟩
    have hstop : search (f.SameInterface iface) (f.mNumResp + 1) 0 = j := by
      apply search_eq_of_first (Nat.zero_le j) (by omega) hsame
      intro k _ hk
      exact hfirst k hk
    have hnext : (qtiDevInfGetDevInfo iface (some f)).next = some j := by
      rw [getDevInfo_next, hstop, if_pos hj.le]
    refine ⟨?_, ?_, ?_⟩
    · rwa [getDevInfo_inside, hstop]
    · intro k hk
      rw [hnext, Option.some_inj] at hk
      subst hk
      exact ⟨hvendor, hsame⟩
    · intro hnone
      rw [hnext] at hnone
      cases hnone

/-- A table with the one entry `VID_05C6&PID_90AB&MI_05`. -/
def qdssTable : FileInfo :=
  let f : FileInfo := ⟨.usb, 1, 1, fun _ => 0, []⟩
  ((f.storeInt (vidPidIfaceAt 0 0) 0x05C6).storeInt (vidPidIfaceAt 0 1) 0x90AB).storeInt
    (vidPidIfaceAt 0 2) 5

/-- Another interface of the device is not in the table, and another vendor's device with the same
product and interface is found there. -/
theorem not_lookupRight_qdssTable :
    ¬qdssTable.LookupRight ⟨0x05C6, 0x90AB, 4⟩ ∧ ¬qdssTable.LookupRight ⟨0x1234, 0x90AB, 5⟩ := by
  constructor
  · intro h
    exact absurd h.inside (by decide +kernel)
  · intro h
    exact absurd (h.found 0 (by decide +kernel)) (by decide +kernel)

end Inf
