-- SUMMARY: The grammar of TLV lists: a type byte, a 16-bit little-endian length and the value.
import QcomUsb.Library.Memory

/-!
# TLV lists

`parse` reads the complete TLVs at the head of a byte list. It stops at the end of the
list or at the first TLV that does not fit in it.
-/

namespace Tlv

open Memory

/-- One TLV. -/
structure Item where
  type : UInt8
  value : List UInt8
  deriving DecidableEq, Repr

/-- The length field. -/
def lengthField (low high : UInt8) : Nat := low.toNat + 256 * high.toNat

/-- The complete TLVs of a byte list, up to its end or its first malformed TLV. -/
def parse : List UInt8 → List Item
  | type :: low :: high :: rest =>
    if lengthField low high ≤ rest.length then
      ⟨type, rest.take (lengthField low high)⟩ :: parse (rest.drop (lengthField low high))
    else []
  | _ => []
termination_by bytes => bytes.length
decreasing_by simp only [List.length_drop, List.length_cons]; omega

/-- The first TLV of a type. -/
def first? (bytes : List UInt8) (type : UInt8) : Option Item :=
  (parse bytes).find? fun item => item.type = type

/-- The bytes of a TLV. -/
def Item.size (item : Item) : Nat := 3 + item.value.length

/-- Where TLVs that follow each other from `p` on begin. -/
def starts (p : Nat) : List Item → List Nat
  | [] => []
  | item :: items => p :: starts (p + item.size) items

/-- The TLVs fill the list. -/
def WellFormed (bytes : List UInt8) : Prop := ((parse bytes).map Item.size).sum = bytes.length

instance (bytes : List UInt8) : Decidable (WellFormed bytes) :=
  inferInstanceAs (Decidable (((parse bytes).map Item.size).sum = bytes.length))

/-- The first TLV of the type has no value and is the end of the list. -/
def EndsWithEmpty (bytes : List UInt8) (type : UInt8) : Prop :=
  WellFormed bytes ∧ ∃ items, parse bytes = items ++ [⟨type, []⟩] ∧ ∀ item ∈ items, item.type ≠ type

@[simp] theorem parse_nil : parse [] = [] := by rw [parse]; simp

theorem lengthField_lt (low high : UInt8) : lengthField low high < 65536 := by
  have hlow := low.toNat_lt
  have hhigh := high.toNat_lt
  unfold lengthField
  omega

@[simp] theorem starts_length (p : Nat) (items : List Item) :
    (starts p items).length = items.length := by
  induction items generalizing p with
  | nil => rfl
  | cons item items ih => rw [starts, List.length_cons, ih, List.length_cons]

/-- A TLV takes three bytes at least. -/
theorem length_mul_three_le (items : List Item) : items.length * 3 ≤ (items.map Item.size).sum := by
  induction items with
  | nil => exact Nat.le_refl 0
  | cons item items ih =>
    rw [List.length_cons, List.map_cons, List.sum_cons, Item.size]
    omega

/-! ## TLVs in memory -/

variable {mem : Nat → UInt8} {p n : Nat}

/-- The length field of the TLV at `p`. -/
def sizeAt (mem : Nat → UInt8) (p : Nat) : Nat := lengthField (mem (p + 1)) (mem (p + 2))

theorem slice_zero : slice mem p 0 = [] := rfl

/-- A block with a TLV header at its head. -/
theorem slice_header (h : 3 ≤ n) :
    slice mem p n = mem p :: mem (p + 1) :: mem (p + 2) :: slice mem (p + 3) (n - 3) := by
  obtain ⟨k, rfl⟩ := Nat.exists_eq_add_of_le h
  rw [slice_add, Nat.add_sub_cancel_left]
  rfl

/-- A complete TLV at the head of a block. -/
theorem parse_slice_complete (h : 3 + sizeAt mem p ≤ n) :
    parse (slice mem p n) = ⟨mem p, slice mem (p + 3) (sizeAt mem p)⟩ ::
      parse (slice mem (p + (3 + sizeAt mem p)) (n - (3 + sizeAt mem p))) := by
  have hfit : lengthField (mem (p + 1)) (mem (p + 2)) ≤ (slice mem (p + 3) (n - 3)).length := by
    rw [slice_length]
    unfold sizeAt at h
    omega
  rw [slice_header (by omega), parse, if_pos hfit, slice_drop, Nat.sub_sub, Nat.add_assoc,
    slice_take _ _ (by simpa using hfit)]
  rfl

/-- No complete TLV at the head of a block. -/
theorem parse_slice_malformed (h : n < 3 + sizeAt mem p) : parse (slice mem p n) = [] := by
  by_cases hn : 3 ≤ n
  · have hfit : ¬ lengthField (mem (p + 1)) (mem (p + 2)) ≤ (slice mem (p + 3) (n - 3)).length := by
      rw [slice_length]
      unfold sizeAt at h
      omega
    rw [slice_header hn, parse, if_neg hfit]
  · -- fewer than three bytes are left
    obtain rfl | rfl | rfl : n = 0 ∨ n = 1 ∨ n = 2 := by omega
    · simp [slice]
    · simp [slice, parse]
    · simp [slice, parse, List.range_succ]

theorem first?_slice_complete {type : UInt8} (h : 3 + sizeAt mem p ≤ n) :
    first? (slice mem p n) type =
      if mem p = type then some ⟨mem p, slice mem (p + 3) (sizeAt mem p)⟩
      else first? (slice mem (p + (3 + sizeAt mem p)) (n - (3 + sizeAt mem p))) type := by
  rw [first?, parse_slice_complete h, List.find?_cons]
  by_cases heq : mem p = type <;> simp [heq, first?]

theorem first?_slice_malformed {type : UInt8} (h : n < 3 + sizeAt mem p) :
    first? (slice mem p n) type = none := by
  rw [first?, parse_slice_malformed h, List.find?_nil]

/-! ## An empty TLV at the end -/

theorem wellFormed_slice_complete (h : 3 + sizeAt mem p ≤ n) :
    WellFormed (slice mem p n) ↔
      WellFormed (slice mem (p + (3 + sizeAt mem p)) (n - (3 + sizeAt mem p))) := by
  rw [WellFormed, WellFormed, parse_slice_complete h]
  simp only [List.map_cons, List.sum_cons, Item.size, slice_length]
  omega

/-- A TLV of another type is passed over. -/
theorem endsWithEmpty_of_ne {type : UInt8} (h : 3 + sizeAt mem p ≤ n) (hne : mem p ≠ type) :
    EndsWithEmpty (slice mem p n) type ↔
      EndsWithEmpty (slice mem (p + (3 + sizeAt mem p)) (n - (3 + sizeAt mem p))) type := by
  rw [EndsWithEmpty, EndsWithEmpty, wellFormed_slice_complete h, parse_slice_complete h]
  refine and_congr_right fun _ => ⟨?_, ?_⟩
  · rintro ⟨items, heq, hother⟩
    cases items with
    | nil =>
      simp only [List.nil_append, List.cons.injEq, Item.mk.injEq] at heq
      exact absurd heq.1.1 hne
    | cons item items =>
      simp only [List.cons_append, List.cons.injEq] at heq
      exact ⟨items, heq.2, fun u hu => hother u (List.mem_cons_of_mem _ hu)⟩
  · rintro ⟨items, heq, hother⟩
    refine ⟨_ :: items, by rw [heq, List.cons_append], ?_⟩
    rintro u (_ | ⟨_, hu⟩)
    · exact hne
    · exact hother u hu

/-- A TLV of the type is the empty one at the end exactly if nothing stands behind its
header. -/
theorem endsWithEmpty_of_eq {type : UInt8} (h : 3 + sizeAt mem p ≤ n) (heq : mem p = type) :
    EndsWithEmpty (slice mem p n) type ↔ n = 3 := by
  rw [EndsWithEmpty, parse_slice_complete h]
  constructor
  · rintro ⟨hwf, items, happ, hother⟩
    cases items with
    | nil =>
      simp only [List.nil_append, List.cons.injEq, Item.mk.injEq] at happ
      obtain ⟨⟨-, hvalue⟩, hrest⟩ := happ
      have hsize : sizeAt mem p = 0 := by simpa using congrArg List.length hvalue
      rw [WellFormed, parse_slice_complete h, hrest] at hwf
      simp only [List.map_cons, List.map_nil, List.sum_cons, List.sum_nil, Item.size,
        slice_length, hsize] at hwf
      exact hwf.symm
    | cons item items =>
      simp only [List.cons_append, List.cons.injEq] at happ
      exact absurd (by rw [← happ.1]; exact heq) (hother item (by simp))
  · rintro rfl
    have hsize : sizeAt mem p = 0 := by omega
    refine ⟨?_, [], ?_, by simp⟩
    · simp [WellFormed, parse_slice_complete h, Item.size, hsize, slice_zero]
    · simp [heq, hsize, slice_zero]

theorem first?_of_endsWithEmpty {bytes : List UInt8} {type : UInt8}
    (h : EndsWithEmpty bytes type) : first? bytes type = some ⟨type, []⟩ := by
  obtain ⟨-, items, heq, hother⟩ := h
  have hnone : items.find? (fun item => item.type = type) = none :=
    List.find?_eq_none.mpr fun item hitem => by simpa using hother item hitem
  rw [first?, heq, List.find?_append, hnone]
  simp

end Tlv
