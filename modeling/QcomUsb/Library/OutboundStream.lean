-- SUMMARY: A stream that takes the payloads of items in order, a part at a time, and markers behind what asks for one.
import Mathlib

/-!
# Outbound streams

Items stand in a line, and a stream takes their payloads in order. Only the first item of the line
has been taken in part. Some of what the stream takes asks for a marker behind it.
-/

namespace OutboundStream

/-! ## Payloads in order -/

section

variable {ι β : Type} {payload : ι → List β} {gone : List ι} {line : List (ι × Nat)}
  {taken : List β} {i : ι} {n : Nat}

/-- The stream has taken the items that are gone, and of the line the first `p.2` elements of each
item `p.1`, which are none but for its head. -/
structure Delivered (payload : ι → List β) (gone : List ι) (line : List (ι × Nat))
    (taken : List β) : Prop where
  taken : taken = gone.flatMap payload ++ line.flatMap fun p => (payload p.1).take p.2
  rest : ∀ p ∈ line.tail, p.2 = 0

variable (payload) in
theorem flatMap_take_zero (h : ∀ p ∈ line, p.2 = 0) :
    (line.flatMap fun p => (payload p.1).take p.2) = [] := by
  rw [List.flatMap_eq_nil_iff]
  intro p hp
  rw [h p hp, List.take_zero]

theorem Delivered.nil : Delivered payload [] [] ([] : List β) := ⟨rfl, by simp⟩

/-- An item joins the line. -/
theorem Delivered.enqueue (h : Delivered payload gone line taken) (i : ι) :
    Delivered payload gone (line ++ [(i, 0)]) taken := by
  refine ⟨by simpa using h.taken, fun p hp => ?_⟩
  cases line with
  | nil => simp at hp
  | cons q line =>
    rcases List.mem_append.mp hp with hp | hp
    · exact h.rest p hp
    · rw [List.mem_singleton.mp hp]

/-- The head of the line is taken up to `n`. -/
theorem Delivered.advance (h : Delivered payload gone ((i, 0) :: line) taken) (n : Nat) :
    Delivered payload gone ((i, n) :: line) (taken ++ (payload i).take n) := by
  have hline := flatMap_take_zero payload h.rest
  have htaken := h.taken
  rw [List.tail_cons] at hline
  rw [List.flatMap_cons, hline, List.take_zero, List.append_nil, List.append_nil] at htaken
  refine ⟨?_, h.rest⟩
  rw [htaken, List.flatMap_cons, hline, List.append_nil]

/-- The rest of the head of the line is taken, and the head leaves. -/
theorem Delivered.finish (h : Delivered payload gone ((i, n) :: line) taken) :
    Delivered payload (gone ++ [i]) line (taken ++ (payload i).drop n) := by
  have hline := flatMap_take_zero payload h.rest
  rw [List.tail_cons] at hline
  refine ⟨?_, fun p hp => h.rest p (List.mem_of_mem_tail hp)⟩
  rw [h.taken, List.flatMap_cons, hline, List.append_nil, List.append_assoc, List.take_append_drop]
  simp

theorem Delivered.gone_prefix (h : Delivered payload gone line taken) :
    gone.flatMap payload <+: taken :=
  ⟨_, h.taken.symm⟩

theorem Delivered.taken_prefix (h : Delivered payload gone line taken) :
    taken <+: (gone ++ line.map Prod.fst).flatMap payload := by
  rw [h.taken, List.flatMap_append]
  refine (List.prefix_append_right_inj _).mpr ?_
  cases line with
  | nil => exact List.prefix_rfl
  | cons p line =>
    have hline := flatMap_take_zero payload h.rest
    rw [List.tail_cons] at hline
    rw [List.flatMap_cons, hline, List.append_nil, List.map_cons, List.flatMap_cons]
    exact (List.take_prefix _ _).trans (List.prefix_append _ _)

end

/-! ## Markers -/

section

variable {α : Type} {marker asks : α → Bool} {owed owed' owed'' : Bool} {x : α} {xs ys : List α}

/-- Each item is a marker exactly when the one in front asks for it, from what is owed in front of
the items to what is owed behind them. -/
def Marked (marker asks : α → Bool) : Bool → List α → Bool → Prop
  | owed, [], owed' => owed = owed'
  | owed, x :: xs, owed' => marker x = owed ∧ Marked marker asks (asks x) xs owed'

@[simp] theorem marked_nil : Marked marker asks owed [] owed' ↔ owed = owed' := Iff.rfl

@[simp] theorem marked_cons : Marked marker asks owed (x :: xs) owed' ↔
    marker x = owed ∧ Marked marker asks (asks x) xs owed' := Iff.rfl

theorem Marked.append (h : Marked marker asks owed xs owed')
    (h' : Marked marker asks owed' ys owed'') : Marked marker asks owed (xs ++ ys) owed'' := by
  induction xs generalizing owed with
  | nil =>
    obtain rfl : owed = owed' := h
    exact h'
  | cons x xs ih => exact ⟨h.1, ih h.2⟩

/-- One more item is a marker exactly if it is owed. -/
theorem Marked.snoc (h : Marked marker asks owed xs owed') (hx : marker x = owed') :
    Marked marker asks owed (xs ++ [x]) (asks x) :=
  h.append ⟨hx, rfl⟩

theorem Marked.congr {asks' : α → Bool} (h : Marked marker asks owed xs owed')
    (hsame : ∀ x ∈ xs, asks' x = asks x) : Marked marker asks' owed xs owed' := by
  induction xs generalizing owed with
  | nil => exact h
  | cons x xs ih =>
    refine ⟨h.1, ?_⟩
    rw [hsame x List.mem_cons_self]
    exact ih h.2 fun y hy => hsame y (List.mem_cons_of_mem x hy)

end

end OutboundStream
