-- SUMMARY: Walks along a list, from one match to the next one behind it.
import Mathlib

/-!
# Walks along a list

A search that is given the last match passes over the list until it has seen that match, and
answers the next one. Repeated from nothing, it stops at every match once, in the order of the list.
-/

namespace ListWalk

variable {α : Type} [DecidableEq α] {p : α → Bool} {xs front back visited : List α}
  {last : Option α} {x : α}

/-- The first match behind `last`. The flag says that `last` was seen. -/
def findBehind (last : α) (p : α → Bool) : Bool → List α → Option α
  | _, [] => none
  | seen, x :: xs => if seen && p x then some x else findBehind last p (seen || x == last) xs

/-- The next match of a walk. -/
def next (p : α → Bool) (xs : List α) : Option α → Option α
  | none => xs.find? p
  | some last => findBehind last p false xs

theorem findBehind_seen (last : α) (p : α → Bool) (xs : List α) :
    findBehind last p true xs = xs.find? p := by
  induction xs with
  | nil => rfl
  | cons x xs ih =>
    rw [findBehind, Bool.true_or, ih, List.find?_cons, Bool.true_and]
    cases p x <;> rfl

theorem findBehind_append (hx : x ∉ front) (back : List α) :
    findBehind x p false (front ++ x :: back) = back.find? p := by
  induction front with
  | nil => simp [findBehind, findBehind_seen]
  | cons y front ih =>
    have hne : (y == x) = false := beq_false_of_ne fun heq => hx (heq ▸ List.mem_cons_self)
    rw [List.cons_append, findBehind, hne]
    exact ih fun hmem => hx (List.mem_cons_of_mem y hmem)

/-- A walk has passed `front`, and its last match ends it. -/
structure Walked (p : α → Bool) (xs visited : List α) (last : Option α) : Prop where
  passed : ∃ front back, xs = front ++ back ∧ visited = front.filter p ∧ front.getLast? = last

omit [DecidableEq α] in
theorem Walked.start (p : α → Bool) (xs : List α) : Walked p xs [] none :=
  ⟨[], xs, rfl, rfl, rfl⟩

/-- Behind its last match a walk looks for the first one. -/
theorem next_eq (hnodup : (front ++ back).Nodup) :
    next p (front ++ back) front.getLast? = back.find? p := by
  rcases List.eq_nil_or_concat front with rfl | ⟨front, x, rfl⟩
  · rfl
  · have hx : x ∉ front := by
      have hfront := (List.nodup_append.mp hnodup).1
      rw [List.concat_eq_append] at hfront
      exact fun hmem => (List.nodup_append.mp hfront).2.2 x hmem x (List.mem_singleton_self x) rfl
    rw [List.concat_eq_append, List.getLast?_concat, List.append_assoc]
    exact findBehind_append hx back

/-- The next match was not visited. -/
theorem Walked.next_some (h : Walked p xs visited last) (hnodup : xs.Nodup)
    (hnext : next p xs last = some x) :
    Walked p xs (visited ++ [x]) (some x) ∧ x ∈ xs ∧ p x = true ∧ x ∉ visited := by
  obtain ⟨front, back, rfl, rfl, rfl⟩ := h.passed
  rw [next_eq hnodup] at hnext
  obtain ⟨hp, before, after, rfl, hbefore⟩ := List.find?_eq_some_iff_append.mp hnext
  have hnone : before.filter p = [] := by
    rw [List.filter_eq_nil_iff]
    intro y hy
    simpa using hbefore y hy
  refine ⟨⟨front ++ before ++ [x], after, by simp, ?_, by simp⟩, by simp, hp, fun hmem => ?_⟩
  · simp [List.filter_append, hnone, hp]
  · have hfront := (List.mem_filter.mp hmem).1
    exact (List.nodup_append.mp hnodup).2.2 x hfront x (by simp) rfl

/-- At its end a walk has visited every match. -/
theorem Walked.next_none (h : Walked p xs visited last) (hnodup : xs.Nodup)
    (hnext : next p xs last = none) : visited = xs.filter p := by
  obtain ⟨front, back, rfl, rfl, rfl⟩ := h.passed
  rw [next_eq hnodup] at hnext
  have hback : back.filter p = [] := by
    rw [List.filter_eq_nil_iff]
    exact List.find?_eq_none.mp hnext
  rw [List.filter_append, hback, List.append_nil]

end ListWalk
