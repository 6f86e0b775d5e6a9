-- SUMMARY: Lists in the order of a key, into which elements are put behind those with the same key.
import Mathlib.Data.List.Sort

/-!
# Lists in order of a key

An element is put in front of the first one with a greater key. The list stays in order, and the
first of its elements with a property has the least key among those with it.
-/

namespace StableOrder

variable {α : Type} {key : α → Nat} {l : List α} {a b : α}

/-- The keys do not decrease along the list. -/
def Ordered (key : α → Nat) (l : List α) : Prop := l.Pairwise fun a b => key a ≤ key b

/-- The element goes in front of the first one with a greater key. -/
def put (key : α → Nat) (a : α) (l : List α) : List α := l.orderedInsert (fun a b => key a < key b) a

theorem mem_put : b ∈ put key a l ↔ b = a ∨ b ∈ l := List.mem_orderedInsert _

theorem perm_put : (put key a l).Perm (a :: l) := List.perm_orderedInsert _ a l

theorem Ordered.put (h : Ordered key l) (a : α) : Ordered key (put key a l) := by
  induction l with
  | nil => exact List.pairwise_singleton _ a
  | cons b l ih =>
    obtain ⟨hfirst, hrest⟩ := List.pairwise_cons.mp h
    rw [StableOrder.put, List.orderedInsert_cons]
    split_ifs with hlt
    · refine List.pairwise_cons.mpr ⟨?_, h⟩
      intro c hc
      rcases List.mem_cons.mp hc with rfl | hc
      · exact hlt.le
      · exact hlt.le.trans (hfirst c hc)
    · refine List.pairwise_cons.mpr ⟨?_, ih hrest⟩
      intro c hc
      rcases mem_put.mp hc with rfl | hc
      · exact Nat.not_lt.mp hlt
      · exact hfirst c hc

theorem Ordered.filter (h : Ordered key l) (p : α → Bool) : Ordered key (l.filter p) :=
  List.Pairwise.filter p h

/-- Behind elements without a property, an element with it has the least key. -/
theorem Ordered.le_of_split {p : α → Prop} {front back : List α} (h : Ordered key (front ++ a :: back))
    (hfront : ∀ b ∈ front, ¬p b) (hb : b ∈ front ++ a :: back) (hp : p b) : key a ≤ key b := by
  rcases List.mem_append.mp hb with hb | hb
  · exact absurd hp (hfront b hb)
  · rcases List.mem_cons.mp hb with rfl | hb
    · exact Nat.le_refl _
    · exact (List.pairwise_cons.mp (List.pairwise_append.mp h).2.1).1 b hb

end StableOrder
