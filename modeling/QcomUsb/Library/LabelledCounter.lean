-- SUMMARY: Counters whose values carry labels, and how far back a label can repeat.
import Mathlib

/-!
# Labelled counters

A counter goes through the numbers one by one. Some of its values carry a label, and
only those are given out. If equal labels are far apart and labels are dense, a label
differs from the ones given out shortly before it.
-/

namespace LabelledCounter

variable {α : Type}

/-- The labels of the `k` values after `lo`, the newest first. -/
def labels (f : Nat → Option α) (lo : Nat) : Nat → List α
  | 0 => []
  | k + 1 => (f (lo + k + 1)).toList ++ labels f lo k

/-- Every entry differs from the `n` entries after it. -/
def DistinctWithin (n : Nat) : List α → Prop
  | [] => True
  | a :: l => a ∉ l.take n ∧ DistinctWithin n l

instance [DecidableEq α] (n : Nat) : DecidablePred (DistinctWithin (α := α) n) := fun l =>
  let rec dec : (l : List α) → Decidable (DistinctWithin n l)
    | [] => .isTrue trivial
    | a :: l => @instDecidableAnd _ _ (inferInstanceAs (Decidable (a ∉ l.take n))) (dec l)
  dec l

variable {f : Nat → Option α}

@[simp] theorem labels_zero (lo : Nat) : labels f lo 0 = [] := rfl

theorem labels_succ (lo k : Nat) :
    labels f lo (k + 1) = (f (lo + k + 1)).toList ++ labels f lo k := rfl

theorem labels_add (lo j k : Nat) :
    labels f lo (j + k) = labels f (lo + j) k ++ labels f lo j := by
  induction k with
  | zero => simp
  | succ k ih =>
    rw [← Nat.add_assoc, labels_succ, labels_succ, ih, ← Nat.add_assoc lo j k, List.append_assoc]

theorem mem_labels {lo k : Nat} {a : α} :
    a ∈ labels f lo k ↔ ∃ v, lo < v ∧ v ≤ lo + k ∧ f v = some a := by
  induction k with
  | zero =>
    simp only [labels_zero, List.not_mem_nil, Nat.add_zero, false_iff]
    rintro ⟨v, hlo, hv, -⟩
    omega
  | succ k ih =>
    rw [labels_succ, List.mem_append, ih, Option.mem_toList]
    constructor
    · rintro (hnew | ⟨v, hlo, hv, hf⟩)
      · exact ⟨lo + k + 1, by omega, by omega, hnew⟩
      · exact ⟨v, hlo, by omega, hf⟩
    · rintro ⟨v, hlo, hv, hf⟩
      rcases Nat.lt_or_ge (lo + k) v with hlast | hold
      · have hv : v = lo + k + 1 := by omega
        exact .inl (hv ▸ hf)
      · exact .inr ⟨v, hlo, hold, hf⟩

/-- The newest `n` labels belong to the last `q` values, if `q` values always carry `n` labels. -/
theorem take_labels_recent {n q : Nat} (hdense : ∀ lo, n ≤ (labels f lo q).length) {lo k : Nat}
    {a : α} (ha : a ∈ (labels f lo k).take n) : ∃ v, lo + k < v + q ∧ v ≤ lo + k ∧ f v = some a := by
  rcases Nat.lt_or_ge k q with hshort | hlong
  · obtain ⟨v, hlo, hv, hf⟩ := mem_labels.mp (List.mem_of_mem_take ha)
    exact ⟨v, by omega, hv, hf⟩
  · obtain ⟨j, rfl⟩ : ∃ j, k = j + q := ⟨k - q, by omega⟩
    rw [labels_add, List.take_append_of_le_length (hdense _)] at ha
    obtain ⟨v, hlo, hv, hf⟩ := mem_labels.mp (List.mem_of_mem_take ha)
    exact ⟨v, by omega, by omega, hf⟩

theorem distinctWithin_labels {n q : Nat}
    (hapart : ∀ v w a, f v = some a → f w = some a → v < w → v + q < w)
    (hdense : ∀ lo, n ≤ (labels f lo q).length) (lo k : Nat) :
    DistinctWithin n (labels f lo k) := by
  induction k with
  | zero => trivial
  | succ k ih =>
    rw [labels_succ]
    cases hnew : f (lo + k + 1) with
    | none => exact ih
    | some a =>
      refine ⟨fun ha => ?_, ih⟩
      obtain ⟨v, hrecent, hv, hf⟩ := take_labels_recent hdense ha
      have hfar : v + q < lo + k + 1 := hapart v _ a hf hnew (by omega)
      omega

end LabelledCounter
