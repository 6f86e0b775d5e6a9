-- SUMMARY: The search of a range of indices for the first one with a property.
import Mathlib

/-!
# Linear search

A search that looks at one index after the other, stops at the first one with the property, and
otherwise goes on to the end of its range. `search_prop` and `search_eq_of_first` say where it
stops.
-/

namespace LinearSearch

variable {p : Nat → Prop} [DecidablePred p] {n i j : Nat}

/-- The index at which the search of `n` indices from `i` on stops. -/
def search (p : Nat → Prop) [DecidablePred p] : Nat → Nat → Nat
  | 0, i => i
  | n + 1, i => if p i then i else search p n (i + 1)

theorem le_search (p : Nat → Prop) [DecidablePred p] (n i : Nat) : i ≤ search p n i := by
  induction n generalizing i with
  | zero => exact Nat.le_refl i
  | succ n ih =>
    rw [search]
    split_ifs with hp
    · exact Nat.le_refl i
    · exact Nat.le_of_succ_le (ih (i + 1))

theorem search_le (p : Nat → Prop) [DecidablePred p] (n i : Nat) : search p n i ≤ i + n := by
  induction n generalizing i with
  | zero => exact Nat.le_refl i
  | succ n ih =>
    rw [search]
    split_ifs with hp
    · exact Nat.le_add_right i (n + 1)
    · calc search p n (i + 1) ≤ i + 1 + n := ih (i + 1)
        _ = i + (n + 1) := by rw [Nat.add_assoc, Nat.add_comm 1 n]

/-- The search passes only indices without the property. -/
theorem not_of_lt_search (hle : i ≤ j) (hlt : j < search p n i) : ¬p j := by
  induction n generalizing i with
  | zero => exact absurd hlt (Nat.not_lt.mpr hle)
  | succ n ih =>
    rw [search] at hlt
    split_ifs at hlt with hp
    · exact absurd hlt (Nat.not_lt.mpr hle)
    · rcases Nat.eq_or_lt_of_le hle with rfl | hle'
      · exact hp
      · exact ih hle' hlt

/-- Where the search stops before its end there is the property. -/
theorem search_prop (hlt : search p n i < i + n) : p (search p n i) := by
  induction n generalizing i with
  | zero => exact absurd hlt (Nat.lt_irrefl i)
  | succ n ih =>
    rw [search] at hlt ⊢
    split_ifs at hlt ⊢ with hp
    · exact hp
    · apply ih
      rwa [Nat.add_assoc, Nat.add_comm 1 n]

theorem search_eq_of_first (hle : i ≤ j) (hlt : j < i + n) (hp : p j)
    (hfirst : ∀ k, i ≤ k → k < j → ¬p k) : search p n i = j := by
  apply Nat.le_antisymm
  · by_contra hgt
    exact not_of_lt_search hle (Nat.not_le.mp hgt) hp
  · by_contra hgt
    have hstop : search p n i < j := Nat.not_le.mp hgt
    exact hfirst _ (le_search p n i) hstop (search_prop (hstop.trans hlt))

end LinearSearch
