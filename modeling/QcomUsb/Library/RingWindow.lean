-- SUMMARY: The slots of a ring, the items numbered in the order they take them, and the window of items that occupy slots.
import Mathlib

/-!
# Windows on a ring

The items that pass through a ring are numbered, and item `k` takes slot `k % n`. The items that
occupy a slot form a window `lo ≤ k < hi` of at most `n`, so no two of them have the same slot.
-/

namespace RingWindow

variable {n lo hi j k : Nat}

/-- The slot after `i`. -/
def next (n i : Nat) : Nat := if i + 1 = n then 0 else i + 1

theorem next_mod (hn : 0 < n) (k : Nat) : next n (k % n) = (k + 1) % n := by
  have hlt : k % n < n := Nat.mod_lt k hn
  have hmod : (k % n + 1) % n = (k + 1) % n := Nat.mod_add_mod k n 1
  unfold next
  split_ifs with hlast
  · rw [← hmod, hlast, Nat.mod_self]
  · rw [← hmod, Nat.mod_eq_of_lt (show k % n + 1 < n by omega)]

/-- Two items of one slot that are less than a turn apart are the same. -/
theorem eq_of_mod_eq (h : j % n = k % n) (hjk : j ≤ k) (hlt : k < j + n) : j = k := by
  have hdvd : n ∣ k - j := (Nat.modEq_iff_dvd' hjk).mp h
  have hzero : k - j = 0 := Nat.eq_zero_of_dvd_of_lt hdvd (by omega)
  omega

/-- The items of a window have different slots. -/
theorem eq_of_mem (h : j % n = k % n) (hwindow : hi ≤ lo + n) (hj : lo ≤ j ∧ j < hi)
    (hk : lo ≤ k ∧ k < hi) : j = k := by
  rcases Nat.le_total j k with hle | hle
  · exact eq_of_mod_eq h hle (by omega)
  · exact (eq_of_mod_eq h.symm hle (by omega)).symm

/-- The slot of the next item is free exactly if the window does not fill the ring. -/
theorem free_iff (hn : 0 < n) (hle : lo ≤ hi) (hwindow : hi ≤ lo + n) :
    (∀ k, lo ≤ k → k < hi → k % n ≠ hi % n) ↔ hi < lo + n := by
  constructor
  · intro hfree
    by_contra hfull
    obtain rfl : hi = lo + n := by omega
    exact hfree lo le_rfl (by omega) (by simp)
  · intro hroom k hlo hhi hslot
    have : k = hi := eq_of_mod_eq hslot hhi.le (by omega)
    omega

end RingWindow
