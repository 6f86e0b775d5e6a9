-- SUMMARY: Routines that are at work at the same time, and what they hold together as one of them goes on.
import Mathlib

/-!
# Routines at work

Several routines are at work, each at some point of its code, and in one step one of them goes on to
its next point or ends. A count of what each of them holds changes by what that one holds.
-/

namespace Routines

variable {ρ : Type} {w : ρ → Nat} {rs : List ρ} {r q : ρ} {next : Option ρ}

/-- What the routines hold together. -/
def total (w : ρ → Nat) (rs : List ρ) : Nat := (rs.map w).sum

/-- What is held by the point that a routine goes on to. -/
def held (w : ρ → Nat) (next : Option ρ) : Nat := next.elim 0 w

@[simp] theorem total_nil : total w [] = 0 := rfl

@[simp] theorem total_cons : total w (r :: rs) = w r + total w rs := rfl

@[simp] theorem held_none : held w none = 0 := rfl

@[simp] theorem held_some : held w (some r) = w r := rfl

theorem le_total (h : r ∈ rs) : w r ≤ total w rs := by
  induction rs with
  | nil => simp at h
  | cons q rs ih =>
    rw [total_cons]
    rcases List.mem_cons.mp h with rfl | hrest
    · exact Nat.le_add_right _ _
    · exact (ih hrest).trans (Nat.le_add_left _ _)

theorem total_mono {v : ρ → Nat} (h : ∀ r ∈ rs, w r ≤ v r) : total w rs ≤ total v rs := by
  induction rs with
  | nil => exact Nat.le_refl 0
  | cons q rs ih =>
    obtain ⟨hq, hrest⟩ := List.forall_mem_cons.mp h
    exact Nat.add_le_add hq (ih hrest)

theorem total_eq_zero_iff : total w rs = 0 ↔ ∀ r ∈ rs, w r = 0 := by
  induction rs with
  | nil => simp
  | cons q rs ih => rw [total_cons, Nat.add_eq_zero_iff, ih, List.forall_mem_cons]

variable [DecidableEq ρ]

/-- The routine goes on. -/
def advance (rs : List ρ) (r : ρ) (next : Option ρ) : List ρ := next.toList ++ rs.erase r

theorem mem_of_mem_advance (h : q ∈ advance rs r next) : next = some q ∨ q ∈ rs := by
  rw [advance, List.mem_append, Option.mem_toList] at h
  exact h.imp_right List.mem_of_mem_erase

theorem total_erase (h : r ∈ rs) : total w rs = w r + total w (rs.erase r) := by
  induction rs with
  | nil => simp at h
  | cons q rs ih =>
    by_cases heq : q = r
    · rw [heq, List.erase_cons_head, total_cons]
    · have hrest : r ∈ rs := (List.mem_cons.mp h).resolve_left fun hr => heq hr.symm
      rw [List.erase_cons_tail (by simpa using heq), total_cons, total_cons, ih hrest]
      omega

/-- The routines but for one, and that one where it is then. -/
theorem total_advance_eq (w : ρ → Nat) (rs : List ρ) (r : ρ) (next : Option ρ) :
    total w (advance rs r next) = total w (rs.erase r) + held w next := by
  cases next with
  | none => rfl
  | some q => exact Nat.add_comm _ _

theorem total_advance (w : ρ → Nat) (next : Option ρ) (h : r ∈ rs) :
    total w (advance rs r next) + w r = total w rs + held w next := by
  rw [total_erase h, total_advance_eq]
  omega

/-- What two routines hold. -/
theorem add_le_total (hr : r ∈ rs) (hq : q ∈ rs) (hne : q ≠ r) : w r + w q ≤ total w rs := by
  rw [total_erase hr]
  exact Nat.add_le_add_left (le_total ((List.mem_erase_of_ne hne).mpr hq)) _

end Routines
