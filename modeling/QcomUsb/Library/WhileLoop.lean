-- SUMMARY: While loops whose condition is the answer of their body, and the rules to reason about them.
import Mathlib

/-!
# While loops

`whileTrue body` repeats `body` as long as it answers `true`. The bound on the number of
rounds only makes the loop structural: when each successful round lowers a measure, the
loop ends by its own condition.
-/

namespace WhileLoop

variable {σ : Type}

/-- `while (body() == true);`, for at most `n` rounds. -/
def whileTrue (body : σ → Bool × σ) : Nat → σ → σ
  | 0, s => s
  | n + 1, s =>
    match body s with
    | (true, s') => whileTrue body n s'
    | (false, s') => s'

variable {body : σ → Bool × σ}

theorem whileTrue_of_true {n : Nat} {s : σ} (h : (body s).1 = true) :
    whileTrue body (n + 1) s = whileTrue body n (body s).2 := by
  cases hb : body s with
  | mk b s' =>
    rw [hb] at h
    simp only [whileTrue, hb]
    subst h
    rfl

theorem whileTrue_of_false {n : Nat} {s : σ} (h : (body s).1 = false) :
    whileTrue body (n + 1) s = (body s).2 := by
  cases hb : body s with
  | mk b s' =>
    rw [hb] at h
    simp only [whileTrue, hb]
    subst h
    rfl

/-- What each round keeps, the loop keeps. -/
theorem whileTrue_inv {P : σ → Prop} (hbody : ∀ s, P s → P (body s).2) (n : Nat) {s : σ} (h : P s) :
    P (whileTrue body n s) := by
  induction n generalizing s with
  | zero => exact h
  | succ n ih =>
    cases hb : (body s).1 with
    | true =>
      rw [whileTrue_of_true hb]
      exact ih (hbody s h)
    | false =>
      rw [whileTrue_of_false hb]
      exact hbody s h

/-- A loop whose rounds lower a measure ends because its body answers `false`. -/
theorem whileTrue_exits (μ : σ → Nat) (hμ : ∀ s, (body s).1 = true → μ (body s).2 < μ s) {n : Nat}
    {s : σ} (hn : μ s < n) : ∃ t, (body t).1 = false ∧ whileTrue body n s = (body t).2 := by
  induction n generalizing s with
  | zero => exact absurd hn (Nat.not_lt_zero _)
  | succ n ih =>
    cases hb : (body s).1 with
    | true =>
      rw [whileTrue_of_true hb]
      have hlt := hμ s hb
      exact ih (by omega)
    | false => exact ⟨s, hb, whileTrue_of_false hb⟩

end WhileLoop
