-- SUMMARY: Loops that may run for ever: their turns, their result, and when a loop over finitely many states ends.
import Mathlib

/-!
# Loops that may not end

A turn of a loop starts in a state and answers with a result, which leaves the loop, or
with the state of the next turn. Over finitely many states such a loop ends exactly if
it never comes back to a state.
-/

namespace Loop

variable {σ ρ : Type}

/-- The result, if the loop is left within `n` turns. -/
def run (body : σ → ρ ⊕ σ) : Nat → σ → Option ρ
  | 0, _ => none
  | n + 1, s =>
    match body s with
    | .inl r => some r
    | .inr s' => run body n s'

/-- The state in which turn `k` starts, if there is such a turn. -/
def turn (body : σ → ρ ⊕ σ) : Nat → σ → Option σ
  | 0, s => some s
  | k + 1, s =>
    match body s with
    | .inl _ => none
    | .inr s' => turn body k s'

/-- The loop is left with the result `r`. -/
def Returns (body : σ → ρ ⊕ σ) (s : σ) (r : ρ) : Prop := ∃ n, run body n s = some r

/-- The loop is left. -/
def Ends (body : σ → ρ ⊕ σ) (s : σ) : Prop := ∃ r, Returns body s r

variable {body : σ → ρ ⊕ σ}

/-! ## One turn -/

theorem returns_of_inl {s : σ} {r : ρ} (h : body s = .inl r) : Returns body s r :=
  ⟨1, by simp [run, h]⟩

theorem returns_iff_of_inl {s : σ} {r r' : ρ} (h : body s = .inl r) :
    Returns body s r' ↔ r' = r := by
  constructor
  · rintro ⟨n, hn⟩
    cases n with
    | zero => simp [run] at hn
    | succ n =>
      simp only [run, h, Option.some.injEq] at hn
      exact hn.symm
  · rintro rfl
    exact returns_of_inl h

theorem returns_iff_of_inr {s s' : σ} {r : ρ} (h : body s = .inr s') :
    Returns body s r ↔ Returns body s' r := by
  constructor
  · rintro ⟨n, hn⟩
    cases n with
    | zero => simp [run] at hn
    | succ n => exact ⟨n, by simpa [run, h] using hn⟩
  · rintro ⟨n, hn⟩
    exact ⟨n + 1, by simpa [run, h] using hn⟩

theorem ends_of_inl {s : σ} {r : ρ} (h : body s = .inl r) : Ends body s := ⟨r, returns_of_inl h⟩

theorem ends_iff_of_inr {s s' : σ} (h : body s = .inr s') : Ends body s ↔ Ends body s' :=
  exists_congr fun _ => returns_iff_of_inr h

theorem turn_succ_of_inl {s : σ} {r : ρ} (h : body s = .inl r) (k : Nat) :
    turn body (k + 1) s = none := by
  simp [turn, h]

theorem turn_succ_of_inr {s s' : σ} (h : body s = .inr s') (k : Nat) :
    turn body (k + 1) s = turn body k s' := by
  simp [turn, h]

/-! ## The turns and the result -/

theorem turn_add (i k : Nat) (s : σ) :
    turn body (i + k) s = (turn body i s).bind (turn body k) := by
  induction i generalizing s with
  | zero => simp [turn]
  | succ i ih =>
    rw [Nat.succ_add]
    cases h : body s with
    | inl r => simp [turn_succ_of_inl h]
    | inr s' => rw [turn_succ_of_inr h, turn_succ_of_inr h, ih]

/-- What a turn keeps holds where every turn starts. -/
theorem turn_inv {P : σ → Prop} (hbody : ∀ s s', P s → body s = .inr s' → P s') {k : Nat} {s t : σ}
    (h : P s) (ht : turn body k s = some t) : P t := by
  induction k generalizing s with
  | zero => exact Option.some.inj ht ▸ h
  | succ k ih =>
    cases hb : body s with
    | inl r => simp [turn_succ_of_inl hb] at ht
    | inr s' => exact ih (hbody s s' h hb) (turn_succ_of_inr hb k ▸ ht)

/-- A turn that answers with a result is the last one. -/
theorem run_of_turn {k : Nat} {s t : σ} {r : ρ} (ht : turn body k s = some t)
    (hr : body t = .inl r) : run body (k + 1) s = some r := by
  induction k generalizing s with
  | zero =>
    obtain rfl := Option.some.inj ht
    simp [run, hr]
  | succ k ih =>
    cases h : body s with
    | inl r' => simp [turn_succ_of_inl h] at ht
    | inr s' =>
      rw [run, h]
      exact ih (turn_succ_of_inr h k ▸ ht)

/-- The loop returns what one of its turns answers. -/
theorem returns_iff_turn {s : σ} {r : ρ} :
    Returns body s r ↔ ∃ k t, turn body k s = some t ∧ body t = .inl r := by
  constructor
  · rintro ⟨n, hn⟩
    induction n generalizing s with
    | zero => simp [run] at hn
    | succ n ih =>
      cases h : body s with
      | inl r' =>
        simp only [run, h, Option.some.injEq] at hn
        exact ⟨0, s, rfl, by rw [h, hn]⟩
      | inr s' =>
        simp only [run, h] at hn
        obtain ⟨k, t, ht, hr⟩ := ih hn
        exact ⟨k + 1, t, by rw [turn_succ_of_inr h, ht], hr⟩
  · rintro ⟨k, t, ht, hr⟩
    exact ⟨k + 1, run_of_turn ht hr⟩

theorem returns_unique {s : σ} {r r' : ρ} (h : Returns body s r) (h' : Returns body s r') :
    r = r' := by
  obtain ⟨n, hn⟩ := h
  induction n generalizing s with
  | zero => simp [run] at hn
  | succ n ih =>
    cases hb : body s with
    | inl q =>
      simp only [run, hb, Option.some.injEq] at hn
      rw [(returns_iff_of_inl hb).mp h', hn]
    | inr s' =>
      simp only [run, hb] at hn
      exact ih ((returns_iff_of_inr hb).mp h') hn

/-- More turns than needed do not change the result. -/
theorem run_of_le {n m : Nat} {s : σ} {r : ρ} (hn : run body n s = some r) (hle : n ≤ m) :
    run body m s = some r := by
  induction n generalizing s m with
  | zero => simp [run] at hn
  | succ n ih =>
    obtain ⟨m, rfl⟩ := Nat.exists_eq_add_of_le' hle
    rw [← Nat.add_assoc]
    cases h : body s with
    | inl q => simpa [run, h] using hn
    | inr s' =>
      simp only [run, h] at hn ⊢
      exact ih hn (Nat.le_add_left n m)

/-- The loop ends exactly if some turn does not take place. -/
theorem ends_iff_turn {s : σ} : Ends body s ↔ ∃ k, turn body k s = none := by
  constructor
  · rintro ⟨r, hr⟩
    obtain ⟨k, t, ht, hb⟩ := returns_iff_turn.mp hr
    refine ⟨k + 1, ?_⟩
    rw [turn_add, ht]
    exact turn_succ_of_inl hb 0
  · rintro ⟨k, hk⟩
    induction k generalizing s with
    | zero => simp [turn] at hk
    | succ k ih =>
      cases h : body s with
      | inl r => exact ends_of_inl h
      | inr s' => exact (ends_iff_of_inr h).mpr (ih (turn_succ_of_inr h k ▸ hk))

/-- A loop that comes back to a state goes on for ever. -/
theorem not_ends_of_turn_eq {s t : σ} {i j : Nat} (hij : i < j) (hi : turn body i s = some t)
    (hj : turn body j s = some t) : ¬ Ends body s := by
  rw [ends_iff_turn]
  rintro ⟨k, hk⟩
  -- the turns repeat with period `j - i`, so a last turn would have an earlier one
  induction k using Nat.strong_induction_on with
  | _ k ih =>
    by_cases hle : j ≤ k
    · obtain ⟨m, rfl⟩ := Nat.exists_eq_add_of_le hle
      have hback : turn body (i + m) s = turn body (j + m) s := by
        rw [turn_add, turn_add, hi, hj]
      exact ih (i + m) (by omega) (hback.trans hk)
    · obtain ⟨m, rfl⟩ := Nat.exists_eq_add_of_le (Nat.le_of_not_le hle)
      rw [turn_add, hk] at hj
      simp at hj

/-- Over finitely many states a loop ends exactly if no two of its turns start in the
same state. -/
theorem ends_iff_no_return [Finite σ] {s : σ} :
    Ends body s ↔ ∀ i j t, i < j → turn body i s = some t → turn body j s ≠ some t := by
  constructor
  · exact fun hends i j t hij hi hj => not_ends_of_turn_eq hij hi hj hends
  · intro hno
    by_contra hnot
    have hsome (k : Nat) : ∃ t, turn body k s = some t := by
      rw [ends_iff_turn, not_exists] at hnot
      exact Option.ne_none_iff_exists'.mp (hnot k)
    choose state hstate using hsome
    obtain ⟨i, j, hne, heq⟩ := Finite.exists_ne_map_eq_of_infinite state
    rcases Nat.lt_or_gt_of_ne hne with hlt | hlt
    · exact hno i j (state i) hlt (hstate i) (by rw [heq]; exact hstate j)
    · exact hno j i (state j) hlt (hstate j) (by rw [← heq]; exact hstate i)

/-- Over at most `n` states, `n` turns give every result. -/
theorem run_of_returns {n : Nat} {f : σ → Fin n} (hf : Function.Injective f) {s : σ} {r : ρ}
    (h : Returns body s r) : run body n s = some r := by
  obtain ⟨k, t, ht, hr⟩ := returns_iff_turn.mp h
  have hends : Ends body s := ⟨r, h⟩
  -- the turns up to the last one start in different states
  have hsome (i : Fin (k + 1)) : ∃ u, turn body i s = some u := by
    obtain ⟨m, hm⟩ := Nat.exists_eq_add_of_le (Nat.le_of_lt_succ i.isLt)
    rw [hm, turn_add] at ht
    exact (Option.bind_eq_some_iff.mp ht).imp fun _ hu => hu.1
  choose state hstate using hsome
  have hne {i j : Fin (k + 1)} (hij : i < j) : state i ≠ state j := fun heq =>
    not_ends_of_turn_eq hij (hstate i) (heq ▸ hstate j) hends
  have hinj : Function.Injective fun i => f (state i) := fun i j heq => by
    rcases lt_trichotomy i j with hlt | rfl | hgt
    · exact absurd (hf heq) (hne hlt)
    · rfl
    · exact absurd (hf heq).symm (hne hgt)
  have hle : k + 1 ≤ n := by simpa using Fintype.card_le_of_injective _ hinj
  exact run_of_le (run_of_turn ht hr) hle

/-! ## Loops that lower a measure -/

/-- A loop whose turns lower a measure is left. -/
theorem exists_run_of_decreases {μ : σ → Nat} (hμ : ∀ s s', body s = .inr s' → μ s' < μ s) {n : Nat}
    {s : σ} (hn : μ s < n) : ∃ r, run body n s = some r := by
  induction n generalizing s with
  | zero => exact absurd hn (Nat.not_lt_zero _)
  | succ n ih =>
    cases h : body s with
    | inl r => exact ⟨r, by simp [run, h]⟩
    | inr s' =>
      have hlt := hμ s s' h
      simp only [run, h]
      exact ih (by omega)

/-- A measure that never rises falls only finitely often. -/
theorem not_falls_again_and_again {f : Nat → Nat} (hle : ∀ k, f (k + 1) ≤ f k) :
    ¬∀ k, ∃ j ≥ k, f (j + 1) < f j := by
  intro hlt
  have hanti : Antitone f := antitone_nat_of_succ_le hle
  have hfalls (b : Nat) : ∀ k, f k ≠ b := by
    induction b using Nat.strong_induction_on with
    | _ b ih =>
      rintro k rfl
      obtain ⟨j, hj, hfall⟩ := hlt k
      exact ih (f (j + 1)) (Nat.lt_of_lt_of_le hfall (hanti hj)) (j + 1) rfl
  exact hfalls (f 0) 0 rfl

/-- As many turns as the measure says give the result of the turns still to come. -/
theorem run_eq_of_inr {μ : σ → Nat} (hμ : ∀ s s', body s = .inr s' → μ s' < μ s) {s s' : σ}
    (h : body s = .inr s') : run body (μ s + 1) s = run body (μ s' + 1) s' := by
  obtain ⟨r, hr⟩ := exists_run_of_decreases hμ (Nat.lt_succ_self (μ s'))
  rw [hr]
  simp only [run, h]
  exact run_of_le hr (hμ s s' h)

theorem run_eq_of_inl {s : σ} {r : ρ} (h : body s = .inl r) (n : Nat) :
    run body (n + 1) s = some r := by
  simp [run, h]

/-- The turns of such a loop stay below where it starts. -/
theorem turn_measure_le {μ : σ → Nat} (hμ : ∀ s s', body s = .inr s' → μ s' < μ s) {k : Nat}
    {s t : σ} (ht : turn body k s = some t) : μ t ≤ μ s :=
  turn_inv (P := fun u => μ u ≤ μ s)
    (fun u u' hle hu => Nat.le_trans (Nat.le_of_lt (hμ u u' hu)) hle) (Nat.le_refl _) ht

/-! ## Two loops side by side -/

/-- Loops whose turns stay related give related results after the same number of turns. -/
theorem run_simulates {σ' ρ' : Type} {body' : σ' → ρ' ⊕ σ'} {R : σ → σ' → Prop}
    {Q : ρ → ρ' → Prop} (hturn : ∀ s t, R s t → Sum.LiftRel Q R (body s) (body' t)) (n : Nat)
    {s : σ} {t : σ'} (h : R s t) : Option.Rel Q (run body n s) (run body' n t) := by
  induction n generalizing s t with
  | zero => exact .none
  | succ n ih =>
    have hst := hturn s t h
    simp only [run]
    cases hs : body s <;> cases ht : body' t <;> rw [hs, ht] at hst <;> cases hst
    · exact .some ‹_›
    · exact ih ‹_›

end Loop
