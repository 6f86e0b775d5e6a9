-- SUMMARY: Machines that read inputs and answer outputs, their runs, and the induction rules for invariants over runs.
import Mathlib

/-!
# Machines and runs

A machine takes one input at a time. A step may be disabled. The rules below
package the induction over a run once: an invariant holds in every state a run
visits, a history invariant relates the state to everything read and answered so
far, and a simulation carries the answers of one machine over to another.
-/

namespace Transition

/-- One step: from a state and an input to the next state and an output. A step
that cannot be taken answers `none`. -/
abbrev Machine (σ ι ο : Type) := σ → ι → Option (σ × ο)

namespace Machine

variable {σ ι ο : Type}

/-- The run over a list of inputs. It fails if one of its steps does. -/
def run (M : Machine σ ι ο) : σ → List ι → Option (σ × List ο)
  | s, [] => some (s, [])
  | s, i :: is =>
    match M s i with
    | none => none
    | some (s', o) =>
      match run M s' is with
      | none => none
      | some (t, os) => some (t, o :: os)

/-- The states a run passes through, its start included. The run ends at the
first input whose step is disabled. -/
def visits (M : Machine σ ι ο) : σ → List ι → List σ
  | s, [] => [s]
  | s, i :: is =>
    match M s i with
    | none => [s]
    | some (s', _) => s :: visits M s' is

/-- The steps a run takes, each with the state it is taken in. -/
def fires (M : Machine σ ι ο) : σ → List ι → List (σ × ι)
  | _, [] => []
  | s, i :: is =>
    match M s i with
    | none => []
    | some (s', _) => (s, i) :: fires M s' is

variable {M : Machine σ ι ο}

@[simp] theorem run_nil (s : σ) : M.run s [] = some (s, []) := rfl
@[simp] theorem visits_nil (s : σ) : M.visits s [] = [s] := rfl
@[simp] theorem fires_nil (s : σ) : M.fires s [] = [] := rfl

theorem visits_cons_some {s s' : σ} {i : ι} {o : ο} (is : List ι) (h : M s i = some (s', o)) :
    M.visits s (i :: is) = s :: M.visits s' is := by
  simp [visits, h]

theorem fires_cons_some {s s' : σ} {i : ι} {o : ο} (is : List ι) (h : M s i = some (s', o)) :
    M.fires s (i :: is) = (s, i) :: M.fires s' is := by
  simp [fires, h]

theorem visits_cons_none {s : σ} {i : ι} (is : List ι) (h : M s i = none) :
    M.visits s (i :: is) = [s] := by
  simp [visits, h]

theorem fires_cons_none {s : σ} {i : ι} (is : List ι) (h : M s i = none) :
    M.fires s (i :: is) = [] := by
  simp [fires, h]

theorem start_mem_visits (s : σ) (is : List ι) : s ∈ M.visits s is := by
  cases is with
  | nil => simp
  | cons i is =>
    cases h : M s i with
    | none => simp [visits_cons_none is h]
    | some r =>
      obtain ⟨s', o⟩ := r
      simp [visits_cons_some is h]

/-- The inputs of the steps a run takes are among its inputs. -/
theorem mem_of_mem_fires {s : σ} {is : List ι} {p : σ × ι} (h : p ∈ M.fires s is) : p.2 ∈ is := by
  induction is generalizing s with
  | nil => simp at h
  | cons i is ih =>
    cases hi : M s i with
    | none => simp [fires_cons_none is hi] at h
    | some r =>
      obtain ⟨s', o⟩ := r
      rw [fires_cons_some is hi] at h
      rcases List.mem_cons.mp h with rfl | hrest
      · exact List.mem_cons_self
      · exact List.mem_cons_of_mem _ (ih hrest)

/-- A step that a run takes can be taken. -/
theorem exists_of_mem_fires {s : σ} {is : List ι} {p : σ × ι} (h : p ∈ M.fires s is) :
    ∃ s' o, M p.1 p.2 = some (s', o) := by
  induction is generalizing s with
  | nil => simp at h
  | cons i is ih =>
    cases hi : M s i with
    | none => simp [fires_cons_none is hi] at h
    | some r =>
      obtain ⟨s', o⟩ := r
      rw [fires_cons_some is hi] at h
      rcases List.mem_cons.mp h with rfl | hrest
      · exact ⟨s', o, hi⟩
      · exact ih hrest

/-- A run visits the states it takes its steps in. -/
theorem fst_mem_visits_of_mem_fires {s : σ} {is : List ι} {p : σ × ι} (h : p ∈ M.fires s is) :
    p.1 ∈ M.visits s is := by
  induction is generalizing s with
  | nil => simp at h
  | cons i is ih =>
    cases hi : M s i with
    | none => simp [fires_cons_none is hi] at h
    | some r =>
      rw [fires_cons_some is hi] at h
      rw [visits_cons_some is hi]
      rcases List.mem_cons.mp h with rfl | hrest
      · exact List.mem_cons_self
      · exact List.mem_cons_of_mem _ (ih hrest)

/-- The state after an input. A step that cannot be taken leaves the state alone. -/
def next (M : Machine σ ι ο) (s : σ) (i : ι) : σ :=
  match M s i with
  | none => s
  | some (s', _) => s'

theorem forall_fires_cons {Ok : σ → ι → Prop} {s : σ} {i : ι} {is : List ι} (hi : Ok s i)
    (his : ∀ p ∈ M.fires (M.next s i) is, Ok p.1 p.2) : ∀ p ∈ M.fires s (i :: is), Ok p.1 p.2 := by
  cases h : M s i with
  | none => simp [fires_cons_none is h]
  | some r =>
    obtain ⟨s', o⟩ := r
    have hnext : M.next s i = s' := by simp [next, h]
    rw [hnext] at his
    rw [fires_cons_some is h]
    exact List.forall_mem_cons.mpr ⟨hi, his⟩

/-- A run over a first input and the rest takes the step and then runs the rest. -/
theorem run_cons_eq_some {s t : σ} {i : ι} {is : List ι} {os : List ο} :
    M.run s (i :: is) = some (t, os) ↔
      ∃ s' o os', M s i = some (s', o) ∧ M.run s' is = some (t, os') ∧ os = o :: os' := by
  constructor
  · intro h
    simp only [run] at h
    split at h
    · cases h
    · rename_i s' o hi
      split at h
      · cases h
      · rename_i t' os' hr
        simp only [Option.some.injEq, Prod.mk.injEq] at h
        obtain ⟨rfl, rfl⟩ := h
        exact ⟨s', o, os', hi, hr, rfl⟩
  · rintro ⟨s', o, os', hi, hr, rfl⟩
    simp [run, hi, hr]

theorem run_append {s t : σ} {is js : List ι} {os : List ο} (h : M.run s is = some (t, os)) :
    M.run s (is ++ js) = (M.run t js).map fun r => (r.1, os ++ r.2) := by
  induction is generalizing s os with
  | nil =>
    simp only [run, Option.some.injEq, Prod.mk.injEq] at h
    obtain ⟨rfl, rfl⟩ := h
    simp
  | cons i is ih =>
    obtain ⟨s', o, os', hi, hr, rfl⟩ := run_cons_eq_some.mp h
    simp only [List.cons_append, run, hi, ih hr]
    cases M.run t js <;> rfl

/-- A step from a state that some run visits leads to a state that a run visits, over inputs of the
first run and the input of the step. -/
theorem exists_mem_visits_snoc {s t t' : σ} {is : List ι} {i : ι} {o : ο} (h : t ∈ M.visits s is)
    (hstep : M t i = some (t', o)) : ∃ js, js <+: is ∧ t' ∈ M.visits s (js ++ [i]) := by
  induction is generalizing s with
  | nil =>
    obtain rfl := List.mem_singleton.mp h
    refine ⟨[], List.nil_prefix, ?_⟩
    rw [List.nil_append, visits_cons_some [] hstep]
    exact List.mem_cons_of_mem _ (start_mem_visits t' [])
  | cons j is ih =>
    have hstart : t = s → ∃ js, js <+: j :: is ∧ t' ∈ M.visits s (js ++ [i]) := by
      rintro rfl
      refine ⟨[], List.nil_prefix, ?_⟩
      rw [List.nil_append, visits_cons_some [] hstep]
      exact List.mem_cons_of_mem _ (start_mem_visits t' [])
    cases hj : M s j with
    | none =>
      rw [visits_cons_none is hj] at h
      exact hstart (List.mem_singleton.mp h)
    | some r =>
      obtain ⟨s', o'⟩ := r
      rw [visits_cons_some is hj] at h
      rcases List.mem_cons.mp h with heq | hrest
      · exact hstart heq
      · obtain ⟨js, hpre, hmem⟩ := ih hrest
        refine ⟨j :: js, (List.prefix_cons_inj j).mpr hpre, ?_⟩
        rw [List.cons_append, visits_cons_some _ hj]
        exact List.mem_cons_of_mem _ hmem

/-! ## Invariants -/

/-- An invariant that every admissible step keeps holds in every state a run visits. -/
theorem visits_all {P : σ → Prop} {Adm : ι → Prop}
    (hstep : ∀ s i s' o, P s → Adm i → M s i = some (s', o) → P s') {s : σ} {is : List ι}
    (h0 : P s) (his : ∀ i ∈ is, Adm i) : ∀ t ∈ M.visits s is, P t := by
  induction is generalizing s with
  | nil => simpa using h0
  | cons i is ih =>
    cases h : M s i with
    | none => simpa [visits_cons_none is h] using h0
    | some r =>
      obtain ⟨s', o⟩ := r
      have hs' : P s' := hstep s i s' o h0 (his i (by simp)) h
      have hrest : ∀ t ∈ M.visits s' is, P t := ih hs' fun j hj => his j (List.mem_cons_of_mem _ hj)
      simpa [visits_cons_some is h] using ⟨h0, hrest⟩

/-- The same when a step is admissible in the state it is taken in. -/
theorem visits_all_of_fires {P : σ → Prop} {Ok : σ → ι → Prop}
    (hstep : ∀ s i s' o, P s → Ok s i → M s i = some (s', o) → P s') {s : σ} {is : List ι}
    (h0 : P s) (hok : ∀ p ∈ M.fires s is, Ok p.1 p.2) : ∀ t ∈ M.visits s is, P t := by
  induction is generalizing s with
  | nil => simpa using h0
  | cons i is ih =>
    cases h : M s i with
    | none => simpa [visits_cons_none is h] using h0
    | some r =>
      obtain ⟨s', o⟩ := r
      rw [fires_cons_some is h] at hok
      have hs' : P s' := hstep s i s' o h0 (hok (s, i) (by simp)) h
      have hrest : ∀ t ∈ M.visits s' is, P t := ih hs' fun p hp => hok p (List.mem_cons_of_mem _ hp)
      simpa [visits_cons_some is h] using ⟨h0, hrest⟩

/-- The same with both kinds of condition. -/
theorem visits_all_of_fires_adm {P : σ → Prop} {Adm : ι → Prop} {Ok : σ → ι → Prop}
    (hstep : ∀ s i s' o, P s → Adm i → Ok s i → M s i = some (s', o) → P s') {s : σ} {is : List ι}
    (h0 : P s) (his : ∀ i ∈ is, Adm i) (hok : ∀ p ∈ M.fires s is, Ok p.1 p.2) :
    ∀ t ∈ M.visits s is, P t := by
  have hboth : ∀ s i s' o, P s → Adm i ∧ Ok s i → M s i = some (s', o) → P s' :=
    fun s i s' o hs hi => hstep s i s' o hs hi.1 hi.2
  exact visits_all_of_fires hboth h0 fun p hp => ⟨his p.2 (mem_of_mem_fires hp), hok p hp⟩

/-- When a step leads from a good state to a good state exactly if it meets a
condition, a run stays good exactly if all its steps meet the condition. `Aux` is
an invariant of every run, good or not. -/
theorem visits_all_iff_fires {Aux Good : σ → Prop} {Adm : ι → Prop} {Ok : σ → ι → Prop}
    (haux : ∀ s i s' o, Aux s → Adm i → M s i = some (s', o) → Aux s')
    (hok : ∀ s i s' o, Aux s → Good s → Adm i → M s i = some (s', o) → (Good s' ↔ Ok s i))
    {s : σ} {is : List ι} (h0 : Aux s) (hg : Good s) (his : ∀ i ∈ is, Adm i) :
    (∀ t ∈ M.visits s is, Good t) ↔ ∀ p ∈ M.fires s is, Ok p.1 p.2 := by
  induction is generalizing s with
  | nil => simpa using hg
  | cons i is ih =>
    cases h : M s i with
    | none => simpa [visits_cons_none is h, fires_cons_none is h] using hg
    | some r =>
      obtain ⟨s', o⟩ := r
      have hi : Adm i := his i (by simp)
      have his' : ∀ j ∈ is, Adm j := fun j hj => his j (List.mem_cons_of_mem _ hj)
      have hr : Aux s' := haux s i s' o h0 hi h
      have hiff : Good s' ↔ Ok s i := hok s i s' o h0 hg hi h
      rw [visits_cons_some is h, fires_cons_some is h]
      simp only [List.forall_mem_cons]
      constructor
      · rintro ⟨-, hv⟩
        have hgood : Good s' := hv s' (start_mem_visits s' is)
        exact ⟨hiff.mp hgood, (ih hr hgood his').mp hv⟩
      · rintro ⟨hk, hf⟩
        have hgood : Good s' := hiff.mpr hk
        exact ⟨hg, (ih hr hgood his').mpr hf⟩

/-- The same when `Aux` is only kept by the steps that meet the condition. -/
theorem visits_all_iff_fires_of_ok {Aux Good : σ → Prop} {Ok : σ → ι → Prop}
    (haux : ∀ s i s' o, Aux s → Good s → Ok s i → M s i = some (s', o) → Aux s')
    (hok : ∀ s i s' o, Aux s → Good s → M s i = some (s', o) → (Good s' ↔ Ok s i))
    {s : σ} {is : List ι} (h0 : Aux s) (hg : Good s) :
    (∀ t ∈ M.visits s is, Good t) ↔ ∀ p ∈ M.fires s is, Ok p.1 p.2 := by
  induction is generalizing s with
  | nil => simpa using hg
  | cons i is ih =>
    cases h : M s i with
    | none => simpa [visits_cons_none is h, fires_cons_none is h] using hg
    | some r =>
      obtain ⟨s', o⟩ := r
      have hiff : Good s' ↔ Ok s i := hok s i s' o h0 hg h
      rw [visits_cons_some is h, fires_cons_some is h]
      simp only [List.forall_mem_cons]
      constructor
      · rintro ⟨-, hv⟩
        have hgood : Good s' := hv s' (start_mem_visits s' is)
        have hk : Ok s i := hiff.mp hgood
        exact ⟨hk, (ih (haux s i s' o h0 hg hk h) hgood).mp hv⟩
      · rintro ⟨hk, hf⟩
        have hgood : Good s' := hiff.mpr hk
        exact ⟨hg, (ih (haux s i s' o h0 hg hk h) hgood).mpr hf⟩

/-- The same without such an invariant. -/
theorem visits_iff_fires {Good : σ → Prop} {Ok : σ → ι → Prop}
    (hok : ∀ s i s' o, Good s → M s i = some (s', o) → (Good s' ↔ Ok s i)) {s : σ} {is : List ι}
    (hg : Good s) : (∀ t ∈ M.visits s is, Good t) ↔ ∀ p ∈ M.fires s is, Ok p.1 p.2 := by
  have haux : ∀ s i s' o, True → Good s → Ok s i → M s i = some (s', o) → True :=
    fun _ _ _ _ _ _ _ _ => trivial
  have hok' : ∀ s i s' o, True → Good s → M s i = some (s', o) → (Good s' ↔ Ok s i) :=
    fun s i s' o _ => hok s i s' o
  exact visits_all_iff_fires_of_ok haux hok' trivial hg

/-! ## Histories and simulations -/

/-- A history invariant relates the state to the inputs read and the outputs
answered so far. If each admissible input can be taken and keeps it, every run over
admissible inputs goes through and ends with it. -/
theorem run_history {P : σ → List ι → List ο → Prop} {Adm : ι → Prop}
    (hstep : ∀ s is os i, P s is os → Adm i →
      ∃ s' o, M s i = some (s', o) ∧ P s' (is ++ [i]) (os ++ [o]))
    {s : σ} (h0 : P s [] []) {is : List ι} (his : ∀ i ∈ is, Adm i) :
    ∃ t os, M.run s is = some (t, os) ∧ P t is os := by
  induction is using List.reverseRecOn with
  | nil => exact ⟨s, [], rfl, h0⟩
  | append_singleton is i ih =>
    obtain ⟨t, os, hrun, hP⟩ := ih fun j hj => his j (by simp [hj])
    obtain ⟨t', o, ho, hP'⟩ := hstep t is os i hP (his i (by simp))
    refine ⟨t', os ++ [o], ?_, hP'⟩
    rw [run_append hrun]
    simp [run, ho]

/-- A simulation: related states take the same input to related states with the same
output. -/
theorem run_simulation {τ : Type} {N : Machine τ ι ο} {R : σ → τ → Prop} {Adm : ι → Prop}
    (hstep : ∀ s a i, R s a → Adm i →
      ∃ s' a' o, M s i = some (s', o) ∧ N a i = some (a', o) ∧ R s' a')
    {s : σ} {a : τ} (h0 : R s a) {is : List ι} (his : ∀ i ∈ is, Adm i) :
    ∃ t b os, M.run s is = some (t, os) ∧ N.run a is = some (b, os) ∧ R t b := by
  induction is generalizing s a with
  | nil => exact ⟨s, a, [], rfl, rfl, h0⟩
  | cons i is ih =>
    obtain ⟨s', a', o, hs, ha, hR⟩ := hstep s a i h0 (his i (by simp))
    obtain ⟨t, b, os, ht, hb, hR'⟩ := ih hR fun j hj => his j (List.mem_cons_of_mem _ hj)
    exact ⟨t, b, o :: os, by simp [run, hs, ht], by simp [run, ha, hb], hR'⟩

/-! ## Measures -/

/-- A measure that no step of a run increases, and that the counted steps decrease, bounds the number
of counted steps. -/
theorem countP_fires_le {μ : σ → Nat} {counted : σ × ι → Bool} {s : σ} {is : List ι}
    (hstep : ∀ p ∈ M.fires s is, ∀ s' o, M p.1 p.2 = some (s', o) →
      μ s' + (if counted p then 1 else 0) ≤ μ p.1) :
    (M.fires s is).countP counted ≤ μ s := by
  induction is generalizing s with
  | nil => exact Nat.zero_le _
  | cons i is ih =>
    cases h : M s i with
    | none =>
      rw [fires_cons_none is h]
      exact Nat.zero_le _
    | some r =>
      obtain ⟨s', o⟩ := r
      rw [fires_cons_some is h] at hstep ⊢
      obtain ⟨hfirst, hrest⟩ := List.forall_mem_cons.mp hstep
      have hlast : (M.fires s' is).countP counted ≤ μ s' := ih hrest
      have hle := hfirst s' o h
      rw [List.countP_cons]
      exact (Nat.add_le_add_right hlast _).trans hle

end Machine

end Transition
