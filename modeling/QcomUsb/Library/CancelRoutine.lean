-- SUMMARY: Cancel routines of I/O requests: what an I/O manager keeps of them, and the calls under way.
import Mathlib

/-!
# Cancel routines

A driver installs a cancel routine on a request that it keeps waiting. Cancelling the request
marks it, takes the routine out and calls it. The routine runs later, when it gets the lock of the
queue, so a request may be found on its queue with its routine gone and a call under way.
-/

namespace CancelRoutine

variable {ι : Type}

/-- The cancel flags, which requests have a routine installed, and the calls that have not
returned. -/
structure CancelState (ι : Type) where
  cancel : ι → Bool
  installed : ι → Bool
  running : List ι

namespace CancelState

/-- Nothing is cancelled, and no routine is installed. -/
def initial : CancelState ι := ⟨fun _ => false, fun _ => false, []⟩

variable [DecidableEq ι]

/-- `IoSetCancelRoutine`. The routine that was there is read off `installed`. -/
def ioSetCancelRoutine (c : CancelState ι) (i : ι) (routine : Bool) : CancelState ι :=
  { c with installed := Function.update c.installed i routine }

/-- `IoCancelIrp`. -/
def ioCancelIrp (c : CancelState ι) (i : ι) : CancelState ι where
  cancel := Function.update c.cancel i true
  installed := Function.update c.installed i false
  running := if c.installed i then c.running ++ [i] else c.running

/-- A call returns. -/
def routineReturns (c : CancelState ι) (i : ι) : CancelState ι := { c with running := c.running.erase i }

/-- A routine is called at most once while it is installed once. -/
structure Inv (c : CancelState ι) : Prop where
  running_nodup : c.running.Nodup
  running_gone : ∀ i ∈ c.running, c.installed i = false

section

variable {c : CancelState ι} {i j : ι}

@[simp] theorem ioSetCancelRoutine_installed (routine : Bool) :
    (c.ioSetCancelRoutine i routine).installed = Function.update c.installed i routine := rfl

@[simp] theorem ioSetCancelRoutine_running (routine : Bool) :
    (c.ioSetCancelRoutine i routine).running = c.running := rfl

@[simp] theorem ioCancelIrp_installed :
    (c.ioCancelIrp i).installed = Function.update c.installed i false := rfl

@[simp] theorem routineReturns_installed : (c.routineReturns i).installed = c.installed := rfl

@[simp] theorem routineReturns_running : (c.routineReturns i).running = c.running.erase i := rfl

/-- Only the request that is cancelled gets a call. -/
theorem mem_ioCancelIrp_running :
    j ∈ (c.ioCancelIrp i).running ↔ j ∈ c.running ∨ c.installed i = true ∧ j = i := by
  cases h : c.installed i <;> simp [ioCancelIrp, h]

omit [DecidableEq ι] in
theorem Inv.initial :
    (initial : CancelState ι).Inv := ⟨List.nodup_nil, by simp [CancelState.initial]⟩

/-- A routine is installed on a request without a call. -/
theorem Inv.install (h : c.Inv) (hi : i ∉ c.running) : (c.ioSetCancelRoutine i true).Inv where
  running_nodup := h.running_nodup
  running_gone := fun j hj => by
    have hne : j ≠ i := fun heq => hi (heq ▸ hj)
    simpa [hne] using h.running_gone j hj

/-- A routine is taken out. -/
theorem Inv.clear (h : c.Inv) (i : ι) : (c.ioSetCancelRoutine i false).Inv where
  running_nodup := h.running_nodup
  running_gone := fun j hj => by
    rcases eq_or_ne j i with rfl | hne
    · simp
    · simpa [hne] using h.running_gone j hj

theorem Inv.ioCancelIrp (h : c.Inv) (i : ι) : (c.ioCancelIrp i).Inv where
  running_nodup := by
    cases hi : c.installed i with
    | false => simpa [CancelState.ioCancelIrp, hi] using h.running_nodup
    | true =>
      have hnew : i ∉ c.running := fun hmem => by simp [h.running_gone i hmem] at hi
      simpa [CancelState.ioCancelIrp, hi] using
        h.running_nodup.append (List.nodup_singleton i) (by simpa using hnew)
  running_gone := fun j hj => by
    rcases eq_or_ne j i with rfl | hne
    · simp
    · have hold : j ∈ c.running := by
        rcases mem_ioCancelIrp_running.mp hj with hold | ⟨-, rfl⟩
        · exact hold
        · exact absurd rfl hne
      simpa [hne] using h.running_gone j hold

theorem Inv.routineReturns (h : c.Inv) (i : ι) : (c.routineReturns i).Inv where
  running_nodup := h.running_nodup.erase i
  running_gone := fun j hj => h.running_gone j (List.mem_of_mem_erase hj)

/-- Behind its return a call is not under way any more. -/
theorem Inv.not_mem_routineReturns (h : c.Inv) (i : ι) : i ∉ (c.routineReturns i).running :=
  h.running_nodup.not_mem_erase

/-- The request `i` has neither a routine nor a call any more, and the others have what they
had. -/
structure Cleared (c c' : CancelState ι) (i : ι) : Prop where
  inv : c.Inv → c'.Inv
  gone : c.Inv → c'.installed i = false ∧ i ∉ c'.running
  other : ∀ j, j ≠ i → c'.installed j = c.installed j ∧ (j ∈ c'.running ↔ j ∈ c.running)

/-- The routine that was installed is taken out. -/
theorem Cleared.take (hi : c.installed i = true) : Cleared c (c.ioSetCancelRoutine i false) i where
  inv := fun h => h.clear i
  gone := fun h => by
    have hrun : i ∉ c.running := fun hmem => by simp [h.running_gone i hmem] at hi
    exact ⟨by simp, hrun⟩
  other := fun j hj => by simp [hj]

/-- The call that was under way returns. -/
theorem Cleared.routineReturns (hi : i ∈ c.running) : Cleared c (c.routineReturns i) i where
  inv := fun h => h.routineReturns i
  gone := fun h => ⟨h.running_gone i hi, h.not_mem_routineReturns i⟩
  other := fun _ hj => ⟨rfl, List.mem_erase_of_ne hj⟩

end

end CancelState

end CancelRoutine
