-- SUMMARY: What a trace of lock operations does to a lock, and which traces keep its discipline.
import Mathlib

/-!
# Lock traces

A non-recursive lock guards some data. One thread takes it, releases it and touches the
data. A trace keeps the discipline if the lock is never taken while held, never released
while free, never missing when the data is touched, and free in the end.
-/

namespace LockTrace

inductive Event where
  | lock
  | unlock
  | touch
  deriving DecidableEq, Repr

/-- The lock after a trace. `ok` says that no event so far broke the discipline. -/
structure Status where
  held : Bool
  ok : Bool
  deriving DecidableEq, Repr

/-- A lock nobody holds. -/
def Status.initial : Status := ⟨false, true⟩

def next (st : Status) : Event → Status
  | .lock => ⟨true, st.ok && !st.held⟩
  | .unlock => ⟨false, st.ok && st.held⟩
  | .touch => ⟨st.held, st.ok && st.held⟩

/-- The status after a trace. -/
def run (st : Status) (t : List Event) : Status := t.foldl next st

/-- The trace keeps the discipline and leaves the lock free. -/
def Disciplined (t : List Event) : Prop := run .initial t = .initial

instance (t : List Event) : Decidable (Disciplined t) := inferInstanceAs (Decidable (_ = _))

variable {st : Status}

@[simp] theorem run_nil : run st [] = st := rfl

@[simp] theorem run_append (t u : List Event) : run st (t ++ u) = run (run st t) u :=
  List.foldl_append

@[simp] theorem next_lock_held : (next st .lock).held = true := rfl
@[simp] theorem next_unlock_held : (next st .unlock).held = false := rfl
@[simp] theorem next_touch_held : (next st .touch).held = st.held := rfl

/-- Whoever holds the lock may touch the data. -/
theorem next_touch_of_held (h : st.held = true) : next st .touch = st := by
  cases st
  simp_all [next]

/-- Whoever does not may not. -/
theorem next_touch_of_free (h : st.held = false) : (next st .touch).ok = false := by
  simp [next, h]

/-- A critical section that finds the lock free changes nothing. -/
theorem critical_section (h : st.held = false) :
    next (next (next st .lock) .touch) .unlock = st := by
  cases st
  simp_all [next]

end LockTrace
