-- SUMMARY: A bounded first-in first-out queue as a machine, and what its histories conserve.
import QcomUsb.Library.Transition

/-!
# Bounded FIFO

The specification of a byte buffer: a list of at most `cap` elements. A push is
accepted as a whole or refused, a pop takes what there is up to the number asked
for.
-/

namespace BoundedFifo

open Transition

variable {α : Type}

inductive Op (α : Type) where
  | push (data : List α)
  | pop (n : Nat)

inductive Out (α : Type) where
  | pushed (ok : Bool)
  | popped (data : List α)

/-- One operation on the queue. -/
def step (cap : Nat) : Machine (List α) (Op α) (Out α)
  | q, .push data =>
    if q.length + data.length ≤ cap then some (q ++ data, .pushed true)
    else some (q, .pushed false)
  | q, .pop n => some (q.drop n, .popped (q.take n))

/-- The elements an operation adds, given its outcome. -/
def Op.added : Op α → Out α → List α
  | .push data, .pushed true => data
  | _, _ => []

/-- The elements an outcome hands out. -/
def Out.given : Out α → List α
  | .popped data => data
  | .pushed _ => []

/-- The elements of the accepted pushes, in order. -/
def accepted (ops : List (Op α)) (outs : List (Out α)) : List α :=
  (List.zipWith Op.added ops outs).flatten

/-- The elements of the pops, in order. -/
def returned (outs : List (Out α)) : List α := (outs.map Out.given).flatten

theorem step_conserves {cap : Nat} {q q' : List α} {op : Op α} {out : Out α}
    (h : step cap q op = some (q', out)) : q ++ op.added out = out.given ++ q' := by
  cases op with
  | push data =>
    simp only [step] at h
    split at h <;> (cases h; simp [Op.added, Out.given])
  | pop n =>
    cases h
    simp [Op.added, Out.given]

/-- Nothing is lost, duplicated or reordered: what was there and what came in is what
went out and what is left. -/
theorem run_conserves {cap : Nat} {q q' : List α} {ops : List (Op α)} {outs : List (Out α)}
    (h : (step cap).run q ops = some (q', outs)) :
    q ++ accepted ops outs = returned outs ++ q' := by
  induction ops generalizing q outs with
  | nil => cases h; simp [accepted, returned]
  | cons op ops ih =>
    obtain ⟨q₁, out, outs', hstep, hrest, rfl⟩ := Machine.run_cons_eq_some.mp h
    calc q ++ accepted (op :: ops) (out :: outs')
        = (q ++ op.added out) ++ accepted ops outs' := by simp [accepted]
      _ = out.given ++ (q₁ ++ accepted ops outs') := by rw [step_conserves hstep]; simp
      _ = returned (out :: outs') ++ q' := by rw [ih hrest]; simp [returned]

/-! ## A queue that can be emptied -/

inductive ResetOp (α : Type) where
  | op (op : Op α)
  | reset

/-- One operation on a queue that can be emptied. Emptying it answers nothing. -/
def resetStep (cap : Nat) : Machine (List α) (ResetOp α) (Option (Out α))
  | q, .op op => (step cap q op).map fun r => (r.1, some r.2)
  | _, .reset => some ([], none)

/-- The elements an empty queue holds after some operations. -/
def held (cap : Nat) (ops : List (ResetOp α)) : List α :=
  (((resetStep cap).run [] ops).map Prod.fst).getD []

theorem held_eq {cap : Nat} {ops : List (ResetOp α)} {q : List α} {outs : List (Option (Out α))}
    (h : (resetStep cap).run [] ops = some (q, outs)) : held cap ops = q := by
  simp [held, h]

end BoundedFifo
