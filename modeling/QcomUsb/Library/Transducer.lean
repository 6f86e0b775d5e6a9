-- SUMMARY: Transducers: what they answer over a list of inputs, and two copies of which one runs behind the other.
import Mathlib

/-!
# Transducers

A transducer takes an input at a time, and answers each. Two copies that go over one sequence give
the same answers, however far the second one is behind. `Behind` keeps what it has still to go over.
-/

namespace Transducer

variable {σ α β : Type} (f : σ → α → σ × β)

/-- The state behind a list of inputs. -/
def final (s : σ) : List α → σ
  | [] => s
  | a :: as => final (f s a).1 as

/-- The answers to a list of inputs. -/
def outputs (s : σ) : List α → List β
  | [] => []
  | a :: as => (f s a).2 :: outputs (f s a).1 as

theorem final_append (s : σ) (as bs : List α) :
    final f s (as ++ bs) = final f (final f s as) bs := by
  induction as generalizing s with
  | nil => rfl
  | cons a as ih => exact ih (f s a).1

theorem outputs_append (s : σ) (as bs : List α) :
    outputs f s (as ++ bs) = outputs f s as ++ outputs f (final f s as) bs := by
  induction as generalizing s with
  | nil => rfl
  | cons a as ih => rw [List.cons_append, outputs, outputs, ih, final, List.cons_append]

@[simp] theorem outputs_length (s : σ) (as : List α) : (outputs f s as).length = as.length := by
  induction as generalizing s with
  | nil => rfl
  | cons a as ih => rw [outputs, List.length_cons, List.length_cons, ih]

/-- The copy in state `trail` has still to go over `pending`, which the other one has behind it. -/
def Behind (trail lead : σ) (pending : List α) : Prop := lead = final f trail pending

variable {f} {trail lead : σ} {pending : List α} {a : α}

/-- The first copy goes on. -/
theorem Behind.ahead (h : Behind f trail lead pending) :
    Behind f trail (f lead a).1 (pending ++ [a]) := by
  rw [Behind, final_append, ← h]
  rfl

/-- The second copy follows. -/
theorem Behind.follow (h : Behind f trail lead (a :: pending)) :
    Behind f (f trail a).1 lead pending := h

/-- The second copy will answer as the first one does. -/
theorem Behind.outputs_snoc (h : Behind f trail lead pending) :
    outputs f trail (pending ++ [a]) = outputs f trail pending ++ [(f lead a).2] := by
  rw [outputs_append, ← h]
  rfl

end Transducer
