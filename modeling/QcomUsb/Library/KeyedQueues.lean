-- SUMMARY: Elements that wait in one line and are sorted into queues, and what is conserved while they come and go.
import Mathlib

/-!
# A line and queues behind it

Elements arrive in a line. From its head they are dropped, or put at the end of one of many queues.
From the head of a queue they leave for good, or go back to the head of the line. `View` keeps what
has happened: in every run the elements leave each queue in the order in which they were put there,
and no element is lost or doubled.
-/

namespace KeyedQueues

variable {κ α : Type}

/-- The line and the queues, with what has arrived, what is done with, and what was put on each queue
and has left it. -/
@[ext]
structure View (κ α : Type) where
  line : List α
  queue : κ → List α
  arrived : List α
  done : List α
  put : κ → List α
  gone : κ → List α

/-- At first nothing has happened. -/
def View.empty : View κ α := ⟨[], fun _ => [], [], [], fun _ => [], fun _ => []⟩

section

variable [DecidableEq κ]

/-- What a step does. -/
inductive Moves (v : View κ α) : View κ α → Prop
  | keep : Moves v v
  | arrive (a : α) : Moves v { v with line := v.line ++ [a], arrived := v.arrived ++ [a] }
  | drop {a : α} {rest : List α} (h : v.line = a :: rest) :
    Moves v { v with line := rest, done := v.done ++ [a] }
  | put {a : α} {rest : List α} (k : κ) (h : v.line = a :: rest) :
    Moves v { v with
      line := rest
      queue := Function.update v.queue k (v.queue k ++ [a])
      put := Function.update v.put k (v.put k ++ [a]) }
  | leave {k : κ} {a : α} {rest : List α} (h : v.queue k = a :: rest) :
    Moves v { v with
      queue := Function.update v.queue k rest
      done := v.done ++ [a]
      gone := Function.update v.gone k (v.gone k ++ [a]) }
  | back {k : κ} {a : α} {rest : List α} (h : v.queue k = a :: rest) :
    Moves v { v with
      line := a :: v.line
      queue := Function.update v.queue k rest
      gone := Function.update v.gone k (v.gone k ++ [a]) }

/-- What some steps do. -/
abbrev Leads (v v' : View κ α) : Prop := Relation.ReflTransGen Moves v v'

end

/-! ## What is conserved -/

/-- The elements on the queues, in no order. -/
noncomputable def View.waiting (v : View κ α) : Multiset α := ∑ᶠ k, (v.queue k : Multiset α)

/-- Each queue is first-in first-out, and each element that has arrived is in one place. -/
structure View.Conserved (v : View κ α) : Prop where
  fifo : ∀ k, v.put k = v.gone k ++ v.queue k
  finite : (Function.support fun k => (v.queue k : Multiset α)).Finite
  arrived : (v.arrived : Multiset α) = v.line + v.waiting + v.done

theorem conserved_empty : (View.empty : View κ α).Conserved where
  fifo _ := rfl
  finite := by simp [View.empty, Function.support]
  arrived := by simp [View.empty, View.waiting]

variable [DecidableEq κ]

section

variable {q : κ → List α} {k : κ} {l : List α}

theorem support_update (h : (Function.support fun k => (q k : Multiset α)).Finite) :
    (Function.support fun j => (Function.update q k l j : Multiset α)).Finite := by
  refine (h.union (Set.finite_singleton k)).subset fun j hj => ?_
  by_cases hjk : j = k
  · exact .inr hjk
  · exact .inl (by simpa [hjk] using hj)

/-- One queue is changed. -/
theorem finsum_update (h : (Function.support fun k => (q k : Multiset α)).Finite) :
    (∑ᶠ j, (Function.update q k l j : Multiset α)) + q k = (∑ᶠ j, (q j : Multiset α)) + l := by
  have hold : (Function.support fun k => (q k : Multiset α)) ⊆ ↑(insert k h.toFinset) :=
    fun j hj => Finset.mem_insert_of_mem (h.mem_toFinset.mpr hj)
  have hnew : (Function.support fun j => (Function.update q k l j : Multiset α)) ⊆
      ↑(insert k h.toFinset) := by
    intro j hj
    by_cases hjk : j = k
    · simp [hjk]
    · exact hold (by simpa [hjk] using hj)
  have hmem : k ∈ insert k h.toFinset := Finset.mem_insert_self _ _
  have hrest : ∑ j ∈ (insert k h.toFinset).erase k, (Function.update q k l j : Multiset α) =
      ∑ j ∈ (insert k h.toFinset).erase k, (q j : Multiset α) :=
    Finset.sum_congr rfl fun j hj => by rw [Function.update_of_ne (Finset.ne_of_mem_erase hj)]
  rw [finsum_eq_sum_of_support_subset _ hold, finsum_eq_sum_of_support_subset _ hnew,
    ← Finset.add_sum_erase _ _ hmem, ← Finset.add_sum_erase _ (fun j => (q j : Multiset α)) hmem,
    hrest, Function.update_self]
  abel

end

theorem coe_cons (a : α) (l : List α) : ((a :: l : List α) : Multiset α) = {a} + l := rfl

theorem coe_snoc (l : List α) (a : α) : ((l ++ [a] : List α) : Multiset α) = l + {a} := by
  rw [← Multiset.coe_add, Multiset.coe_singleton]

/-- One step. -/
theorem View.Conserved.moves {v v' : View κ α} (h : v.Conserved) (hm : Moves v v') : v'.Conserved := by
  have harrived := h.arrived
  cases hm with
  | keep => exact h
  | arrive a =>
    refine ⟨h.fifo, h.finite, ?_⟩
    change ((v.arrived ++ [a] : List α) : Multiset α) = ↑(v.line ++ [a]) + v.waiting + v.done
    rw [coe_snoc, coe_snoc, harrived]
    abel
  | @drop a rest hline =>
    refine ⟨h.fifo, h.finite, ?_⟩
    change (v.arrived : Multiset α) = rest + v.waiting + ↑(v.done ++ [a])
    rw [harrived, hline, coe_cons, coe_snoc]
    abel
  | @put a rest k hline =>
    refine ⟨fun j => ?_, support_update h.finite, ?_⟩
    · by_cases hjk : j = k
      · subst hjk
        simp [h.fifo]
      · simp [hjk, h.fifo]
    · have hqueue := finsum_update (k := k) (l := v.queue k ++ [a]) h.finite
      rw [coe_snoc, add_left_comm, add_comm (v.queue k : Multiset α)] at hqueue
      change (v.arrived : Multiset α) =
        rest + (∑ᶠ j, (Function.update v.queue k (v.queue k ++ [a]) j : Multiset α)) + v.done
      rw [add_right_cancel hqueue, harrived, hline, coe_cons, View.waiting]
      abel
  | @leave k a rest hhead =>
    refine ⟨fun j => ?_, support_update h.finite, ?_⟩
    · by_cases hjk : j = k
      · subst hjk
        simp [h.fifo, hhead]
      · simp [hjk, h.fifo]
    · have hqueue := finsum_update (k := k) (l := rest) h.finite
      rw [hhead, coe_cons, ← add_assoc] at hqueue
      change (v.arrived : Multiset α) =
        v.line + (∑ᶠ j, (Function.update v.queue k rest j : Multiset α)) + ↑(v.done ++ [a])
      rw [harrived, View.waiting, ← add_right_cancel hqueue, coe_snoc]
      abel
  | @back k a rest hhead =>
    refine ⟨fun j => ?_, support_update h.finite, ?_⟩
    · by_cases hjk : j = k
      · subst hjk
        simp [h.fifo, hhead]
      · simp [hjk, h.fifo]
    · have hqueue := finsum_update (k := k) (l := rest) h.finite
      rw [hhead, coe_cons, ← add_assoc] at hqueue
      change (v.arrived : Multiset α) =
        ↑(a :: v.line) + (∑ᶠ j, (Function.update v.queue k rest j : Multiset α)) + v.done
      rw [harrived, View.waiting, ← add_right_cancel hqueue, coe_cons]
      abel

theorem View.Conserved.leads {v v' : View κ α} (h : v.Conserved) (hm : Leads v v') : v'.Conserved := by
  induction hm with
  | refl => exact h
  | tail _ hlast ih => exact ih.moves hlast

/-- A queue is emptied. -/
theorem leads_leave_all {v : View κ α} {k : κ} {l : List α} (h : v.queue k = l) :
    Leads v { v with
      queue := Function.update v.queue k []
      done := v.done ++ l
      gone := Function.update v.gone k (v.gone k ++ l) } := by
  induction l generalizing v with
  | nil =>
    have hsame : Function.update v.queue k [] = v.queue := h ▸ Function.update_eq_self k v.queue
    rw [hsame, List.append_nil, List.append_nil, Function.update_eq_self]
  | cons a rest ih =>
    refine Relation.ReflTransGen.head (Moves.leave h) ?_
    simpa using ih (v := { v with
      queue := Function.update v.queue k rest
      done := v.done ++ [a]
      gone := Function.update v.gone k (v.gone k ++ [a]) }) (Function.update_self ..)

end KeyedQueues
