-- SUMMARY: Filling a container from a queue, first come first served, until the next item does not fit.
import Mathlib

/-!
# Greedy filling

A container has room for a total size and slots for a number of items. It takes
items from the front of a queue as long as there is a slot and the next one fits.
-/

namespace GreedyFill

variable {α : Type} (size : α → Nat)

/-- The items taken and the items left. -/
def fill (room : Nat) : Nat → List α → List α × List α
  | 0, queue => ([], queue)
  | _ + 1, [] => ([], [])
  | slots + 1, x :: queue =>
    if room < size x then ([], x :: queue)
    else
      let r := fill (room - size x) slots queue
      (x :: r.1, r.2)

variable {size}

@[simp] theorem fill_no_slots (room : Nat) (queue : List α) :
    fill size room 0 queue = ([], queue) := by
  cases queue <;> rfl

@[simp] theorem fill_nil (room slots : Nat) : fill size room slots [] = ([], []) := by
  cases slots <;> rfl

theorem fill_no_room {room slots : Nat} {x : α} {queue : List α} (h : room < size x) :
    fill size room slots (x :: queue) = ([], x :: queue) := by
  cases slots with
  | zero => rfl
  | succ slots => simp [fill, h]

theorem fill_fits {room slots : Nat} {x : α} {queue : List α} (h : size x ≤ room) :
    fill size room (slots + 1) (x :: queue) =
      (x :: (fill size (room - size x) slots queue).1,
        (fill size (room - size x) slots queue).2) := by
  simp [fill, Nat.not_lt.mpr h]

/-- Filling cuts the queue in two. -/
theorem fill_append (size : α → Nat) (room slots : Nat) (queue : List α) :
    (fill size room slots queue).1 ++ (fill size room slots queue).2 = queue := by
  induction slots generalizing room queue with
  | zero => simp
  | succ slots ih =>
    cases queue with
    | nil => simp
    | cons x queue =>
      rcases Nat.lt_or_ge room (size x) with h | h
      · simp [fill_no_room h]
      · simp [fill_fits h, ih]

theorem fill_length_le (size : α → Nat) (room slots : Nat) (queue : List α) :
    (fill size room slots queue).1.length ≤ slots := by
  induction slots generalizing room queue with
  | zero => simp
  | succ slots ih =>
    cases queue with
    | nil => simp
    | cons x queue =>
      rcases Nat.lt_or_ge room (size x) with h | h
      · simp [fill_no_room h]
      · simpa [fill_fits h] using ih (room - size x) queue

theorem fill_rest_length (size : α → Nat) (room slots : Nat) (queue : List α) :
    (fill size room slots queue).1.length + (fill size room slots queue).2.length =
      queue.length := by
  rw [← List.length_append, fill_append]

end GreedyFill
