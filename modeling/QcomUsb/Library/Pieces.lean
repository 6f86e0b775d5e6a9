-- SUMMARY: A stream that arrives in pieces: the positions of the cuts, and the part of the stream behind a position.
import Mathlib

/-!
# Streams in pieces

A stream arrives cut into pieces. `cuts` are the positions at which a piece begins or ends. What is
behind a position depends on the stream only, and not on how it was put together.
-/

namespace Pieces

variable {α : Type}

/-- The positions at which a piece begins or ends. -/
def cuts (ts : List (List α)) : List Nat := ts.inits.map fun front => front.flatten.length

/-- No cut is strictly between the two positions. -/
def Uncut (ts : List (List α)) (lo hi : Nat) : Prop := ∀ b ∈ cuts ts, b ≤ lo ∨ hi ≤ b

/-- At most one cut is strictly between the two positions. -/
def CutOnce (ts : List (List α)) (lo hi : Nat) : Prop :=
  ∀ b ∈ cuts ts, ∀ b' ∈ cuts ts, lo < b → b < hi → lo < b' → b' < hi → b = b'

instance (ts : List (List α)) (lo hi : Nat) : Decidable (Uncut ts lo hi) :=
  inferInstanceAs (Decidable (∀ b ∈ cuts ts, b ≤ lo ∨ hi ≤ b))

instance (ts : List (List α)) (lo hi : Nat) : Decidable (CutOnce ts lo hi) :=
  inferInstanceAs (Decidable (∀ b ∈ cuts ts, ∀ b' ∈ cuts ts,
    lo < b → b < hi → lo < b' → b' < hi → b = b'))

theorem mem_cuts {ts : List (List α)} {b : Nat} :
    b ∈ cuts ts ↔ ∃ front back, ts = front ++ back ∧ b = front.flatten.length := by
  simp only [cuts, List.mem_map, List.mem_inits]
  constructor
  · rintro ⟨front, ⟨back, rfl⟩, rfl⟩
    exact ⟨front, back, rfl, rfl⟩
  · rintro ⟨front, back, rfl, rfl⟩
    exact ⟨front, ⟨back, rfl⟩, rfl⟩

theorem length_mem_cuts (front back : List (List α)) :
    front.flatten.length ∈ cuts (front ++ back) :=
  mem_cuts.mpr ⟨front, back, rfl, rfl⟩

/-- The end of a piece is a cut. -/
theorem end_mem_cuts (front back : List (List α)) (t : List α) :
    front.flatten.length + t.length ∈ cuts (front ++ t :: back) := by
  rw [List.append_cons]
  simpa using length_mem_cuts (front ++ [t]) back

/-- A piece is not cut. -/
theorem uncut_piece (front back : List (List α)) (t : List α) :
    Uncut (front ++ t :: back) front.flatten.length (front.flatten.length + t.length) := by
  intro b hb
  obtain ⟨front', back', heq, rfl⟩ := mem_cuts.mp hb
  rcases List.append_eq_append_iff.mp heq with ⟨mid, rfl, hmid⟩ | ⟨mid, rfl, -⟩
  · cases mid with
    | nil =>
      left
      simp
    | cons t' mid =>
      obtain ⟨rfl, -⟩ := List.cons.inj hmid
      right
      simp only [List.flatten_append, List.flatten_cons, List.length_append]
      omega
  · left
    simp

theorem Uncut.mono {ts : List (List α)} {lo hi lo' hi' : Nat} (h : Uncut ts lo hi)
    (hlo : lo ≤ lo') (hhi : hi' ≤ hi) : Uncut ts lo' hi' := by
  intro b hb
  rcases h b hb with hle | hge
  · exact .inl (hle.trans hlo)
  · exact .inr (hhi.trans hge)

/-- What is behind a position does not depend on how the stream was put together. -/
theorem drop_eq_drop {xs ys xs' ys' : List α} {m n : Nat} (h : xs ++ ys = xs' ++ ys')
    (hpos : xs.length + m = xs'.length + n) : ys.drop m = ys'.drop n := by
  calc ys.drop m
      = (xs ++ ys).drop (xs.length + m) := (List.drop_length_add_append m).symm
    _ = (xs' ++ ys').drop (xs'.length + n) := by rw [h, hpos]
    _ = ys'.drop n := List.drop_length_add_append n

end Pieces
