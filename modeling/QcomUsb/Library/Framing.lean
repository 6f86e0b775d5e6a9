-- SUMMARY: Streams of frames: a reader takes one frame off the front, and a stream built frame by frame is read back.
import Mathlib

/-!
# Framing

A reader takes a frame off the front of a stream and answers what is in it. `Framed` says that a
stream consists of frames with given contents, whatever follows each of them, and is built one frame
at a time. `readAll` then reads the contents back.
-/

namespace Framing

variable {α β : Type}

/-- Takes one frame off the front of a stream. -/
abbrev Reader (α β : Type) := List α → Option (β × List α)

/-- Takes frames off the front until nothing is left, with a bound on their number. -/
def readFrames (r : Reader α β) : Nat → List α → Option (List β)
  | _, [] => some []
  | 0, _ :: _ => none
  | fuel + 1, a :: l =>
    match r (a :: l) with
    | none => none
    | some (x, rest) => (readFrames r fuel rest).map (x :: ·)

/-- Takes all frames off a stream. Each frame is to take something. -/
def readAll (r : Reader α β) (l : List α) : Option (List β) := readFrames r l.length l

/-- The frame is read as `x`, whatever follows it. -/
def Encodes (r : Reader α β) (frame : List α) (x : β) : Prop :=
  frame ≠ [] ∧ ∀ rest, r (frame ++ rest) = some (x, rest)

/-- The stream consists of frames with the given contents. -/
def Framed (r : Reader α β) (l : List α) (xs : List β) : Prop :=
  ∃ frames, l = frames.flatten ∧ List.Forall₂ (Encodes r) frames xs

variable {r : Reader α β} {l frame : List α} {x : β} {xs : List β}

theorem Framed.nil : Framed r [] [] := ⟨[], rfl, .nil⟩

/-- A frame is put at the end of the stream. -/
theorem Framed.snoc (h : Framed r l xs) (hframe : Encodes r frame x) :
    Framed r (l ++ frame) (xs ++ [x]) := by
  obtain ⟨frames, rfl, hframes⟩ := h
  refine ⟨frames ++ [frame], by simp, ?_⟩
  exact List.rel_append hframes (.cons hframe .nil)

theorem readFrames_flatten {frames : List (List α)} (h : List.Forall₂ (Encodes r) frames xs)
    {fuel : Nat} (hfuel : frames.length ≤ fuel) : readFrames r fuel frames.flatten = some xs := by
  induction h generalizing fuel with
  | nil => cases fuel <;> rfl
  | cons hframe _ ih =>
    rename_i frame y frames ys _
    obtain ⟨hne, hread⟩ := hframe
    cases fuel with
    | zero => simp at hfuel
    | succ fuel =>
      obtain ⟨a, rest, rfl⟩ := List.exists_cons_of_ne_nil hne
      have hhead : r (a :: (rest ++ frames.flatten)) = some (y, frames.flatten) := hread _
      have htail : readFrames r fuel frames.flatten = some ys := ih (by simpa using hfuel)
      simp [readFrames, hhead, htail]

/-- Frames that are not empty are no more than what they consist of. -/
theorem length_le_flatten {frames : List (List α)} (h : List.Forall₂ (Encodes r) frames xs) :
    frames.length ≤ frames.flatten.length := by
  induction h with
  | nil => simp
  | cons hframe _ ih =>
    have hpos := List.length_pos_of_ne_nil hframe.1
    simp only [List.length_cons, List.flatten_cons, List.length_append]
    omega

/-- A stream is read back. -/
theorem Framed.readAll (h : Framed r l xs) : Framing.readAll r l = some xs := by
  obtain ⟨frames, rfl, hframes⟩ := h
  exact readFrames_flatten hframes (length_le_flatten hframes)

end Framing
