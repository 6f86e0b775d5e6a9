-- SUMMARY: Strings that end at a zero inside a buffer, and the in-place operations on them.
import Mathlib

/-!
# Strings in a buffer

A string starts at a position of the buffer and ends before the next zero. The operations read
and write the buffer at positions; the lemmas say what they do to the string there, whatever
stands behind its zero.
-/

namespace CString

variable {α : Type} [Zero α] [DecidableEq α]

/-- The string at the position `p`. -/
def str (b : List α) (p : Nat) : List α := (b.drop p).takeWhile (· ≠ 0)

/-- The first position from `p` on that holds a zero or fails `q`. -/
def skip (q : α → Bool) (b : List α) (p : Nat) : Nat := p + ((str b p).takeWhile q).length

/-- Zeros go over the elements that pass `q`, from the end of the `n` elements at `p`, until
one fails. The number of elements left comes first. -/
def trim (q : α → Bool) (p : Nat) : Nat → List α → Nat × List α
  | 0, b => (0, b)
  | n + 1, b => if q (b.getD (p + n) 0) then trim q p n (b.set (p + n) 0) else (n + 1, b)

/-- The string at `p` loses its last elements that pass `q`. -/
def rstrip (q : α → Bool) (b : List α) (p : Nat) : List α := (trim q p (str b p).length b).2

variable {q : α → Bool} {u t r : List α} {p : Nat}

theorem str_append (hp : u.length = p) (ht : 0 ∉ t) : str (u ++ (t ++ 0 :: r)) p = t := by
  have hdrop : (u ++ (t ++ 0 :: r)).drop p = t ++ 0 :: r := by
    rw [← hp]
    exact List.drop_left
  have hall : ∀ x ∈ t, decide (x ≠ 0) = true := by
    intro x hx
    exact decide_eq_true fun heq => ht (heq ▸ hx)
  rw [str, hdrop, List.takeWhile_append_of_pos hall, List.takeWhile_cons_of_neg (by simp),
    List.append_nil]

theorem skip_append (hp : u.length = p) (ht : 0 ∉ t) :
    skip q (u ++ (t ++ 0 :: r)) p = p + (t.takeWhile q).length := by
  rw [skip, str_append hp ht]

omit [DecidableEq α] in
theorem getD_append {x : α} (hp : u.length = p) : (u ++ x :: r).getD p 0 = x := by
  rw [← hp]
  simp

omit [Zero α] [DecidableEq α] in
theorem set_append {x y : α} (hp : u.length = p) : (u ++ x :: r).set p y = u ++ y :: r := by
  rw [← hp]
  simp

omit [DecidableEq α] in
/-- What a trim leaves, with zeros for the rest. -/
theorem trim_append (hp : u.length = p) :
    trim q p t.length (u ++ (t ++ r)) =
      ((t.rdropWhile q).length,
        u ++ (t.rdropWhile q ++
          (List.replicate (t.length - (t.rdropWhile q).length) 0 ++ r))) := by
  induction t using List.reverseRecOn generalizing r with
  | nil => simp [trim]
  | append_singleton t x ih =>
    have hlen : (u ++ t).length = p + t.length := by rw [List.length_append, hp]
    have hsplit : u ++ ((t ++ [x]) ++ r) = (u ++ t) ++ x :: r := by simp
    rw [List.length_append, List.length_singleton, trim, hsplit, getD_append hlen]
    by_cases hq : q x = true
    · rw [if_pos hq, set_append hlen, List.append_assoc, ih, List.rdropWhile_concat_pos _ _ _ hq]
      have hle : (t.rdropWhile q).length ≤ t.length := (List.rdropWhile_prefix q t).length_le
      rw [Nat.succ_sub hle, List.replicate_succ']
      simp
    · rw [if_neg hq, List.rdropWhile_concat_neg _ _ _ hq]
      simp

omit [DecidableEq α] in
theorem trim_length (q : α → Bool) (p n : Nat) (b : List α) :
    (trim q p n b).2.length = b.length := by
  induction n generalizing b with
  | zero => rfl
  | succ n ih =>
    rw [trim]
    split
    · rw [ih, List.length_set]
    · rfl

theorem rstrip_length (q : α → Bool) (b : List α) (p : Nat) : (rstrip q b p).length = b.length :=
  trim_length q p _ b

/-- The string left by a strip, with at least as many zeros behind it as before. -/
theorem rstrip_append (hp : u.length = p) (ht : 0 ∉ t) :
    rstrip q (u ++ (t ++ 0 :: r)) p =
      u ++ (t.rdropWhile q ++
        (List.replicate (t.length - (t.rdropWhile q).length) 0 ++ 0 :: r)) := by
  rw [rstrip, str_append hp ht, trim_append hp]

omit [Zero α] [DecidableEq α] in
theorem mem_of_mem_rdropWhile {x : α} (hx : x ∈ t.rdropWhile q) : x ∈ t :=
  (List.rdropWhile_prefix q t).mem hx

omit [DecidableEq α] in
/-- Zeros in front of a zero start with a zero. -/
theorem replicate_append_cons (n : Nat) :
    ∃ r', List.replicate n (0 : α) ++ 0 :: r = 0 :: r' := by
  cases n with
  | zero => exact ⟨r, rfl⟩
  | succ n => exact ⟨List.replicate n 0 ++ 0 :: r, rfl⟩

omit [DecidableEq α] in
/-- Zeros in front of two zeros start with two zeros. -/
theorem replicate_append_two (n : Nat) :
    ∃ r', List.replicate n (0 : α) ++ 0 :: 0 :: r = 0 :: 0 :: r' := by
  cases n with
  | zero => exact ⟨r, rfl⟩
  | succ n =>
    obtain ⟨r', hr'⟩ := replicate_append_cons (r := 0 :: r) n
    exact ⟨r', by rw [List.replicate_succ, List.cons_append, hr']⟩

/-- What stands in front of a zero is a string and what its own first zero cuts off. -/
theorem exists_takeWhile_append (b : List α) :
    ∃ w, b ++ 0 :: r = b.takeWhile (· ≠ 0) ++ 0 :: w := by
  induction b with
  | nil => exact ⟨r, rfl⟩
  | cons x b ih =>
    by_cases hx : x = 0
    · exact ⟨b ++ 0 :: r, by simp [hx]⟩
    · obtain ⟨w, hw⟩ := ih
      exact ⟨w, by rw [List.cons_append, hw, List.takeWhile_cons_of_pos (by simpa using hx)]; rfl⟩

theorem zero_notMem_takeWhile (b : List α) : 0 ∉ b.takeWhile (· ≠ 0) := by
  intro hmem
  simpa using List.mem_takeWhile_imp hmem

omit [DecidableEq α] in
/-- The last element of a string in a buffer. -/
theorem getD_pred_length (ht : t ≠ []) : (t ++ r).getD (t.length - 1) 0 = t.getLast ht := by
  obtain ⟨v, x, rfl⟩ := List.eq_nil_or_concat t |>.resolve_left ht
  simp

/-! ## The stop of a skip -/

omit [DecidableEq α] in
/-- The buffer around the position a skip stops at. -/
theorem skip_split (u t r : List α) :
    u ++ (t ++ 0 :: r) = (u ++ t.takeWhile q) ++
      (t.dropWhile q ++ 0 :: r).headD 0 :: (t.dropWhile q ++ 0 :: r).tail := by
  have hcons : (t.dropWhile q ++ 0 :: r).headD 0 :: (t.dropWhile q ++ 0 :: r).tail =
      t.dropWhile q ++ 0 :: r := by
    cases t.dropWhile q <;> rfl
  rw [hcons, List.append_assoc, ← List.append_assoc (t.takeWhile q),
    List.takeWhile_append_dropWhile]

theorem getD_skip (hp : u.length = p) (ht : 0 ∉ t) :
    (u ++ (t ++ 0 :: r)).getD (skip q (u ++ (t ++ 0 :: r)) p) 0 = (t.dropWhile q).headD 0 := by
  have hlen : (u ++ t.takeWhile q).length = p + (t.takeWhile q).length := by
    rw [List.length_append, hp]
  rw [skip_append hp ht, skip_split (q := q), getD_append hlen]
  cases t.dropWhile q <;> rfl

/-- A zero at the stop cuts the string there. -/
theorem set_skip (hp : u.length = p) (ht : 0 ∉ t) :
    (u ++ (t ++ 0 :: r)).set (skip q (u ++ (t ++ 0 :: r)) p) 0 =
      u ++ (t.takeWhile q ++ 0 :: (t.dropWhile q ++ 0 :: r).tail) := by
  have hlen : (u ++ t.takeWhile q).length = p + (t.takeWhile q).length := by
    rw [List.length_append, hp]
  rw [skip_append hp ht]
  conv_lhs => rw [skip_split (q := q), set_append hlen]
  rw [List.append_assoc]

/-- The zero written only where there is none cuts the string all the same. -/
theorem ite_set_skip (hp : u.length = p) (ht : 0 ∉ t) :
    ∃ r', (if (u ++ (t ++ 0 :: r)).getD (skip q (u ++ (t ++ 0 :: r)) p) 0 ≠ 0 then
        (u ++ (t ++ 0 :: r)).set (skip q (u ++ (t ++ 0 :: r)) p) 0 else u ++ (t ++ 0 :: r)) =
      u ++ (t.takeWhile q ++ 0 :: r') := by
  rw [getD_skip hp ht, set_skip hp ht]
  cases hdrop : t.dropWhile q with
  | nil =>
    have hall : t.takeWhile q = t := by
      have hsplit : t.takeWhile q ++ t.dropWhile q = t := List.takeWhile_append_dropWhile
      rwa [hdrop, List.append_nil] at hsplit
    exact ⟨r, by rw [List.headD_nil, if_neg (not_not.mpr rfl), hall]⟩
  | cons x w =>
    have hx : x ≠ 0 := by
      rintro rfl
      have hmem : 0 ∈ t.dropWhile q := by simp [hdrop]
      exact ht ((List.dropWhile_suffix q).mem hmem)
    exact ⟨w ++ 0 :: r, by rw [List.headD_cons, if_pos hx]; rfl⟩

end CString
