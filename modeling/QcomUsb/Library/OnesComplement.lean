-- SUMMARY: Ones' complement arithmetic: sums with end-around carry, folding, complements, and the byte order of the words.
import Mathlib

/-!
# Ones' complement sums

The numbers up to `m` under addition with end-around carry. A sum is known up to multiples of `m`.
`fold` adds the carries of a plain sum to its lower part, and gives zero only for zero.
-/

namespace OnesComplement

/-- Addition with end-around carry. -/
def add (m a b : Nat) : Nat := if a + b ≤ m then a + b else a + b - m

/-- A sum with end-around carries. -/
def sum (m : Nat) (ws : List Nat) : Nat := ws.foldr (add m) 0

/-- The carries of `s` beyond `m`, added to what is left of it. -/
def fold (m s : Nat) : Nat := s / (m + 1) + s % (m + 1)

variable {m : Nat}

/-! ## Sums -/

theorem add_modEq (a b : Nat) : add m a b ≡ a + b [MOD m] := by
  unfold add
  split
  · rfl
  · next hcarry =>
      have hge : m ≤ a + b := by omega
      apply Nat.ModEq.symm
      calc a + b = (a + b - m) + m := (Nat.sub_add_cancel hge).symm
        _ ≡ a + b - m [MOD m] := Nat.add_modEq_right

theorem sum_modEq (ws : List Nat) : sum m ws ≡ ws.sum [MOD m] := by
  induction ws with
  | nil => rfl
  | cons w ws ih =>
      calc sum m (w :: ws) ≡ w + sum m ws [MOD m] := add_modEq _ _
        _ ≡ w + ws.sum [MOD m] := ih.add_left w
        _ = (w :: ws).sum := List.sum_cons.symm

/-! ## Folding -/

theorem fold_modEq (s : Nat) : fold m s ≡ s [MOD m] := by
  have hs : m * (s / (m + 1)) + fold m s = s := by
    have hdiv := Nat.div_add_mod s (m + 1)
    rw [Nat.add_mul, Nat.one_mul] at hdiv
    unfold fold
    omega
  have hmul : m * (s / (m + 1)) ≡ 0 [MOD m] := Nat.modEq_zero_iff_dvd.mpr ⟨_, rfl⟩
  apply Nat.ModEq.symm
  calc s = m * (s / (m + 1)) + fold m s := hs.symm
    _ ≡ 0 + fold m s [MOD m] := hmul.add_right _
    _ = fold m s := Nat.zero_add _

theorem fold_fold_modEq (s : Nat) : fold m (fold m s) ≡ s [MOD m] :=
  (fold_modEq _).trans (fold_modEq s)

theorem fold_eq_zero {s : Nat} : fold m s = 0 ↔ s = 0 := by
  constructor
  · intro hzero
    have hdiv := Nat.div_add_mod s (m + 1)
    obtain ⟨hcarries, hrest⟩ := Nat.add_eq_zero_iff.mp hzero
    rw [hcarries, hrest] at hdiv
    exact hdiv.symm
  · rintro rfl
    simp [fold]

/-! ## Complements -/

/-- Two numbers that differ by multiples of `m` are equal, or they are the two zeros. -/
theorem eq_or_zeros {a b : Nat} (ha : a ≤ m) (hb : b ≤ m) (h : a ≡ b [MOD m]) :
    a = b ∨ (a = 0 ∧ b = m) ∨ (a = m ∧ b = 0) := by
  rcases Nat.lt_or_ge a m with halt | hage
  · rcases Nat.lt_or_ge b m with hblt | hbge
    · exact .inl (Nat.ModEq.eq_of_lt_of_lt h halt hblt)
    · obtain rfl : b = m := Nat.le_antisymm hb hbge
      have hzero : a % b = 0 := Eq.trans h (Nat.mod_self b)
      rw [Nat.mod_eq_of_lt halt] at hzero
      exact .inr (.inl ⟨hzero, rfl⟩)
  · obtain rfl : a = m := Nat.le_antisymm ha hage
    rcases Nat.lt_or_ge b a with hblt | hbge
    · have hzero : b % a = 0 := Eq.trans h.symm (Nat.mod_self a)
      rw [Nat.mod_eq_of_lt hblt] at hzero
      exact .inr (.inr ⟨rfl, hzero⟩)
    · exact .inl (Nat.le_antisymm hbge hb)

/-- Words with a sum of zero: the rest without one of them is the complement of that one. -/
theorem complement_modEq {rest w folded : Nat} (hzero : rest + w ≡ 0 [MOD m])
    (hfolded : folded ≡ rest [MOD m]) (hle : folded ≤ m) : m - folded ≡ w [MOD m] := by
  apply Nat.ModEq.add_left_cancel' folded
  calc folded + (m - folded) = m := Nat.add_sub_cancel' hle
    _ ≡ 0 [MOD m] := Nat.modEq_zero_iff_dvd.mpr (dvd_refl m)
    _ ≡ rest + w [MOD m] := hzero.symm
    _ ≡ folded + w [MOD m] := hfolded.symm.add_right w

/-! ## Words of bytes -/

/-- The 16-bit words of some bytes, the high byte first, with a zero behind a byte that is left. -/
def words : List UInt8 → List Nat
  | [] => []
  | [a] => [256 * a.toNat]
  | a :: b :: rest => (256 * a.toNat + b.toNat) :: words rest

/-- The plain sum of the words with the low byte first. -/
def swappedSum : List UInt8 → Nat
  | [] => 0
  | [a] => a.toNat
  | a :: b :: rest => a.toNat + 256 * b.toNat + swappedSum rest

/-- The sum in one byte order is the swapped sum in the other. -/
theorem swappedSum_modEq (bytes : List UInt8) :
    256 * swappedSum bytes ≡ (words bytes).sum [MOD 0xffff] := by
  induction bytes using words.induct with
  | case1 => rfl
  | case2 a => simp [words, swappedSum, Nat.ModEq.refl]
  | case3 a b rest ih =>
      rw [words, swappedSum, List.sum_cons, Nat.mul_add]
      apply Nat.ModEq.add _ ih
      have hcarry : 256 * (a.toNat + 256 * b.toNat)
          = 256 * a.toNat + b.toNat + 0xffff * b.toNat := by omega
      rw [hcarry]
      exact Nat.add_mul_mod_self_left _ _ _

theorem swappedSum_eq_zero {bytes : List UInt8} : swappedSum bytes = 0 ↔ ∀ a ∈ bytes, a = 0 := by
  induction bytes using words.induct with
  | case1 => simp [swappedSum]
  | case2 a =>
      have ha : a.toNat = 0 ↔ a = 0 := by simp [← UInt8.toNat_inj]
      simp [swappedSum, ha]
  | case3 a b rest ih =>
      have ha : a.toNat = 0 ↔ a = 0 := by simp [← UInt8.toNat_inj]
      have hb : b.toNat = 0 ↔ b = 0 := by simp [← UInt8.toNat_inj]
      simp [swappedSum, ih, ha, hb, and_assoc]

theorem swappedSum_le (bytes : List UInt8) :
    swappedSum bytes ≤ 0xffff * ((bytes.length + 1) / 2) := by
  induction bytes using words.induct with
  | case1 => simp [swappedSum]
  | case2 a =>
      have ha := a.toNat_lt
      simp only [swappedSum, List.length_cons, List.length_nil]
      omega
  | case3 a b rest ih =>
      have ha := a.toNat_lt
      have hb := b.toNat_lt
      simp only [swappedSum, List.length_cons]
      omega

end OnesComplement
