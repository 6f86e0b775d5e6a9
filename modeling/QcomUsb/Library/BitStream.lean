-- SUMMARY: Streams of bits cut into digits of one width and of another, and that cutting them back gives the first digits.
import Mathlib.Data.Nat.Bitwise
import Mathlib.Tactic.Common

/-!
# Bit streams

The digits of a stream have a width in bits, and the lowest bit of each comes first. A stream of
digits of one width is a stream of digits of any other.
-/

namespace BitStream

/-- The bits of digits of `w` bits. -/
def bits (w : Nat) (d : Nat → Nat) (i : Nat) : Bool := (d (i / w)).testBit (i % w)

/-- The digits of `w` bits that some bits make up. -/
def digits (w : Nat) (b : Nat → Bool) (k : Nat) : Nat := Nat.ofBits fun j : Fin w => b (w * k + j)

/-- Digits of `w` bits cut into digits of `v` bits. -/
def regroup (w v : Nat) (d : Nat → Nat) : Nat → Nat := digits v (bits w d)

variable {w v : Nat} {d d' : Nat → Nat} {b : Nat → Bool} {k : Nat}

theorem digits_lt (w : Nat) (b : Nat → Bool) (k : Nat) : digits w b k < 2 ^ w :=
  Nat.ofBits_lt_two_pow _

theorem testBit_digits {j : Nat} (hj : j < w) : (digits w b k).testBit j = b (w * k + j) :=
  Nat.testBit_ofBits_lt _ j hj

theorem bits_digits (hw : 0 < w) (b : Nat → Bool) : bits w (digits w b) = b := by
  funext i
  rw [bits, testBit_digits (Nat.mod_lt i hw), Nat.div_add_mod]

/-- A number is a digit of the stream if its bits are those of the digit. -/
theorem eq_digits {n : Nat} (hn : n < 2 ^ w) (h : ∀ j < w, n.testBit j = b (w * k + j)) :
    n = digits w b k := by
  apply Nat.eq_of_testBit_eq
  intro j
  by_cases hj : j < w
  · rw [h j hj, testBit_digits hj]
  · have hle : 2 ^ w ≤ 2 ^ j := Nat.pow_le_pow_right (by decide) (Nat.not_lt.mp hj)
    rw [Nat.testBit_lt_two_pow (hn.trans_le hle),
      Nat.testBit_lt_two_pow ((digits_lt w b k).trans_le hle)]

theorem bits_digit {j : Nat} (hj : j < w) (k : Nat) : bits w d (w * k + j) = (d k).testBit j := by
  rw [bits, Nat.mul_add_div (Nat.zero_lt_of_lt hj), Nat.div_eq_of_lt hj, Nat.add_zero,
    Nat.mul_add_mod, Nat.mod_eq_of_lt hj]

theorem digits_bits (h : d k < 2 ^ w) : digits w (bits w d) k = d k :=
  (eq_digits h fun _ hj => (bits_digit hj k).symm).symm

/-- Digits that are cut into others are what these are cut back into. -/
theorem regroup_regroup (hv : 0 < v) (h : d k < 2 ^ w) : regroup v w (regroup w v d) k = d k := by
  rw [regroup, regroup, bits_digits hv, digits_bits h]

/-- A digit depends on the digits that it has bits of. -/
theorem regroup_congr {n : Nat} (hw : 0 < w) (h : ∀ i < n, d i = d' i) (hk : v * (k + 1) ≤ w * n) :
    regroup w v d k = regroup w v d' k := by
  rw [regroup, regroup, digits, digits]
  congr 1
  funext j
  have hlt : v * k + j < w * n := by
    have hj := j.isLt
    rw [Nat.mul_succ] at hk
    omega
  rw [bits, bits, h _ (Nat.div_lt_of_lt_mul hlt)]

end BitStream
