-- SUMMARY: Steps over a memory kept together with the ranges they access, and the rules for when these lie inside.
import Mathlib

/-!
# Footprints

A step over a memory is kept together with the ranges of addresses that it reads or writes, so that
one definition says both what a program does and what it accesses. The rules take a step apart in
the order in which it is put together.
-/

namespace Footprint

/-- The `len` addresses from `off` on. -/
structure Range where
  off : Nat
  len : Nat
deriving DecidableEq

/-- The range is part of the first `n` addresses. -/
def Range.Inside (n : Nat) (r : Range) : Prop := r.off + r.len ≤ n

instance (n : Nat) (r : Range) : Decidable (r.Inside n) := Nat.decLe _ _

@[simp] theorem Range.inside_mk {n off len : Nat} : (Range.mk off len).Inside n ↔ off + len ≤ n :=
  Iff.rfl

/-- Where a step leads, and what it accesses. -/
structure Traced (σ : Type) where
  next : σ
  accesses : List Range

namespace Traced

variable {σ : Type} {n : Nat}

/-- A step without accesses. -/
def of (s : σ) : Traced σ := ⟨s, []⟩

/-- The step, after accesses to some ranges. -/
def touch (rs : List Range) (t : Traced σ) : Traced σ := ⟨t.next, rs ++ t.accesses⟩

/-- All accesses are to the first `n` addresses. -/
def Inside (n : Nat) (t : Traced σ) : Prop := ∀ r ∈ t.accesses, r.Inside n

instance (n : Nat) (t : Traced σ) : Decidable (t.Inside n) :=
  inferInstanceAs (Decidable (∀ r ∈ t.accesses, r.Inside n))

@[simp] theorem next_of (s : σ) : (of s).next = s := rfl

@[simp] theorem next_touch (rs : List Range) (t : Traced σ) : (touch rs t).next = t.next := rfl

@[simp] theorem accesses_touch (rs : List Range) (t : Traced σ) :
    (touch rs t).accesses = rs ++ t.accesses := rfl

@[simp] theorem inside_of (s : σ) : (of s).Inside n := by
  simp [Inside, of]

@[simp] theorem inside_touch {rs : List Range} {t : Traced σ} :
    (touch rs t).Inside n ↔ (∀ r ∈ rs, r.Inside n) ∧ t.Inside n :=
  List.forall_mem_append

end Traced

end Footprint
