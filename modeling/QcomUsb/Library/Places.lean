-- SUMMARY: Tokens kept on lists, each on one list at a time, and the rules for moving them.
import Mathlib

/-!
# Tokens in places

A system keeps its tokens on lists, one list for each place. The place of a token is a
function of the token, so a token that has one is on exactly one list. The rules say how
a move between lists changes that function.
-/

namespace Places

variable {ι τ : Type}

/-- Buffers and requests are numbered: a list of numbers is searched through this instance. -/
scoped instance lawfulBEqFin {n : Nat} : LawfulBEq (Fin n) := inferInstance

section

variable {β : Type} {g : β → Option τ} {l : List β} {k : Nat} {x : β}

/-- The tokens of a list of holders, with those of one holder set apart. -/
theorem filterMap_perm_eraseIdx (h : l[k]? = some x) :
    (l.filterMap g).Perm ((g x).toList ++ (l.eraseIdx k).filterMap g) := by
  obtain ⟨hk, rfl⟩ := List.getElem?_eq_some_iff.mp h
  have hperm := (List.getElem_cons_eraseIdx_perm hk).filterMap g
  rw [List.filterMap_cons] at hperm
  cases hg : g l[k] <;> simpa [hg] using hperm.symm

theorem filterMap_set_perm (h : l[k]? = some x) (y : β) :
    ((l.set k y).filterMap g).Perm ((g y).toList ++ (l.eraseIdx k).filterMap g) := by
  obtain ⟨hk, -⟩ := List.getElem?_eq_some_iff.mp h
  have hperm := (List.set_perm_cons_eraseIdx hk y).filterMap g
  rw [List.filterMap_cons] at hperm
  cases hg : g y <;> simpa [hg] using hperm

end

section

variable {β : Type} {f : β → List τ} {l : List β} {k : Nat} {x : β}

/-- The tokens of holders of several each, with those of one holder set apart. -/
theorem flatMap_perm_eraseIdx (h : l[k]? = some x) :
    (l.flatMap f).Perm (f x ++ (l.eraseIdx k).flatMap f) := by
  obtain ⟨hk, rfl⟩ := List.getElem?_eq_some_iff.mp h
  exact (List.getElem_cons_eraseIdx_perm hk).symm.flatMap_right f

theorem flatMap_set_perm (h : l[k]? = some x) (y : β) :
    ((l.set k y).flatMap f).Perm (f y ++ (l.eraseIdx k).flatMap f) := by
  obtain ⟨hk, -⟩ := List.getElem?_eq_some_iff.mp h
  exact (List.set_perm_cons_eraseIdx hk y).flatMap_right f

end

/-- An element is set apart, and changed. -/
theorem modify_perm {α : Type} (f : α → α) {l : List α} {k : Nat} {x : α} (hk : l[k]? = some x) :
    (l.modify k f).Perm (f x :: l.eraseIdx k) := by
  induction l generalizing k with
  | nil => simp at hk
  | cons y l ih =>
    cases k with
    | zero =>
      obtain rfl : y = x := by simpa using hk
      exact .refl _
    | succ k =>
      have htail := ih (k := k) (by simpa using hk)
      simpa using (htail.cons y).trans (List.Perm.swap (f x) y _)

/-- An element is set apart. -/
theorem perm_cons_eraseIdx {α : Type} {l : List α} {k : Nat} {x : α} (hk : l[k]? = some x) :
    l.Perm (x :: l.eraseIdx k) := by
  obtain ⟨hlt, rfl⟩ := List.getElem?_eq_some_iff.mp hk
  exact (List.getElem_cons_eraseIdx_perm hlt).symm

/-- The lists hold each token once, at its place, and nothing else. A token without a place is on no
list. -/
structure Tracks (L : ι → List τ) (place : τ → Option ι) : Prop where
  nodup : ∀ p, (L p).Nodup
  mem_iff : ∀ p t, t ∈ L p ↔ place t = some p

/-- The token is on one list, and once. -/
def OnePlace [DecidableEq τ] (L : ι → List τ) (t : τ) : Prop :=
  ∃ p, (L p).count t = 1 ∧ ∀ q, q ≠ p → t ∉ L q

namespace Tracks

variable {L L' : ι → List τ} {place : τ → Option ι} {p q : ι} {t : τ} {rest : List τ}

theorem place_eq (h : Tracks L place) (ht : t ∈ L p) : place t = some p := (h.mem_iff p t).mp ht

theorem eq_of_mem (h : Tracks L place) (hp : t ∈ L p) (hq : t ∈ L q) : p = q :=
  Option.some.inj ((h.place_eq hp).symm.trans (h.place_eq hq))

theorem onePlace [DecidableEq τ] (h : Tracks L place) (ht : (place t).isSome) : OnePlace L t := by
  obtain ⟨p, hp⟩ := Option.isSome_iff_exists.mp ht
  refine ⟨p, List.count_eq_one_of_mem (h.nodup p) ((h.mem_iff p t).mpr hp), fun q hq hmem => ?_⟩
  exact hq (h.eq_of_mem hmem ((h.mem_iff p t).mpr hp))

/-- The order on the lists does not matter. -/
theorem of_perm (h : Tracks L place) (hperm : ∀ r, (L' r).Perm (L r)) : Tracks L' place :=
  ⟨fun r => (hperm r).nodup_iff.mpr (h.nodup r), fun r t => (hperm r).mem_iff.trans (h.mem_iff r t)⟩

variable [DecidableEq τ]

/-- A new token is put on a list. -/
theorem insert (h : Tracks L place) (hnew : place t = none) (hq : (L' q).Perm (t :: L q))
    (hother : ∀ r, r ≠ q → (L' r).Perm (L r)) : Tracks L' (Function.update place t (some q)) := by
  have habsent : ∀ r, t ∉ L r := fun r hr => by simp [h.place_eq hr] at hnew
  constructor
  · intro r
    by_cases hr : r = q
    · subst hr
      exact hq.nodup_iff.mpr (List.nodup_cons.mpr ⟨habsent r, h.nodup r⟩)
    · exact (hother r hr).nodup_iff.mpr (h.nodup r)
  · intro r u
    rcases eq_or_ne r q with rfl | hr
    · rw [hq.mem_iff, List.mem_cons, h.mem_iff]
      rcases eq_or_ne u t with rfl | hu
      · simp
      · simp [hu]
    · rw [(hother r hr).mem_iff, h.mem_iff]
      rcases eq_or_ne u t with rfl | hu
      · simp [hnew, hr.symm]
      · simp [hu]

/-- A token is taken off its list. -/
theorem remove (h : Tracks L place) (hp : (L p).Perm (t :: rest)) (hp' : (L' p).Perm rest)
    (hother : ∀ r, r ≠ p → (L' r).Perm (L r)) : Tracks L' (Function.update place t none) := by
  have hmem : t ∈ L p := hp.mem_iff.mpr List.mem_cons_self
  obtain ⟨hout, hrest⟩ := List.nodup_cons.mp (hp.nodup_iff.mp (h.nodup p))
  constructor
  · intro r
    by_cases hr : r = p
    · subst hr
      exact hp'.nodup_iff.mpr hrest
    · exact (hother r hr).nodup_iff.mpr (h.nodup r)
  · intro r u
    rcases eq_or_ne r p with rfl | hr
    · rw [hp'.mem_iff]
      rcases eq_or_ne u t with rfl | hu
      · simp [hout]
      · simp [← h.mem_iff, hp.mem_iff, hu]
    · rw [(hother r hr).mem_iff, h.mem_iff]
      rcases eq_or_ne u t with rfl | hu
      · simp [h.place_eq hmem, hr.symm]
      · simp [hu]

/-- A token goes from one list to another. -/
theorem move (h : Tracks L place) (hne : p ≠ q) (hp : (L p).Perm (t :: rest))
    (hp' : (L' p).Perm rest) (hq : (L' q).Perm (t :: L q))
    (hother : ∀ r, r ≠ p → r ≠ q → (L' r).Perm (L r)) :
    Tracks L' (Function.update place t (some q)) := by
  classical
  have hgone : Tracks (Function.update L p rest) (Function.update place t none) := by
    refine h.remove hp (by simp) fun r hr => ?_
    rw [Function.update_of_ne hr]
  have hin : (L' q).Perm (t :: Function.update L p rest q) := by
    simpa [Function.update_of_ne hne.symm] using hq
  have hback := hgone.insert (by simp) hin fun r hr => ?_
  · simpa using hback
  · rcases eq_or_ne r p with rfl | hrp
    · simpa using hp'
    · simpa [Function.update_of_ne hrp] using hother r hrp hr

end Tracks

/-- Every token is on a list, and on one only. -/
def Placed (L : ι → List τ) : Prop := ∃ place : τ → ι, Tracks L fun t => some (place t)

namespace Placed

variable {L L' : ι → List τ} {p q : ι} {t : τ} {ts rest : List τ}

theorem onePlace [DecidableEq τ] (h : Placed L) (t : τ) : OnePlace L t := by
  obtain ⟨place, h⟩ := h
  exact h.onePlace (by simp)

theorem nodup (h : Placed L) (p : ι) : (L p).Nodup := by
  obtain ⟨place, h⟩ := h
  exact h.nodup p

/-- The order on the lists does not matter. -/
theorem of_perm (h : Placed L) (hperm : ∀ r, (L' r).Perm (L r)) : Placed L' := by
  obtain ⟨place, h⟩ := h
  exact ⟨place, h.of_perm hperm⟩

/-- Tokens go from one list to another together. -/
theorem moveList (h : Placed L) (hne : p ≠ q) (hp : (L p).Perm (ts ++ rest))
    (hp' : (L' p).Perm rest) (hq : (L' q).Perm (ts ++ L q))
    (hother : ∀ r, r ≠ p → r ≠ q → (L' r).Perm (L r)) : Placed L' := by
  classical
  obtain ⟨place, h⟩ := h
  have hsplit : (ts ++ rest).Nodup := hp.nodup_iff.mp (h.nodup p)
  obtain ⟨hts, hrest, hdisjoint⟩ := List.nodup_append'.mp hsplit
  have hplace : ∀ t ∈ ts, place t = p := fun t ht =>
    Option.some.inj (h.place_eq (hp.mem_iff.mpr (List.mem_append_left _ ht)))
  have hmem : ∀ r t, t ∈ L r ↔ place t = r := fun r t => by simpa using h.mem_iff r t
  refine ⟨fun t => if t ∈ ts then q else place t, ?_, ?_⟩
  · intro r
    rcases eq_or_ne r p with rfl | hrp
    · exact hp'.nodup_iff.mpr hrest
    · rcases eq_or_ne r q with rfl | hrq
      · refine hq.nodup_iff.mpr (hts.append (h.nodup r) fun t ht htr => ?_)
        exact hne ((hplace t ht).symm.trans ((hmem r t).mp htr))
      · exact (hother r hrp hrq).nodup_iff.mpr (h.nodup r)
  · intro r t
    rw [Option.some.injEq]
    rcases eq_or_ne r p with rfl | hrp
    · rw [hp'.mem_iff]
      by_cases ht : t ∈ ts
      · have hout : t ∉ rest := fun hr => hdisjoint ht hr
        simp [ht, hne.symm, hout]
      · have hrest_iff : t ∈ rest ↔ t ∈ L r := by simp [hp.mem_iff, ht]
        simp [ht, hrest_iff, hmem]
    · rcases eq_or_ne r q with rfl | hrq
      · rw [hq.mem_iff, List.mem_append, hmem]
        by_cases ht : t ∈ ts <;> simp [ht]
      · rw [(hother r hrp hrq).mem_iff, hmem]
        by_cases ht : t ∈ ts
        · simp [ht, hplace t ht, hrp.symm, hrq.symm]
        · simp [ht]

/-- A token goes from one list to another. -/
theorem move (h : Placed L) (hne : p ≠ q) (hp : (L p).Perm (t :: rest)) (hp' : (L' p).Perm rest)
    (hq : (L' q).Perm (t :: L q)) (hother : ∀ r, r ≠ p → r ≠ q → (L' r).Perm (L r)) :
    Placed L' := by
  have hsingle : (L p).Perm ([t] ++ rest) := hp
  exact h.moveList hne hsingle hp' hq hother

end Placed
end Places
