-- SUMMARY: Circular doubly linked lists threaded through their entries, and what the pointer operations do to the list they hold.
import QcomUsb.Library.Loop

/-!
# Intrusive lists

An entry points to the one behind it and to the one before it. The head is an entry of its
own, and the list behind it comes back to it.
-/

namespace IntrusiveList

variable {ν : Type}

/-- The two pointers of every entry. -/
structure Links (ν : Type) where
  flink : ν → ν
  blink : ν → ν

namespace Links

/-- `y` is the entry behind `x`. -/
def Joined (L : Links ν) (x y : ν) : Prop := L.flink x = y ∧ L.blink y = x

/-- The entries `xs` lie between `a` and `b`. -/
def Path (L : Links ν) : ν → List ν → ν → Prop
  | a, [], b => L.Joined a b
  | a, x :: xs, b => L.Joined a x ∧ Path L x xs b

/-- The list behind `head` holds the entries `xs`. -/
structure Holds (L : Links ν) (head : ν) (xs : List ν) : Prop where
  path : L.Path head xs head
  nodup : (head :: xs).Nodup

variable [DecidableEq ν]

def setFlink (L : Links ν) (x y : ν) : Links ν := { L with flink := Function.update L.flink x y }

def setBlink (L : Links ν) (x y : ν) : Links ν := { L with blink := Function.update L.blink x y }

/-- An empty list. -/
def initializeListHead (L : Links ν) (head : ν) : Links ν :=
  (L.setFlink head head).setBlink head head

def isListEmpty (L : Links ν) (head : ν) : Bool := L.flink head = head

def insertTailList (L : Links ν) (head entry : ν) : Links ν :=
  let last := L.blink head
  (((L.setFlink entry head).setBlink entry last).setFlink last entry).setBlink head entry

def removeEntryList (L : Links ν) (entry : ν) : Links ν :=
  let next := L.flink entry
  let last := L.blink entry
  (L.setFlink last next).setBlink next last

/-- The links without the first entry. -/
def removeHeadList (L : Links ν) (head : ν) : Links ν :=
  let next := L.flink (L.flink head)
  (L.setFlink head next).setBlink next head

/-- One turn of the search for `entry`, at the entry `peek`. -/
def findTurn (L : Links ν) (head entry peek : ν) : Bool ⊕ ν :=
  if peek = head then .inl false
  else if peek = entry then .inl true
  else .inr (L.flink peek)

/-- The search of the list behind `head`, given up after some turns. -/
def findEntry (L : Links ν) (head entry : ν) (turns : Nat) : Option Bool :=
  Loop.run (L.findTurn head entry) turns (L.flink head)

variable {L L' : Links ν} {a b e head x : ν} {xs ys : List ν}

@[simp] theorem flink_setFlink (L : Links ν) (x y : ν) :
    (L.setFlink x y).flink = Function.update L.flink x y := rfl

@[simp] theorem blink_setFlink (L : Links ν) (x y : ν) : (L.setFlink x y).blink = L.blink := rfl

@[simp] theorem flink_setBlink (L : Links ν) (x y : ν) : (L.setBlink x y).flink = L.flink := rfl

@[simp] theorem blink_setBlink (L : Links ν) (x y : ν) :
    (L.setBlink x y).blink = Function.update L.blink x y := rfl

/-! ## Paths -/

omit [DecidableEq ν] in
/-- A path depends on the pointers along it. -/
theorem Path.congr (h : L.Path a xs b) (hflink : ∀ x ∈ a :: xs, L'.flink x = L.flink x)
    (hblink : ∀ x ∈ xs ++ [b], L'.blink x = L.blink x) : L'.Path a xs b := by
  induction xs generalizing a with
  | nil => exact ⟨(hflink a (by simp)).trans h.1, (hblink b (by simp)).trans h.2⟩
  | cons x xs ih =>
    obtain ⟨⟨hf, hb⟩, hrest⟩ := h
    have hjoined : L'.Joined a x :=
      ⟨(hflink a (by simp)).trans hf, (hblink x (by simp)).trans hb⟩
    exact ⟨hjoined, ih hrest (fun y hy => hflink y (List.mem_cons_of_mem _ hy))
      fun y hy => hblink y (List.mem_cons_of_mem _ hy)⟩

omit [DecidableEq ν] in
theorem path_append : L.Path a (xs ++ x :: ys) b ↔ L.Path a xs x ∧ L.Path x ys b := by
  induction xs generalizing a with
  | nil => rfl
  | cons y xs ih => rw [List.cons_append, Path, ih, Path, and_assoc]

omit [DecidableEq ν] in
/-- The entry before the end of a path lies on it. -/
theorem Path.blink_mem (h : L.Path a xs b) : L.blink b ∈ a :: xs := by
  induction xs generalizing a with
  | nil => exact h.2 ▸ List.mem_cons_self
  | cons x xs ih => exact List.mem_cons_of_mem _ (ih h.2)

omit [DecidableEq ν] in
/-- The entry behind the start of a path lies on it. -/
theorem Path.flink_mem (h : L.Path a xs b) : L.flink a ∈ xs ++ [b] := by
  cases xs with
  | nil => exact h.1 ▸ List.mem_cons_self
  | cons x xs => exact h.1.1 ▸ List.mem_cons_self

/-- Taking an entry out of a path closes the gap. -/
theorem Path.removeEntryList (h : L.Path a (xs ++ e :: ys) b)
    (hnodup : (a :: (xs ++ e :: ys)).Nodup) (hend : b ∉ xs ++ e :: ys) :
    (L.removeEntryList e).Path a (xs ++ ys) b := by
  induction xs generalizing a with
  | nil =>
    obtain ⟨⟨hfa, hbe⟩, hrest⟩ := h
    cases ys with
    | nil =>
      obtain ⟨hfe, hbb⟩ := hrest
      refine ⟨?_, ?_⟩ <;> simp [Links.removeEntryList, hfe, hbe]
    | cons y ys =>
      obtain ⟨⟨hfe, hby⟩, hrest⟩ := hrest
      refine ⟨⟨?_, ?_⟩, hrest.congr ?_ ?_⟩
      · simp [Links.removeEntryList, hfe, hbe]
      · simp [Links.removeEntryList, hfe, hbe]
      · intro z hz
        have hne : z ≠ a := by
          rintro rfl
          exact (List.nodup_cons.mp hnodup).1 (List.mem_cons_of_mem _ hz)
        simp [Links.removeEntryList, hbe, hne]
      · intro z hz
        have hne : z ≠ y := by
          rintro rfl
          rcases List.mem_append.mp hz with hmem | hmem
          · have hys := (List.nodup_cons.mp (List.nodup_cons.mp hnodup).2).2
            exact (List.nodup_cons.mp hys).1 hmem
          · rw [List.mem_singleton.mp hmem] at hend
            exact hend (by simp)
        simp [Links.removeEntryList, hfe, hne]
  | cons x xs ih =>
    obtain ⟨⟨hfa, hbx⟩, hrest⟩ := h
    have hnodup' := (List.nodup_cons.mp hnodup).2
    obtain ⟨hfront, hback⟩ := path_append.mp hrest
    refine ⟨⟨?_, ?_⟩, ih hrest hnodup' fun hmem => hend (List.mem_cons_of_mem _ hmem)⟩
    · have hne : a ≠ L.blink e := by
        intro heq
        have hmem := hfront.blink_mem
        rw [← heq] at hmem
        refine (List.nodup_cons.mp hnodup).1 ?_
        rw [List.cons_append, ← List.cons_append]
        exact List.mem_append_left _ hmem
      simp [Links.removeEntryList, hne, hfa]
    · have hne : x ≠ L.flink e := by
        intro heq
        have hmem := hback.flink_mem
        rw [← heq] at hmem
        rcases List.mem_append.mp hmem with hmem | hmem
        · exact (List.nodup_cons.mp hnodup').1 (by simp [hmem])
        · rw [List.mem_singleton.mp hmem] at hend
          exact hend (by simp)
      simp [Links.removeEntryList, hne, hbx]

/-- A new entry before the end of a path is its last one. -/
theorem Path.insertTailList (h : L.Path a xs b) (hnodup : (a :: xs).Nodup) (hend : b ∉ xs)
    (hnew : e ∉ a :: xs) (hne : e ≠ b) : (L.insertTailList b e).Path a (xs ++ [e]) b := by
  induction xs generalizing a with
  | nil =>
    have hea : a ≠ e := fun heq => hnew (by simp [heq])
    obtain ⟨hfa, hba⟩ := h
    refine ⟨⟨?_, ?_⟩, ?_, ?_⟩ <;> simp [Links.insertTailList, hba, hne, hea.symm]
  | cons x xs ih =>
    obtain ⟨⟨hfa, hbx⟩, hrest⟩ := h
    have hnew' : e ∉ x :: xs := fun hmem => hnew (List.mem_cons_of_mem _ hmem)
    have hend' : b ∉ xs := fun hmem => hend (List.mem_cons_of_mem _ hmem)
    refine ⟨⟨?_, ?_⟩, ih hrest (List.nodup_cons.mp hnodup).2 hend' hnew'⟩
    · have hlast : a ≠ L.blink b := by
        intro heq
        have hmem := hrest.blink_mem
        rw [← heq] at hmem
        exact (List.nodup_cons.mp hnodup).1 hmem
      have hea : a ≠ e := fun heq => hnew (by simp [heq])
      simp [Links.insertTailList, hlast, hea, hfa]
    · have hxb : x ≠ b := fun heq => hend (by simp [heq])
      have hxe : x ≠ e := fun heq => hnew' (by simp [heq])
      simp [Links.insertTailList, hxb, hxe, hbx]

/-! ## The list behind its head -/

theorem holds_initializeListHead (L : Links ν) (head : ν) :
    (L.initializeListHead head).Holds head [] :=
  ⟨⟨by simp [initializeListHead], by simp [initializeListHead]⟩, List.nodup_singleton head⟩

theorem Holds.isListEmpty (h : L.Holds head xs) : L.isListEmpty head ↔ xs = [] := by
  unfold Links.isListEmpty
  rw [decide_eq_true_iff]
  cases xs with
  | nil => exact iff_of_true h.path.1 rfl
  | cons x xs =>
    refine iff_of_false (fun heq => ?_) (List.cons_ne_nil x xs)
    have hx : x = head := h.path.1.1.symm.trans heq
    exact (List.nodup_cons.mp h.nodup).1 (by simp [hx])

theorem Holds.insertTailList (h : L.Holds head xs) (hnew : e ∉ head :: xs) :
    (L.insertTailList head e).Holds head (xs ++ [e]) := by
  have hhead := (List.nodup_cons.mp h.nodup).1
  have hne : e ≠ head := fun heq => hnew (by simp [heq])
  refine ⟨h.path.insertTailList h.nodup hhead hnew hne, ?_⟩
  rw [← List.cons_append]
  exact List.Nodup.append h.nodup (List.nodup_singleton e)
    (List.disjoint_singleton.mpr hnew)

theorem Holds.removeEntryList (h : L.Holds head xs) (he : e ∈ xs) :
    (L.removeEntryList e).Holds head (xs.erase e) := by
  obtain ⟨front, back, hnot, rfl, herase⟩ := List.exists_erase_eq he
  rw [herase]
  refine ⟨h.path.removeEntryList h.nodup (List.nodup_cons.mp h.nodup).1, ?_⟩
  refine h.nodup.sublist (List.Sublist.cons_cons head ?_)
  exact (List.Sublist.refl front).append (List.sublist_cons_self e back)

theorem Holds.removeHeadList_eq (h : L.Holds head (x :: xs)) :
    L.removeHeadList head = L.removeEntryList x := by
  have hfirst : L.flink head = x := h.path.1.1
  have hback : L.blink x = head := h.path.1.2
  simp only [Links.removeHeadList, Links.removeEntryList, hfirst, hback]

/-- The first entry is the one taken off the head. -/
theorem Holds.removeHeadList (h : L.Holds head (x :: xs)) :
    L.flink head = x ∧ (L.removeHeadList head).Holds head xs := by
  have hrest := h.removeEntryList (e := x) List.mem_cons_self
  rw [List.erase_cons_head, ← h.removeHeadList_eq] at hrest
  exact ⟨h.path.1.1, hrest⟩

omit [DecidableEq ν] in
/-- Behind an entry comes the next one, or the head. -/
theorem Holds.flink (h : L.Holds head (xs ++ x :: ys)) :
    L.flink x = ys.headD head := by
  have hrest := (path_append.mp h.path).2
  cases ys with
  | nil => exact hrest.1
  | cons y ys => exact hrest.1.1

/-- To take an entry out of one list leaves a list with other entries as it is. -/
theorem Holds.removeEntryList_other {other : ν} (h : L.Holds head xs) (he : e ∈ xs)
    (hother : L.Holds other ys) (hdisjoint : List.Disjoint (head :: xs) (other :: ys)) :
    (L.removeEntryList e).Holds other ys := by
  obtain ⟨front, back, rfl⟩ := List.append_of_mem he
  obtain ⟨hfront, hback⟩ := path_append.mp h.path
  have hlast : L.blink e ∈ head :: (front ++ e :: back) := by
    rw [← List.cons_append]
    exact List.mem_append_left _ hfront.blink_mem
  have hnext : L.flink e ∈ head :: (front ++ e :: back) := by
    rcases List.mem_append.mp hback.flink_mem with hmem | hmem
    · exact List.mem_cons_of_mem _ (List.mem_append_right _ (List.mem_cons_of_mem _ hmem))
    · rw [List.mem_singleton.mp hmem]
      exact List.mem_cons_self
  refine ⟨hother.path.congr ?_ ?_, hother.nodup⟩
  · intro y hy
    have hne : y ≠ L.blink e := fun heq => hdisjoint hlast (heq ▸ hy)
    simp [Links.removeEntryList, hne]
  · intro y hy
    have hy' : y ∈ other :: ys := by
      rcases List.mem_append.mp hy with hmem | hmem
      · exact List.mem_cons_of_mem _ hmem
      · rw [List.mem_singleton.mp hmem]
        exact List.mem_cons_self
    have hne : y ≠ L.flink e := fun heq => hdisjoint hnext (heq ▸ hy')
    simp [Links.removeEntryList, hne]

theorem Path.run_findTurn (h : L.Path a xs head) (hhead : head ∉ xs) {turns : Nat}
    (hturns : xs.length < turns) :
    Loop.run (L.findTurn head e) turns (L.flink a) = some (decide (e ∈ xs)) := by
  induction xs generalizing a turns with
  | nil =>
    obtain ⟨n, rfl⟩ := Nat.exists_eq_add_of_lt hturns
    rw [h.1]
    simp [Loop.run, findTurn]
  | cons x xs ih =>
    obtain ⟨n, rfl⟩ : ∃ n, turns = n + 1 := ⟨turns - 1, by omega⟩
    have hxhead : x ≠ head := fun heq => hhead (by simp [heq])
    rw [h.1.1]
    by_cases hxe : x = e
    · subst hxe
      simp [Loop.run, findTurn, hxhead]
    · have hne : e ≠ x := fun heq => hxe heq.symm
      have hn : xs.length < n := by simpa using hturns
      have hrest := ih h.2 (fun hmem => hhead (List.mem_cons_of_mem _ hmem)) hn
      simpa [Loop.run, findTurn, hxhead, hxe, hne] using hrest

/-- The search ends, and finds what the list holds. -/
theorem Holds.findEntry (h : L.Holds head xs) {turns : Nat} (hturns : xs.length < turns) (e : ν) :
    L.findEntry head e turns = some (decide (e ∈ xs)) :=
  h.path.run_findTurn (List.nodup_cons.mp h.nodup).1 hturns

/-- Taking the head itself out of a list that is not empty leaves no list behind it. -/
theorem Holds.not_holds_removeEntryList_head (h : L.Holds head xs) (hxs : xs ≠ []) :
    ¬(L.removeEntryList head).Holds head ys := by
  have hhead := (List.nodup_cons.mp h.nodup).1
  have hlast : L.blink head ≠ head := by
    intro heq
    obtain ⟨front, x, rfl⟩ := (List.eq_nil_or_concat xs).resolve_left hxs
    rw [List.concat_eq_append] at h hhead
    have hjoined := (path_append.mp h.path).2
    have hx : x = head := hjoined.2.symm.trans heq
    exact hhead (by simp [hx])
  have hfirst : L.flink head ≠ head := by
    intro heq
    exact hxs (h.isListEmpty.mp (by simpa [Links.isListEmpty] using heq))
  intro hholds
  cases ys with
  | nil =>
    have hback := hholds.path.1
    simp [Links.removeEntryList, hlast.symm, hfirst] at hback
  | cons y ys =>
    obtain ⟨hy, hback⟩ := hholds.path.1
    simp only [Links.removeEntryList, flink_setBlink, flink_setFlink,
      Function.update_of_ne hlast.symm] at hy
    simp [Links.removeEntryList, ← hy, hlast] at hback

omit [DecidableEq ν] in
/-- Two sets of links with the same path agree along it. -/
theorem Path.agree (h : L.Path a xs b) (h' : L'.Path a xs b) :
    (∀ x ∈ a :: xs, L'.flink x = L.flink x) ∧ ∀ x ∈ xs ++ [b], L'.blink x = L.blink x := by
  induction xs generalizing a with
  | nil =>
    constructor
    · intro x hx
      rw [List.mem_singleton.mp hx, h.1, h'.1]
    · intro x hx
      rw [List.mem_singleton.mp hx, h.2, h'.2]
  | cons y ys ih =>
    obtain ⟨hflink, hblink⟩ := ih h.2 h'.2
    constructor
    · exact List.forall_mem_cons.mpr ⟨h'.1.1.trans h.1.1.symm, hflink⟩
    · exact List.forall_mem_cons.mpr ⟨h'.1.2.trans h.1.2.symm, hblink⟩

/-- What an entry that is on no list still points to is joined, where it is on this list. -/
structure Rejoins (L : Links ν) (head : ν) (xs : List ν) (e : ν) : Prop where
  flink : L.blink e ∈ head :: xs → L.flink (L.blink e) = L.flink e
  blink : L.flink e ∈ head :: xs → L.blink (L.flink e) = L.blink e

omit [DecidableEq ν] in
theorem mem_append_head : x ∈ xs ++ [head] ↔ x ∈ head :: xs := by
  rw [List.mem_append, List.mem_singleton, List.mem_cons, or_comm]

/-- To take an entry out that is on no list keeps a list exactly if the neighbours the entry still
names are neighbours there. -/
theorem Holds.removeEntryList_iff_rejoins (h : L.Holds head xs) (e : ν) :
    (L.removeEntryList e).Holds head xs ↔ L.Rejoins head xs e := by
  constructor
  · intro h'
    obtain ⟨hflink, hblink⟩ := h.path.agree h'.path
    constructor
    · intro hmem
      have hsame := hflink _ hmem
      simp only [Links.removeEntryList, flink_setBlink, flink_setFlink, Function.update_self] at hsame
      exact hsame.symm
    · intro hmem
      have hsame := hblink _ (mem_append_head.mpr hmem)
      simp only [Links.removeEntryList, blink_setBlink, Function.update_self] at hsame
      exact hsame.symm
  · intro hrejoins
    refine ⟨h.path.congr ?_ ?_, h.nodup⟩
    · intro x hx
      simp only [Links.removeEntryList, flink_setBlink, flink_setFlink]
      by_cases heq : x = L.blink e
      · subst heq
        rw [Function.update_self]
        exact (hrejoins.flink hx).symm
      · rw [Function.update_of_ne heq]
    · intro x hx
      simp only [Links.removeEntryList, blink_setBlink, blink_setFlink]
      by_cases heq : x = L.flink e
      · subst heq
        rw [Function.update_self]
        exact (hrejoins.blink (mem_append_head.mp hx)).symm
      · rw [Function.update_of_ne heq]

/-! ## Several lists -/

section

variable {κ : Type} [DecidableEq κ] {heads : κ → ν} {live : κ → Prop} {contents : κ → List ν} {k : κ}

/-- Lists that go by names hold these entries, and share none. -/
structure HoldsAll (L : Links ν) (heads : κ → ν) (live : κ → Prop) (contents : κ → List ν) :
    Prop where
  holds : ∀ k, live k → L.Holds (heads k) (contents k)
  disjoint : ∀ j k, live j → live k → j ≠ k →
    List.Disjoint (heads j :: contents j) (heads k :: contents k)

theorem HoldsAll.removeEntryList (h : L.HoldsAll heads live contents) (hk : live k)
    (he : e ∈ contents k) :
    (L.removeEntryList e).HoldsAll heads live
      (Function.update contents k ((contents k).erase e)) := by
  have hsub (j : κ) : Function.update contents k ((contents k).erase e) j ⊆ contents j := by
    by_cases hj : j = k
    · subst hj
      rw [Function.update_self]
      exact List.erase_subset
    · rw [Function.update_of_ne hj]
      exact List.Subset.refl _
  constructor
  · intro j hj
    by_cases hjk : j = k
    · subst hjk
      rw [Function.update_self]
      exact (h.holds j hj).removeEntryList he
    · rw [Function.update_of_ne hjk]
      exact (h.holds k hk).removeEntryList_other he (h.holds j hj)
        (h.disjoint k j hk hj (Ne.symm hjk))
  · intro i j hi hj hij
    exact List.disjoint_of_subset_left (List.cons_subset_cons _ (hsub i))
      (List.disjoint_of_subset_right (List.cons_subset_cons _ (hsub j)) (h.disjoint i j hi hj hij))

theorem HoldsAll.removeHeadList (h : L.HoldsAll heads live contents) (hk : live k)
    (hx : contents k = x :: xs) :
    L.flink (heads k) = x ∧
      (L.removeHeadList (heads k)).HoldsAll heads live (Function.update contents k xs) := by
  have hholds := h.holds k hk
  rw [hx] at hholds
  have hrest := h.removeEntryList (e := x) hk (hx ▸ List.mem_cons_self)
  rw [hx, List.erase_cons_head, ← hholds.removeHeadList_eq] at hrest
  exact ⟨hholds.path.1.1, hrest⟩

omit [DecidableEq κ] in
/-- The same for several lists. -/
theorem HoldsAll.removeEntryList_iff_rejoins (h : L.HoldsAll heads live contents) (e : ν) :
    (L.removeEntryList e).HoldsAll heads live contents ↔
      ∀ k, live k → L.Rejoins (heads k) (contents k) e := by
  constructor
  · intro h' k hk
    exact ((h.holds k hk).removeEntryList_iff_rejoins e).mp (h'.holds k hk)
  · intro hrejoins
    exact ⟨fun k hk => ((h.holds k hk).removeEntryList_iff_rejoins e).mpr (hrejoins k hk),
      h.disjoint⟩

end

end Links

end IntrusiveList
