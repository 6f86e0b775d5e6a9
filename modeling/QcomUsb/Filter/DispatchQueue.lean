-- SUMMARY: The queue of the filter driver for requests about control devices: what becomes of each request when the filter thread, cancel routines and the removal of the device come in any order.
import QcomUsb.Library.CancelRoutine
import QcomUsb.Library.Routines
import QcomUsb.Library.Transition

/-!
# The dispatch queue

`DispatchIo` puts a request to create or close a control device on `DispatchQueue`, and the filter
thread takes it off. The remove lock is held for a request from its arrival on. Each step is what a
party does between two points where others can come in.
-/

namespace Filter

open CancelRoutine Transition Routines

variable {ι : Type} [DecidableEq ι]

/-- Where a call of `DispatchIo` is: in front of the test of `Irp->Cancel`, with the spin lock, or at the
end for a request that is not queued. -/
inductive DispatchPc
  | testCancel
  | setCancelRoutine
  | insert
  | complete
  deriving DecidableEq

/-- A call of `DispatchIo` with its request. -/
structure DispatchIo (ι : Type) where
  irp : ι
  pc : DispatchPc
  deriving DecidableEq

/-- Where `ControlFilterThread` is. -/
inductive ThreadPc (ι : Type)
  | top
  | dequeue
  | clearCancelRoutine (irp : ι)
  | processDispatchIrp (irp : ι)
  | wait
  | exited
  deriving DecidableEq

/-- The fields of the device extension, and of the thread. Observers keep the requests that have come, and
those that were completed, completed by the cancel routine, or taken off the queue and forgotten. -/
structure State (ι : Type) where
  dispatchQueue : List ι
  spinLock : Bool
  io : CancelState ι
  removeLock : List ι
  removing : Bool
  deleted : Bool
  filterStopEvent : Bool
  bCancelled : Bool
  thread : ThreadPc ι
  calls : List (DispatchIo ι)
  submitted : List ι
  completed : List ι
  cancelled : List ι
  forgotten : List ι

/-- The thread has started. -/
def State.initial : State ι where
  dispatchQueue := []
  spinLock := false
  io := .initial
  removeLock := []
  removing := false
  deleted := false
  filterStopEvent := false
  bCancelled := false
  thread := .top
  calls := []
  submitted := []
  completed := []
  cancelled := []
  forgotten := []

inductive Op (ι : Type)
  | dispatchIo (irp : ι)
  | call (c : DispatchIo ι)
  | ioCancelIrp (irp : ι)
  | dispatchCancelQueued (irp : ι)
  | thread (stops : Bool)
  | cancelFilterThread
  | removeDevice
  | removeLockDrained

/-- A step of `DispatchIo`. The spin lock is held from the test until the request is on the queue. -/
def State.call (s : State ι) (c : DispatchIo ι) : Option (State ι × Option (DispatchIo ι)) :=
  match c.pc with
  | .testCancel =>
    if s.spinLock then none
    else if s.io.cancel c.irp then some (s, some ⟨c.irp, .complete⟩)
    else some ({ s with spinLock := true }, some ⟨c.irp, .setCancelRoutine⟩)
  | .setCancelRoutine =>
    some ({ s with io := s.io.ioSetCancelRoutine c.irp true }, some ⟨c.irp, .insert⟩)
  | .insert => some ({ s with dispatchQueue := s.dispatchQueue ++ [c.irp], spinLock := false }, none)
  | .complete =>
    some ({ s with
      io := s.io.ioSetCancelRoutine c.irp false
      removeLock := s.removeLock.erase c.irp
      completed := s.completed ++ [c.irp] }, none)

/-- A step of `ControlFilterThread`. `stops` if the wait ends with `FilterStopEvent`. -/
def State.threadStep (s : State ι) (stops : Bool) : Option (State ι) :=
  match s.thread with
  | .top =>
    if s.bCancelled then
      if s.spinLock then none
      else some { s with thread := if s.dispatchQueue = [] then .exited else .wait }
    else some { s with thread := .dequeue }
  | .dequeue =>
    if s.spinLock then none
    else
      match s.dispatchQueue with
      | irp :: rest => some { s with dispatchQueue := rest, thread := .clearCancelRoutine irp }
      | [] => some { s with thread := .wait }
  | .clearCancelRoutine irp =>
    if s.io.installed irp then
      some { s with io := s.io.ioSetCancelRoutine irp false, thread := .processDispatchIrp irp }
    -- the cancel routine has been called, and is left to complete the request
    else some { s with thread := .top, forgotten := s.forgotten ++ [irp] }
  | .processDispatchIrp irp =>
    some { s with
      removeLock := s.removeLock.erase irp
      completed := s.completed ++ [irp]
      thread := .wait }
  | .wait =>
    if stops ∧ s.filterStopEvent = true then
      some { s with filterStopEvent := false, bCancelled := true, thread := .top }
    else some { s with thread := .top }
  | .exited => none

def State.step (s : State ι) : Op ι → Option (State ι)
  | .dispatchIo irp =>
    if irp ∈ s.submitted then none
    -- the remove lock is not given out any more
    else if s.removing then
      some { s with submitted := irp :: s.submitted, completed := s.completed ++ [irp] }
    else some { s with
      submitted := irp :: s.submitted
      removeLock := irp :: s.removeLock
      calls := ⟨irp, .testCancel⟩ :: s.calls }
  | .call c =>
    if c ∈ s.calls then (s.call c).map fun (t, next) => { t with calls := advance s.calls c next }
    else none
  | .ioCancelIrp irp => some { s with io := s.io.ioCancelIrp irp }
  | .dispatchCancelQueued irp =>
    if s.spinLock = true ∨ irp ∉ s.io.running then none
    else if irp ∈ s.dispatchQueue then
      some { s with
        dispatchQueue := s.dispatchQueue.erase irp
        io := s.io.routineReturns irp
        cancelled := s.cancelled ++ [irp] }
    else some { s with io := (s.io.ioSetCancelRoutine irp true).routineReturns irp }
  | .thread stops => s.threadStep stops
  | .cancelFilterThread => some { s with filterStopEvent := true }
  | .removeDevice => some { s with removing := true }
  | .removeLockDrained =>
    if s.removing = true ∧ s.removeLock = [] then some { s with deleted := true } else none

def filterMachine : Machine (State ι) (Op ι) Unit := fun s op => (s.step op).map fun t => (t, ())

theorem filterMachine_eq_some {s t : State ι} {op : Op ι} {o : Unit} :
    filterMachine s op = some (t, o) ↔ s.step op = some t := by
  simp [filterMachine]

/-! ## Where a request is -/

/-- The call is the one of the request. -/
def DispatchIo.holds (i : ι) (c : DispatchIo ι) : Nat := if c.irp = i then 1 else 0

/-- The thread has the request. -/
def ThreadPc.holds (i : ι) : ThreadPc ι → Nat
  | .clearCancelRoutine irp | .processDispatchIrp irp => if irp = i then 1 else 0
  | _ => 0

/-- The request is on its way: with its call, on the queue or with the thread. -/
def State.underWay (s : State ι) (i : ι) : Nat :=
  total (DispatchIo.holds i) s.calls + s.dispatchQueue.count i + s.thread.holds i

/-- A request that has come is on its way, or ended in one way, and the remove lock is held for it unless
it was completed. -/
structure State.Kept (s : State ι) (i : ι) : Prop where
  once : s.submitted.count i ≤ 1
  place : s.underWay i + s.cancelled.count i + s.forgotten.count i + s.completed.count i =
    s.submitted.count i
  lock : s.removeLock.count i = s.underWay i + s.cancelled.count i + s.forgotten.count i

variable {s t : State ι} {op : Op ι} {c : DispatchIo ι} {i j : ι} {stops : Bool}

/-! ### The steps -/

theorem count_snoc (l : List ι) (i j : ι) :
    (l ++ [j]).count i = l.count i + if j = i then 1 else 0 := by
  rw [List.count_append, List.count_singleton]
  simp only [beq_iff_eq]

theorem count_erase_add {l : List ι} (h : j ∈ l) (i : ι) :
    (l.erase j).count i + (if j = i then 1 else 0) = l.count i := by
  by_cases hj : j = i
  · subst hj
    have hpos := List.count_pos_iff.mpr h
    rw [List.count_erase_self, if_pos rfl]
    omega
  · rw [List.count_erase_of_ne (Ne.symm hj), if_neg hj, Nat.add_zero]

/-- The remove lock is held for a request that is under way. -/
theorem State.Kept.mem_removeLock (h : s.Kept i) (hi : 0 < s.underWay i) : i ∈ s.removeLock := by
  have hlock := h.lock
  exact List.count_pos_iff.mp (by omega)

theorem State.Kept.call (h : ∀ i, s.Kept i) (hs : s.step (.call c) = some t) (i : ι) : t.Kept i := by
  obtain ⟨honce, hplace, hlock⟩ := h i
  rw [State.step] at hs
  split_ifs at hs with hc
  obtain ⟨⟨u, next⟩, hcall, rfl⟩ := Option.map_eq_some_iff.mp hs
  have hheld : c.irp ∈ s.removeLock := by
    refine (h c.irp).mem_removeLock ?_
    have hone : DispatchIo.holds c.irp c = 1 := if_pos rfl
    rw [State.underWay, total_erase hc, hone]
    omega
  simp only [State.underWay, total_erase hc] at hplace hlock
  obtain ⟨irp, pc⟩ := c
  have hshift : ∀ pc', DispatchIo.holds i ⟨irp, pc'⟩ = DispatchIo.holds i ⟨irp, pc⟩ := fun _ => rfl
  cases pc with
  | testCancel =>
    simp only [State.call] at hcall
    split_ifs at hcall with hspin hcancel
    · obtain ⟨rfl, rfl⟩ := Prod.mk.inj (Option.some.inj hcall)
      refine ⟨honce, ?_, ?_⟩ <;>
        simp only [State.underWay, total_advance_eq, held_some, hshift] <;> omega
    · obtain ⟨rfl, rfl⟩ := Prod.mk.inj (Option.some.inj hcall)
      refine ⟨honce, ?_, ?_⟩ <;>
        simp only [State.underWay, total_advance_eq, held_some, hshift] <;> omega
  | setCancelRoutine =>
    obtain ⟨rfl, rfl⟩ := Prod.mk.inj (Option.some.inj hcall)
    refine ⟨honce, ?_, ?_⟩ <;>
      simp only [State.underWay, total_advance_eq, held_some, hshift] <;> omega
  | insert =>
    obtain ⟨rfl, rfl⟩ := Prod.mk.inj (Option.some.inj hcall)
    simp only [DispatchIo.holds] at hplace hlock
    refine ⟨honce, ?_, ?_⟩ <;>
      simp only [State.underWay, total_advance_eq, held_none, count_snoc] <;> omega
  | complete =>
    obtain ⟨rfl, rfl⟩ := Prod.mk.inj (Option.some.inj hcall)
    have herase : (s.removeLock.erase irp).count i + (if irp = i then 1 else 0) = s.removeLock.count i :=
      count_erase_add hheld i
    simp only [DispatchIo.holds] at hplace hlock
    refine ⟨honce, ?_, ?_⟩ <;>
      simp only [State.underWay, total_advance_eq, held_none, count_snoc] <;> omega

theorem State.Kept.thread (h : ∀ i, s.Kept i) (hs : s.step (.thread stops) = some t) (i : ι) :
    t.Kept i := by
  obtain ⟨honce, hplace, hlock⟩ := h i
  simp only [State.step, State.threadStep] at hs
  simp only [State.underWay] at hplace hlock
  cases hthread : s.thread with
  | top =>
    simp only [hthread, ThreadPc.holds] at hs hplace hlock
    split_ifs at hs with hcancelled hspin hempty <;> obtain rfl := Option.some.inj hs <;>
      exact ⟨honce, hplace, hlock⟩
  | dequeue =>
    simp only [hthread, ThreadPc.holds] at hs hplace hlock
    split_ifs at hs with hspin
    split at hs
    · rename_i irp rest hqueue
      obtain rfl := Option.some.inj hs
      rw [hqueue, List.count_cons] at hplace hlock
      simp only [beq_iff_eq] at hplace hlock
      refine ⟨honce, ?_, ?_⟩ <;> simp only [State.underWay, ThreadPc.holds] <;> omega
    · obtain rfl := Option.some.inj hs
      exact ⟨honce, hplace, hlock⟩
  | clearCancelRoutine irp =>
    simp only [hthread, ThreadPc.holds] at hs hplace hlock
    split_ifs at hs with hinstalled
    · obtain rfl := Option.some.inj hs
      exact ⟨honce, hplace, hlock⟩
    · obtain rfl := Option.some.inj hs
      refine ⟨honce, ?_, ?_⟩ <;>
        simp only [State.underWay, ThreadPc.holds, count_snoc] <;> omega
  | processDispatchIrp irp =>
    have hheld : irp ∈ s.removeLock := by
      refine (h irp).mem_removeLock ?_
      rw [State.underWay, hthread, ThreadPc.holds, if_pos rfl]
      omega
    have herase := count_erase_add hheld i
    simp only [hthread, ThreadPc.holds] at hs hplace hlock
    obtain rfl := Option.some.inj hs
    refine ⟨honce, ?_, ?_⟩ <;> simp only [State.underWay, ThreadPc.holds, count_snoc] <;> omega
  | wait =>
    simp only [hthread, ThreadPc.holds] at hs hplace hlock
    split_ifs at hs with hstop <;> obtain rfl := Option.some.inj hs <;>
      exact ⟨honce, hplace, hlock⟩
  | exited => simp [hthread] at hs

theorem State.Kept.step (h : ∀ i, s.Kept i) (hs : s.step op = some t) (i : ι) : t.Kept i := by
  obtain ⟨honce, hplace, hlock⟩ := h i
  cases op with
  | call c => exact State.Kept.call h hs i
  | thread stops => exact State.Kept.thread h hs i
  | dispatchIo irp =>
    rw [State.step] at hs
    split_ifs at hs with hseen hremoving
    · obtain rfl := Option.some.inj hs
      have hcount := List.count_eq_zero.mpr hseen
      refine ⟨?_, ?_, hlock⟩
      · rw [List.count_cons]
        split_ifs with heq
        · obtain rfl : irp = i := by simpa using heq
          omega
        · omega
      · simp only [State.underWay, List.count_cons, beq_iff_eq, count_snoc] at hplace ⊢
        omega
    · obtain rfl := Option.some.inj hs
      have hcount := List.count_eq_zero.mpr hseen
      simp only [State.underWay] at hplace hlock
      refine ⟨?_, ?_, ?_⟩
      · rw [List.count_cons]
        split_ifs with heq
        · obtain rfl : irp = i := by simpa using heq
          omega
        · omega
      · simp only [State.underWay, List.count_cons, beq_iff_eq, total_cons, DispatchIo.holds]
        omega
      · simp only [State.underWay, List.count_cons, beq_iff_eq, total_cons, DispatchIo.holds]
        omega
  | ioCancelIrp irp =>
    obtain rfl := Option.some.inj hs
    exact ⟨honce, hplace, hlock⟩
  | dispatchCancelQueued irp =>
    rw [State.step] at hs
    split_ifs at hs with hwait hqueued
    · obtain rfl := Option.some.inj hs
      have herase := count_erase_add hqueued i
      simp only [State.underWay] at hplace hlock
      refine ⟨honce, ?_, ?_⟩ <;> simp only [State.underWay, count_snoc] <;> omega
    · obtain rfl := Option.some.inj hs
      exact ⟨honce, hplace, hlock⟩
  | cancelFilterThread =>
    obtain rfl := Option.some.inj hs
    exact ⟨honce, hplace, hlock⟩
  | removeDevice =>
    obtain rfl := Option.some.inj hs
    exact ⟨honce, hplace, hlock⟩
  | removeLockDrained =>
    rw [State.step] at hs
    split_ifs at hs
    obtain rfl := Option.some.inj hs
    exact ⟨honce, hplace, hlock⟩

/-- The requests are accounted for, and the device is deleted only with the remove lock free. -/
structure State.Inv (s : State ι) : Prop where
  kept : ∀ i, s.Kept i
  deleted : s.deleted = true → s.removing = true ∧ s.removeLock = []

/-- Nobody gets the remove lock for the device any more. -/
theorem step_deleted (h : s.Inv) (hs : s.step op = some t) :
    t.deleted = true → t.removing = true ∧ t.removeLock = [] := by
  cases op with
  | dispatchIo irp =>
    rw [State.step] at hs
    split_ifs at hs with hseen hremoving
    · obtain rfl := Option.some.inj hs
      exact h.deleted
    · obtain rfl := Option.some.inj hs
      exact fun hdeleted => absurd (h.deleted hdeleted).1 hremoving
  | call c =>
    rw [State.step] at hs
    split_ifs at hs with hc
    obtain ⟨⟨u, next⟩, hcall, rfl⟩ := Option.map_eq_some_iff.mp hs
    intro hdeleted
    obtain ⟨irp, pc⟩ := c
    cases pc with
    | testCancel =>
      simp only [State.call] at hcall
      split_ifs at hcall <;> obtain ⟨rfl, rfl⟩ := Prod.mk.inj (Option.some.inj hcall) <;>
        exact h.deleted hdeleted
    | setCancelRoutine | insert =>
      obtain ⟨rfl, rfl⟩ := Prod.mk.inj (Option.some.inj hcall)
      exact h.deleted hdeleted
    | complete =>
      obtain ⟨rfl, rfl⟩ := Prod.mk.inj (Option.some.inj hcall)
      obtain ⟨hremoving, hfree⟩ := h.deleted hdeleted
      refine ⟨hremoving, ?_⟩
      dsimp only
      rw [hfree, List.erase_nil]
  | thread stops =>
    simp only [State.step, State.threadStep] at hs
    split at hs
    case h_4 =>
      obtain rfl := Option.some.inj hs
      intro hdeleted
      obtain ⟨hremoving, hfree⟩ := h.deleted hdeleted
      refine ⟨hremoving, ?_⟩
      dsimp only
      rw [hfree, List.erase_nil]
    case h_2 =>
      split_ifs at hs
      split at hs <;> obtain rfl := Option.some.inj hs <;> exact h.deleted
    case h_6 => simp at hs
    all_goals
      split_ifs at hs <;> obtain rfl := Option.some.inj hs <;> exact h.deleted
  | ioCancelIrp irp =>
    obtain rfl := Option.some.inj hs
    exact h.deleted
  | dispatchCancelQueued irp =>
    rw [State.step] at hs
    split_ifs at hs <;> obtain rfl := Option.some.inj hs <;> exact h.deleted
  | cancelFilterThread =>
    obtain rfl := Option.some.inj hs
    exact h.deleted
  | removeDevice =>
    obtain rfl := Option.some.inj hs
    exact fun hdeleted => ⟨rfl, (h.deleted hdeleted).2⟩
  | removeLockDrained =>
    rw [State.step] at hs
    split_ifs at hs with hdrained
    obtain rfl := Option.some.inj hs
    exact fun _ => hdrained

theorem State.Inv.step (h : s.Inv) (hs : s.step op = some t) : t.Inv :=
  ⟨State.Kept.step h.kept hs, step_deleted h hs⟩

theorem State.Inv.initial : (State.initial : State ι).Inv :=
  ⟨fun _ => ⟨Nat.zero_le 1, rfl, rfl⟩, fun h => absurd h Bool.false_ne_true⟩

theorem State.Inv.visits (h : s.Inv) (ops : List (Op ι)) : ∀ t ∈ filterMachine.visits s ops, t.Inv :=
  Machine.visits_all
    (fun _ _ _ _ h (_ : True) hs => h.step (filterMachine_eq_some.mp hs)) h fun _ _ => trivial

/-- Every request that has come is in one place: under way, completed once, by the thread or by the cancel
routine, or forgotten. -/
theorem visits_place (ops : List (Op ι)) : ∀ t ∈ filterMachine.visits (State.initial : State ι) ops,
    ∀ i ∈ t.submitted, t.underWay i + t.cancelled.count i + t.forgotten.count i +
      t.completed.count i = 1 := by
  intro t ht i hi
  have hkept := (State.Inv.initial.visits ops t ht).kept i
  have hpos := List.count_pos_iff.mpr hi
  have honce := hkept.once
  rw [hkept.place]
  omega

/-- The device goes away only if no request was ever completed by the cancel routine or forgotten, and
none is left. -/
theorem visits_deleted (ops : List (Op ι)) :
    ∀ t ∈ filterMachine.visits (State.initial : State ι) ops,
    t.deleted = true → t.cancelled = [] ∧ t.forgotten = [] ∧ ∀ i, t.underWay i = 0 := by
  intro t ht hdeleted
  have hinv := State.Inv.initial.visits ops t ht
  have hfree := (hinv.deleted hdeleted).2
  have hzero : ∀ i, t.underWay i + t.cancelled.count i + t.forgotten.count i = 0 := by
    intro i
    rw [← (hinv.kept i).lock, hfree, List.count_nil]
  refine ⟨?_, ?_, fun i => ?_⟩
  · exact List.eq_nil_iff_forall_not_mem.mpr fun i hi => by
      have hpos := List.count_pos_iff.mpr hi
      have hnone := hzero i
      omega
  · exact List.eq_nil_iff_forall_not_mem.mpr fun i hi => by
      have hpos := List.count_pos_iff.mpr hi
      have hnone := hzero i
      omega
  · have hnone := hzero i
    omega

/-- One request is completed by the thread, and then the device is removed. -/
def sampleRemoval : List (Op Nat) :=
  [.dispatchIo 7, .call ⟨7, .testCancel⟩, .call ⟨7, .setCancelRoutine⟩, .call ⟨7, .insert⟩,
    .thread false, .thread false, .thread false, .thread false, .removeDevice, .removeLockDrained]

theorem visits_place_sample : ∃ t ∈ filterMachine.visits (State.initial : State Nat) sampleRemoval,
    t.completed = [7] ∧ t.underWay 7 + t.cancelled.count 7 + t.forgotten.count 7 +
      t.completed.count 7 = 1 := by
  have hne : filterMachine.visits (State.initial : State Nat) sampleRemoval ≠ [] :=
    List.ne_nil_of_mem (Machine.start_mem_visits _ _)
  exact ⟨_, List.getLast_mem hne, rfl,
    visits_place sampleRemoval _ (List.getLast_mem hne) 7 List.mem_cons_self⟩

theorem visits_deleted_sample : ∃ t ∈ filterMachine.visits (State.initial : State Nat) sampleRemoval,
    t.deleted = true ∧ t.cancelled = [] ∧ t.forgotten = [] ∧ ∀ i, t.underWay i = 0 := by
  have hne : filterMachine.visits (State.initial : State Nat) sampleRemoval ≠ [] :=
    List.ne_nil_of_mem (Machine.start_mem_visits _ _)
  exact ⟨_, List.getLast_mem hne, rfl,
    visits_deleted sampleRemoval _ (List.getLast_mem hne) rfl⟩

/-! ## Forgotten requests -/

/-- The request can be found without a cancel routine. -/
def State.Exposed (s : State ι) (i : ι) : Prop :=
  i ∈ s.dispatchQueue ∨ s.thread = .clearCancelRoutine i ∨ ⟨i, .insert⟩ ∈ s.calls

/-- A cancel routine that is gone was called. -/
structure State.Marked (s : State ι) (i : ι) : Prop where
  exposed : s.Exposed i → s.io.installed i = false → s.io.cancel i = true
  forgotten : i ∈ s.forgotten → s.io.cancel i = true

/-- Only what is exposed before is exposed afterwards, and keeps its routine. -/
theorem State.Marked.mono (h : s.Marked i) (hexposed : t.Exposed i → s.Exposed i)
    (hinstalled : t.Exposed i → t.io.installed i = false → s.io.installed i = false)
    (hcancel : s.io.cancel i = true → t.io.cancel i = true)
    (hforgotten : i ∈ t.forgotten → i ∈ s.forgotten) : t.Marked i :=
  ⟨fun he hi => hcancel (h.exposed (hexposed he) (hinstalled he hi)),
    fun hi => hcancel (h.forgotten (hforgotten hi))⟩

/-- A request that is elsewhere is not exposed. -/
theorem State.Kept.not_exposed (h : s.Kept i) (hc : c ∈ s.calls) (hirp : c.irp = i)
    (hpc : c.pc ≠ .insert) : ¬ s.Exposed i := by
  have honce := h.once
  have hplace := h.place
  have hholds : DispatchIo.holds i c = 1 := if_pos hirp
  rw [State.underWay] at hplace
  have hle : DispatchIo.holds i c ≤ total (DispatchIo.holds i) s.calls := le_total hc
  rintro (hqueue | hthread | hinsert)
  · have hpos := List.count_pos_iff.mpr hqueue
    omega
  · rw [hthread, ThreadPc.holds, if_pos rfl] at hplace
    omega
  · have hne : (⟨i, .insert⟩ : DispatchIo ι) ≠ c := by
      rintro rfl
      exact hpc rfl
    have hinsertHolds : DispatchIo.holds i ⟨i, .insert⟩ = 1 := if_pos rfl
    have htwo := add_le_total (w := DispatchIo.holds i) hc hinsert hne
    omega

theorem State.Kept.not_exposed_of_thread (h : s.Kept i) (hthread : s.thread.holds i = 1) :
    i ∉ s.dispatchQueue ∧ ⟨i, .insert⟩ ∉ s.calls := by
  have honce := h.once
  have hplace := h.place
  rw [State.underWay] at hplace
  constructor
  · intro hqueue
    have hpos := List.count_pos_iff.mpr hqueue
    omega
  · intro hinsert
    have hholds : DispatchIo.holds i ⟨i, .insert⟩ = 1 := if_pos rfl
    have hle : DispatchIo.holds i ⟨i, .insert⟩ ≤ total (DispatchIo.holds i) s.calls :=
      le_total hinsert
    omega

theorem State.Marked.call (hinv : s.Inv) (h : s.Marked i) (hs : s.step (.call c) = some t) :
    t.Marked i := by
  rw [State.step] at hs
  split_ifs at hs with hc
  obtain ⟨⟨u, next⟩, hcall, rfl⟩ := Option.map_eq_some_iff.mp hs
  obtain ⟨irp, pc⟩ := c
  have hcalls : ∀ {next}, next ≠ some ⟨i, .insert⟩ →
      (⟨i, .insert⟩ : DispatchIo ι) ∈ advance s.calls ⟨irp, pc⟩ next →
        (⟨i, .insert⟩ : DispatchIo ι) ∈ s.calls :=
    fun hne hmem => (mem_of_mem_advance hmem).resolve_left hne
  cases pc with
  | testCancel =>
    simp only [State.call] at hcall
    split_ifs at hcall <;> obtain ⟨rfl, rfl⟩ := Prod.mk.inj (Option.some.inj hcall) <;>
      exact h.mono (Or.imp_right (Or.imp_right (hcalls (by simp)))) (fun _ hi => hi) id id
  | setCancelRoutine =>
    obtain ⟨rfl, rfl⟩ := Prod.mk.inj (Option.some.inj hcall)
    by_cases hi : irp = i
    · subst hi
      exact ⟨fun _ hnot => by simp at hnot, h.forgotten⟩
    · refine h.mono (Or.imp_right (Or.imp_right (hcalls (by simp [hi])))) (fun _ hnot => ?_) id id
      simpa [Function.update_of_ne (Ne.symm hi)] using hnot
  | insert =>
    obtain ⟨rfl, rfl⟩ := Prod.mk.inj (Option.some.inj hcall)
    refine h.mono ?_ (fun _ hi => hi) id id
    rintro (hqueue | hthread | hinsert)
    · rcases List.mem_append.mp hqueue with hold | hnew
      · exact .inl hold
      · obtain rfl := List.mem_singleton.mp hnew
        exact .inr (.inr hc)
    · exact .inr (.inl hthread)
    · exact .inr (.inr (hcalls (by simp) hinsert))
  | complete =>
    obtain ⟨rfl, rfl⟩ := Prod.mk.inj (Option.some.inj hcall)
    by_cases hi : irp = i
    · have hnot := (hinv.kept i).not_exposed hc hi (by simp)
      refine ⟨fun he => absurd ?_ hnot, h.forgotten⟩
      exact Or.imp_right (Or.imp_right (hcalls (by simp))) he
    · refine h.mono (Or.imp_right (Or.imp_right (hcalls (by simp)))) (fun _ hnot => ?_) id id
      simpa [Function.update_of_ne (Ne.symm hi)] using hnot

theorem State.Marked.thread (hinv : s.Inv) (h : s.Marked i) (hs : s.step (.thread stops) = some t) :
    t.Marked i := by
  simp only [State.step, State.threadStep] at hs
  cases hthread : s.thread with
  | top =>
    simp only [hthread] at hs
    split_ifs at hs <;> obtain rfl := Option.some.inj hs <;>
      exact h.mono (Or.imp_right (Or.imp_left (by simp))) (fun _ hi => hi) id id
  | dequeue =>
    simp only [hthread] at hs
    split_ifs at hs with hspin
    split at hs
    · rename_i irp rest hqueue
      obtain rfl := Option.some.inj hs
      refine h.mono ?_ (fun _ hi => hi) id id
      rintro (hold | hnew | hinsert)
      · exact .inl (hqueue ▸ List.mem_cons_of_mem _ hold)
      · obtain rfl := ThreadPc.clearCancelRoutine.inj hnew
        exact .inl (hqueue ▸ List.mem_cons_self)
      · exact .inr (.inr hinsert)
    · obtain rfl := Option.some.inj hs
      exact h.mono (Or.imp_right (Or.imp_left (by simp))) (fun _ hi => hi) id id
  | clearCancelRoutine irp =>
    simp only [hthread] at hs
    split_ifs at hs with hinstalled
    · obtain rfl := Option.some.inj hs
      by_cases hi : irp = i
      · have hholds : s.thread.holds i = 1 := by rw [hthread, ThreadPc.holds, if_pos hi]
        obtain ⟨hqueue, hinsert⟩ := (hinv.kept i).not_exposed_of_thread hholds
        refine ⟨?_, h.forgotten⟩
        rintro (hold | hnew | hcall)
        · exact absurd hold hqueue
        · simp at hnew
        · exact absurd hcall hinsert
      · refine h.mono (Or.imp_right (Or.imp_left (by simp))) (fun _ hnot => ?_) id id
        simpa [Function.update_of_ne (Ne.symm hi)] using hnot
    · obtain rfl := Option.some.inj hs
      refine ⟨?_, fun hmem => ?_⟩
      · rintro (hold | hnew | hcall) hnot
        · exact h.exposed (.inl hold) hnot
        · simp at hnew
        · exact h.exposed (.inr (.inr hcall)) hnot
      · rcases List.mem_append.mp hmem with hold | hnew
        · exact h.forgotten hold
        · obtain rfl := List.mem_singleton.mp hnew
          exact h.exposed (.inr (.inl hthread)) (Bool.eq_false_iff.mpr hinstalled)
  | processDispatchIrp irp =>
    simp only [hthread] at hs
    obtain rfl := Option.some.inj hs
    exact h.mono (Or.imp_right (Or.imp_left (by simp))) (fun _ hi => hi) id id
  | wait =>
    simp only [hthread] at hs
    split_ifs at hs <;> obtain rfl := Option.some.inj hs <;>
      exact h.mono (Or.imp_right (Or.imp_left (by simp))) (fun _ hi => hi) id id
  | exited => simp [hthread] at hs

theorem State.Marked.step (hinv : s.Inv) (h : s.Marked i) (hs : s.step op = some t) : t.Marked i := by
  cases op with
  | call c => exact h.call hinv hs
  | thread stops => exact h.thread hinv hs
  | dispatchIo irp =>
    rw [State.step] at hs
    split_ifs at hs with hseen hremoving
    · obtain rfl := Option.some.inj hs
      exact h.mono id (fun _ hi => hi) id id
    · obtain rfl := Option.some.inj hs
      refine h.mono (Or.imp_right (Or.imp_right fun hmem => ?_)) (fun _ hi => hi) id id
      exact (List.mem_cons.mp hmem).resolve_left (by simp)
  | ioCancelIrp irp =>
    obtain rfl := Option.some.inj hs
    by_cases hi : irp = i
    · subst hi
      have hcancel : (s.io.ioCancelIrp irp).cancel irp = true := Function.update_self ..
      exact ⟨fun _ _ => hcancel, fun _ => hcancel⟩
    · refine h.mono id (fun _ hnot => ?_) (fun hc => ?_) id
      · simpa [Function.update_of_ne (Ne.symm hi)] using hnot
      · exact (Function.update_of_ne (Ne.symm hi) ..).trans hc
  | dispatchCancelQueued irp =>
    rw [State.step] at hs
    split_ifs at hs with hwait hqueued
    · obtain rfl := Option.some.inj hs
      exact h.mono (Or.imp_left List.mem_of_mem_erase) (fun _ hi => hi) id id
    · obtain rfl := Option.some.inj hs
      by_cases hi : irp = i
      · subst hi
        exact ⟨fun _ hnot => by simp at hnot, h.forgotten⟩
      · refine h.mono id (fun _ hnot => ?_) id id
        simpa [Function.update_of_ne (Ne.symm hi)] using hnot
  | cancelFilterThread =>
    obtain rfl := Option.some.inj hs
    exact h.mono id (fun _ hi => hi) id id
  | removeDevice =>
    obtain rfl := Option.some.inj hs
    exact h.mono id (fun _ hi => hi) id id
  | removeLockDrained =>
    rw [State.step] at hs
    split_ifs at hs
    obtain rfl := Option.some.inj hs
    exact h.mono id (fun _ hi => hi) id id

theorem step_forgotten (hs : s.step op = some t) (hi : i ∈ s.forgotten) : i ∈ t.forgotten := by
  cases op with
  | call c =>
    rw [State.step] at hs
    split_ifs at hs
    obtain ⟨⟨u, next⟩, hcall, rfl⟩ := Option.map_eq_some_iff.mp hs
    obtain ⟨irp, pc⟩ := c
    cases pc with
    | testCancel =>
      simp only [State.call] at hcall
      split_ifs at hcall <;> obtain ⟨rfl, rfl⟩ := Prod.mk.inj (Option.some.inj hcall) <;> exact hi
    | setCancelRoutine | insert | complete =>
      obtain ⟨rfl, rfl⟩ := Prod.mk.inj (Option.some.inj hcall)
      exact hi
  | thread stops =>
    simp only [State.step, State.threadStep] at hs
    split at hs
    case h_2 =>
      split_ifs at hs
      split at hs <;> obtain rfl := Option.some.inj hs <;> exact hi
    case h_3 =>
      split_ifs at hs <;> obtain rfl := Option.some.inj hs
      · exact hi
      · exact List.mem_append_left _ hi
    case h_4 =>
      obtain rfl := Option.some.inj hs
      exact hi
    case h_6 => simp at hs
    all_goals
      split_ifs at hs <;> obtain rfl := Option.some.inj hs <;> exact hi
  | dispatchIo irp =>
    rw [State.step] at hs
    split_ifs at hs <;> obtain rfl := Option.some.inj hs <;> exact hi
  | dispatchCancelQueued irp =>
    rw [State.step] at hs
    split_ifs at hs <;> obtain rfl := Option.some.inj hs <;> exact hi
  | removeLockDrained =>
    rw [State.step] at hs
    split_ifs at hs
    obtain rfl := Option.some.inj hs
    exact hi
  | ioCancelIrp irp | cancelFilterThread | removeDevice =>
    obtain rfl := Option.some.inj hs
    exact hi

theorem marked_of_visits (ops : List (Op ι)) (i : ι) :
    ∀ t ∈ filterMachine.visits (State.initial : State ι) ops, t.Inv ∧ t.Marked i := by
  refine Machine.visits_all (P := fun s : State ι => s.Inv ∧ s.Marked i)
    (fun s op t _ h (_ : True) hs => ?_) ?_ fun _ _ => trivial
  · have hstep := filterMachine_eq_some.mp hs
    exact ⟨h.1.step hstep, h.2.step h.1 hstep⟩
  · refine ⟨State.Inv.initial, ?_, fun h => absurd h List.not_mem_nil⟩
    rintro (hqueue | hthread | hinsert)
    · exact absurd hqueue List.not_mem_nil
    · exact absurd hthread (by simp [State.initial])
    · exact absurd hinsert List.not_mem_nil

/-- A request is forgotten only when it was cancelled. It is never completed, and the device never goes
away. -/
theorem visits_forgotten {ops ops' : List (Op ι)}
    (ht : t ∈ filterMachine.visits (State.initial : State ι) ops) (hi : i ∈ t.forgotten) :
    t.io.cancel i = true ∧ ∀ u ∈ filterMachine.visits t ops',
      i ∉ u.completed ∧ i ∉ u.cancelled ∧ u.deleted = false := by
  obtain ⟨hinv, hmarked⟩ := marked_of_visits ops i t ht
  refine ⟨hmarked.forgotten hi, fun u hu => ?_⟩
  have hu : u.Inv ∧ i ∈ u.forgotten := Machine.visits_all
    (P := fun s : State ι => s.Inv ∧ i ∈ s.forgotten)
    (fun _ _ _ _ h (_ : True) hs => ⟨h.1.step (filterMachine_eq_some.mp hs),
      step_forgotten (filterMachine_eq_some.mp hs) h.2⟩) ⟨hinv, hi⟩ (fun _ _ => trivial) u hu
  have hkept := hu.1.kept i
  have hpos := List.count_pos_iff.mpr hu.2
  have honce := hkept.once
  have hplace := hkept.place
  refine ⟨fun hmem => ?_, fun hmem => ?_, Bool.eq_false_iff.mpr fun hdeleted => ?_⟩
  · have htwo := List.count_pos_iff.mpr hmem
    omega
  · have htwo := List.count_pos_iff.mpr hmem
    omega
  · have hlock := hkept.lock
    rw [(hu.1.deleted hdeleted).2, List.count_nil] at hlock
    omega

/-- The thread takes the request off the queue when its cancel routine has been called. -/
def sampleOps : List (Op Nat) :=
  [.dispatchIo 7, .call ⟨7, .testCancel⟩, .call ⟨7, .setCancelRoutine⟩, .call ⟨7, .insert⟩,
    .thread false, .thread false, .ioCancelIrp 7, .thread false, .dispatchCancelQueued 7]

theorem visits_forgotten_sample : ∃ t ∈ filterMachine.visits (State.initial : State Nat) sampleOps,
    t.io.cancel 7 = true ∧ ∀ u ∈ filterMachine.visits t [.removeDevice, .removeLockDrained],
      7 ∉ u.completed ∧ 7 ∉ u.cancelled ∧ u.deleted = false := by
  have hne : filterMachine.visits (State.initial : State Nat) sampleOps ≠ [] :=
    List.ne_nil_of_mem (Machine.start_mem_visits _ _)
  have hforgotten :
      7 ∈ ((filterMachine.visits (State.initial : State Nat) sampleOps).getLast hne).forgotten :=
    List.mem_cons_self
  exact ⟨_, List.getLast_mem hne, visits_forgotten (List.getLast_mem hne) hforgotten⟩

end Filter
