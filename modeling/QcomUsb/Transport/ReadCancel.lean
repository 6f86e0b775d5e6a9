-- SUMMARY: When every pended read of the USB transport is completed once: no read is taken off its queue in cancellation.
import QcomUsb.Transport.ReadQueues

/-!
# Cancelled reads

A step that takes a read off its queue with its cancel routine in place hands it to completion. A
read that is taken off without one is lost, since the filler and the cancel routine each leave it
to the other. While no read is lost, a cancel routine is installed or under way only for reads on
their queue.
-/

namespace Transport.ReadCancel

open CancelRoutine Transition

variable {D : Type} [DecidableEq D]

/-! ## Counting the places -/

section

variable {f : Port D → List (Irp D)} {irp : Irp D}

theorem count_update_append (f : Port D → List (Irp D)) (irp j : Irp D) :
    (Function.update f irp.port (f irp.port ++ [irp]) j.port).count j =
      (f j.port).count j + if j = irp then 1 else 0 := by
  rcases eq_or_ne j irp with rfl | hne
  · simp
  · rcases eq_or_ne j.port irp.port with hp | hp
    · rw [hp, Function.update_self, List.count_append, List.count_singleton, if_neg hne]
      simp [hne.symm]
    · rw [Function.update_of_ne hp, if_neg hne, Nat.add_zero]

theorem count_update_erase (h : irp ∈ f irp.port) (j : Irp D) :
    (Function.update f irp.port ((f irp.port).erase irp) j.port).count j +
      (if j = irp then 1 else 0) = (f j.port).count j := by
  rcases eq_or_ne j irp with rfl | hne
  · have hpos : 0 < (f j.port).count j := List.count_pos_iff.mpr h
    simp only [Function.update_self, List.count_erase_self, if_true]
    omega
  · rcases eq_or_ne j.port irp.port with hp | hp
    · simp [hp, hne, List.count_erase_of_ne hne]
    · simp [hp, hne]

end

namespace State

variable {s : State D} {irp : Irp D}

theorem places_insertCompletionQueue (s : State D) (irp : Irp D) (ioStatus : IoStatus)
    (j : Irp D) :
    (s.insertCompletionQueue irp ioStatus).places j = s.places j + if j = irp then 1 else 0 := by
  have hcount := count_update_append s.completionQueue irp j
  simp only [places, insertCompletionQueue, hcount]
  omega

theorem places_completeRequest (s : State D) (irp : Irp D) (ioStatus : IoStatus) (j : Irp D) :
    (s.completeRequest irp ioStatus).places j = s.places j + if j = irp then 1 else 0 := by
  have hcount : [irp].count j = if j = irp then 1 else 0 := by
    rw [List.count_singleton]
    simp only [beq_iff_eq, @eq_comm _ irp j]
  simp only [places, completeRequest, List.count_append, hcount]
  omega

theorem removeEntryList_queue (h : irp ∈ s.queue irp.port) :
    (s.removeEntryList irp).queue =
      Function.update s.queue irp.port ((s.queue irp.port).erase irp) := by
  rw [removeEntryList, if_pos h]

/-- Off its queue a read has one place less. -/
theorem places_removeEntryList (h : irp ∈ s.queue irp.port) (j : Irp D) :
    (s.removeEntryList irp).places j + (if j = irp then 1 else 0) = s.places j := by
  have hcount := count_update_erase h j
  simp only [places, removeEntryList, if_pos h]
  omega

/-- Unlinking the head is `RemoveHeadList`. -/
theorem removeEntryList_head {rest : List (Irp D)} (h : s.queue irp.port = irp :: rest) :
    s.removeEntryList irp = { s with queue := Function.update s.queue irp.port rest } := by
  have hmem : irp ∈ s.queue irp.port := h ▸ List.mem_cons_self
  rw [removeEntryList, if_pos hmem, h, List.erase_cons_head]

/-! ## The invariant -/

/-- The lists of a device hold its own reads. -/
def Own (s : State D) : Prop := ∀ p, ∀ irp ∈ s.queue p ++ s.completionQueue p, irp.port = p

/-- What holds in a run that loses no read: a cancel routine is installed or under way only for a
read on its queue. -/
structure Inv (s : State D) : Prop where
  io : s.io.Inv
  queued : ∀ p, ∀ irp ∈ s.queue p, irp ∈ s.accepted
  peeked : ∀ d irp, s.peeked d = some irp → irp ∈ s.accepted
  accepted : ∀ irp ∈ s.accepted, irp ∈ s.submitted
  placed : ∀ irp, 0 < s.places irp → irp ∈ s.submitted
  idle : ∀ irp, irp ∉ s.queue irp.port → s.io.installed irp = false ∧ irp ∉ s.io.running

omit [DecidableEq D] in
theorem initial_own : (initial : State D).Own := by simp [Own, initial]

theorem initial_inv : (initial : State D).Inv where
  io := .initial
  queued := by simp [initial]
  peeked := by simp [initial]
  accepted := by simp [initial]
  placed := by simp [initial, places]
  idle := by simp [initial, CancelState.initial]

theorem initial_kept : (initial : State D).Kept where
  once := by simp [initial]
  own := initial_own
  touched := rfl
  wasted := rfl

/-- A read went from its queue to where it is completed, with its routine taken out. -/
structure Finished (s t : State D) (irp : Irp D) : Prop where
  queue : t.queue = (s.removeEntryList irp).queue
  places : ∀ j, t.places j = s.places j
  own : s.Own → t.Own
  io : CancelState.Cleared s.io t.io irp
  peeked : ∀ d j, t.peeked d = some j → s.peeked d = some j
  accepted : t.accepted = s.accepted
  submitted : t.submitted = s.submitted
  wild : t.wild = s.wild
  wasted : t.wasted = s.wasted

theorem Finished.kept {t : State D} (h : s.Finished t irp) (hs : s.Kept) : t.Kept where
  once := fun j hj => (h.places j).trans (hs.once j (h.accepted ▸ hj))
  own := h.own hs.own
  touched := h.wild.trans hs.touched
  wasted := h.wasted.trans hs.wasted

theorem Finished.inv {t : State D} (h : s.Finished t irp) (hirp : irp ∈ s.queue irp.port)
    (hs : s.Inv) : t.Inv where
  io := h.io.inv hs.io
  queued := fun p j hj => by
    rw [h.accepted]
    rw [h.queue, removeEntryList_queue hirp] at hj
    rcases eq_or_ne p irp.port with rfl | hp
    · rw [Function.update_self] at hj
      exact hs.queued _ j (List.mem_of_mem_erase hj)
    · rw [Function.update_of_ne hp] at hj
      exact hs.queued p j hj
  peeked := fun d j hj => h.accepted ▸ hs.peeked d j (h.peeked d j hj)
  accepted := fun j hj => h.submitted ▸ hs.accepted j (h.accepted ▸ hj)
  placed := fun j hj => h.submitted ▸ hs.placed j (h.places j ▸ hj)
  idle := fun j hj => by
    rcases eq_or_ne j irp with rfl | hne
    · exact h.io.gone hs.io
    · have hold : j ∉ s.queue j.port := by
        intro hmem
        apply hj
        rw [h.queue, removeEntryList_queue hirp]
        rcases eq_or_ne j.port irp.port with hp | hp
        · rw [hp, Function.update_self]
          exact (List.mem_erase_of_ne hne).mpr (hp ▸ hmem)
        · rw [Function.update_of_ne hp]
          exact hmem
      obtain ⟨hinst, hrun⟩ := hs.idle j hold
      obtain ⟨hsame, hold⟩ := h.io.other j hne
      exact ⟨hsame.trans hinst, fun hmem => hrun (hold.mp hmem)⟩

theorem Own.removeEntryList (h : s.Own) (irp : Irp D) : (s.removeEntryList irp).Own := by
  intro p j hj
  apply h p j
  unfold State.removeEntryList at hj
  split at hj
  · rcases eq_or_ne p irp.port with rfl | hp
    · simp only [Function.update_self, List.mem_append] at hj ⊢
      exact hj.imp_left List.mem_of_mem_erase
    · simpa [hp] using hj
  · split at hj
    · rcases eq_or_ne p irp.port with rfl | hp
      · simp only [Function.update_self, List.mem_append] at hj ⊢
        exact hj.imp_right List.mem_of_mem_erase
      · simpa [hp] using hj
    · exact hj

theorem Own.insertCompletionQueue (h : s.Own) (irp : Irp D) (ioStatus : IoStatus) :
    (s.insertCompletionQueue irp ioStatus).Own := by
  intro p j hj
  unfold State.insertCompletionQueue at hj
  rcases eq_or_ne p irp.port with rfl | hp
  · simp only [Function.update_self, List.mem_append, List.mem_singleton] at hj
    rcases hj with hj | hj | rfl
    · exact h _ j (List.mem_append_left _ hj)
    · exact h _ j (List.mem_append_right _ hj)
    · rfl
  · exact h p j (by simpa [hp] using hj)

/-- The read goes to the completion queue. -/
theorem finished_insert {c : CancelState (Irp D)} (hirp : irp ∈ s.queue irp.port)
    (hc : CancelState.Cleared s.io c irp) (ioStatus : IoStatus) :
    s.Finished { (s.removeEntryList irp).insertCompletionQueue irp ioStatus with io := c } irp where
  queue := rfl
  places := fun j =>
    (places_insertCompletionQueue _ irp ioStatus j).trans (places_removeEntryList hirp j)
  own := fun h => (h.removeEntryList irp).insertCompletionQueue irp ioStatus
  io := hc
  peeked := by simp [State.insertCompletionQueue, State.removeEntryList, hirp]
  accepted := by simp [State.insertCompletionQueue, State.removeEntryList, hirp]
  submitted := by simp [State.insertCompletionQueue, State.removeEntryList, hirp]
  wild := by simp [State.insertCompletionQueue, State.removeEntryList, hirp]
  wasted := by simp [State.insertCompletionQueue, State.removeEntryList, hirp]

/-- The read is completed at once. -/
theorem finished_complete {c : CancelState (Irp D)} (hirp : irp ∈ s.queue irp.port)
    (hc : CancelState.Cleared s.io c irp) (ioStatus : IoStatus) :
    s.Finished { (s.removeEntryList irp).completeRequest irp ioStatus with io := c } irp where
  queue := rfl
  places := fun j =>
    (places_completeRequest _ irp ioStatus j).trans (places_removeEntryList hirp j)
  own := fun h => h.removeEntryList irp
  io := hc
  peeked := by simp [State.completeRequest, State.removeEntryList, hirp]
  accepted := by simp [State.completeRequest, State.removeEntryList, hirp]
  submitted := by simp [State.completeRequest, State.removeEntryList, hirp]
  wild := by simp [State.completeRequest, State.removeEntryList, hirp]
  wasted := by simp [State.completeRequest, State.removeEntryList, hirp]

theorem removeEntryList_io (h : irp ∈ s.queue irp.port) : (s.removeEntryList irp).io = s.io := by
  rw [removeEntryList, if_pos h]

/-- A fill completes the read that it takes off its queue with its routine in place. -/
theorem completeIrp_finished (hirp : irp ∈ s.queue irp.port) (hinst : s.io.installed irp = true)
    (fill : Fill) : s.Finished (s.completeIrp irp fill) irp := by
  have hio := removeEntryList_io hirp
  have heq : s.completeIrp irp fill =
      { (s.removeEntryList irp).completeRequest irp fill.ioStatus with
        io := s.io.ioSetCancelRoutine irp false } := by
    simp only [completeIrp, hio, hinst, if_true, bDirectCompletion, ioSetCancelRoutine,
      completeRequest]
  rw [heq]
  exact finished_complete hirp (.take hinst) fill.ioStatus

theorem cancelReadRoutine_finished (hirp : irp ∈ s.queue irp.port) (hrun : irp ∈ s.io.running) :
    s.Finished (s.cancelReadRoutine irp) irp := by
  have hio := removeEntryList_io hirp
  have heq : s.cancelReadRoutine irp =
      { (s.removeEntryList irp).insertCompletionQueue irp ⟨.cancelled, 0⟩ with
        io := s.io.routineReturns irp } := by
    simp only [cancelReadRoutine, if_pos hirp, insertCompletionQueue, hio]
  rw [heq]
  exact finished_insert hirp (.routineReturns hrun) _

theorem getEncapsulatedResponse_finished {d : D} {rest : List (Irp D)}
    (hq : s.queue (d, .control) = irp :: rest) (hport : irp.port = (d, .control))
    (hinst : s.io.installed irp = true) (response : List UInt8) :
    s.Finished (s.getEncapsulatedResponse d response) irp := by
  have hirp : irp ∈ s.queue irp.port := by simp [hport, hq]
  have hhead := removeEntryList_head (hport ▸ hq)
  rw [hport] at hhead
  let ioStatus : IoStatus := if response.length > irp.length then ⟨.bufferTooSmall, irp.length⟩
    else ⟨.success, response.length⟩
  have heq : s.getEncapsulatedResponse d response =
      { (s.removeEntryList irp).insertCompletionQueue irp ioStatus with
        io := s.io.ioSetCancelRoutine irp false } := by
    simp only [getEncapsulatedResponse, hq, hinst, if_true, hhead, insertCompletionQueue,
      ioSetCancelRoutine, ioStatus]
  rw [heq]
  exact finished_insert hirp (.take hinst) _

/-! ## Lost reads -/

/-- A read in no place spoils the property. -/
theorem not_kept_of_lost {t : State D} (irp : Irp D) (hirp : irp ∈ t.accepted)
    (hlost : t.places irp = 0) : ¬ t.Kept := by
  intro h
  have honce := h.once irp hirp
  omega

/-- A fill that walks away loses the read, wherever it found it. -/
theorem completeIrp_lost (hs : s.Kept) (hirp : irp ∈ s.accepted)
    (hinst : s.io.installed irp = false) (fill : Fill) : ¬ (s.completeIrp irp fill).Kept := by
  have honce := hs.once irp hirp
  by_cases hqueue : irp ∈ s.queue irp.port
  · have hplaces := places_removeEntryList hqueue irp
    rw [if_pos rfl] at hplaces
    have hio := removeEntryList_io hqueue
    refine not_kept_of_lost irp ?_ ?_
    · simpa [completeIrp, hio, hinst, removeEntryList, hqueue] using hirp
    · have hwalk : (s.completeIrp irp fill).places irp = (s.removeEntryList irp).places irp := by
        simp only [completeIrp, hio, hinst, Bool.false_eq_true, if_false, places]
      omega
  · by_cases hcompletion : irp ∈ s.completionQueue irp.port
    · have hcount := count_update_erase hcompletion irp
      rw [if_pos rfl] at hcount
      refine not_kept_of_lost irp ?_ ?_
      · simpa [completeIrp, hinst, removeEntryList, hqueue, hcompletion] using hirp
      · have hwalk : (s.completeIrp irp fill).places irp + 1 = s.places irp := by
          simp only [completeIrp, removeEntryList, if_neg hqueue, if_pos hcompletion, hinst,
            Bool.false_eq_true, if_false, places]
          omega
        omega
    · intro hkept
      have hwild := hkept.touched
      simp [completeIrp, removeEntryList, hqueue, hcompletion, hinst] at hwild

theorem getEncapsulatedResponse_lost (hs : s.Kept) (hinv : s.Inv) {d : D} {rest : List (Irp D)}
    (hq : s.queue (d, .control) = irp :: rest) (hinst : s.io.installed irp = false)
    (response : List UInt8) : ¬ (s.getEncapsulatedResponse d response).Kept := by
  have hmem : irp ∈ s.queue (d, .control) := hq ▸ List.mem_cons_self
  have hport : irp.port = (d, .control) := hs.own _ irp (List.mem_append_left _ hmem)
  have haccepted := hinv.queued _ irp hmem
  have honce := hs.once irp haccepted
  have hhead := removeEntryList_head (hport ▸ hq)
  have hplaces := places_removeEntryList (hport ▸ hmem) irp
  rw [if_pos rfl] at hplaces
  refine not_kept_of_lost irp ?_ ?_
  · simpa [getEncapsulatedResponse, hq, hinst] using haccepted
  · have hwalk : (s.getEncapsulatedResponse d response).places irp =
        (s.removeEntryList irp).places irp := by
      rw [hhead, hport]
      simp only [getEncapsulatedResponse, hq, hinst, Bool.false_eq_true, if_false, places]
    omega

/-! ## The purge -/

/-- A turn of the purge leaves everything but the completion queue and the routine alone. -/
theorem purgeIrp_frame (s : State D) (irp : Irp D) :
    (s.purgeIrp irp).queue = s.queue ∧ (s.purgeIrp irp).accepted = s.accepted ∧
      (s.purgeIrp irp).submitted = s.submitted ∧ (s.purgeIrp irp).peeked = s.peeked ∧
      (s.purgeIrp irp).wild = s.wild ∧ (s.purgeIrp irp).wasted = s.wasted ∧
      (s.purgeIrp irp).io.running = s.io.running := by
  unfold purgeIrp
  split <;> exact ⟨rfl, rfl, rfl, rfl, rfl, rfl, rfl⟩

theorem purge_frame (l : List (Irp D)) (s : State D) :
    (l.foldl purgeIrp s).queue = s.queue ∧ (l.foldl purgeIrp s).accepted = s.accepted ∧
      (l.foldl purgeIrp s).submitted = s.submitted ∧ (l.foldl purgeIrp s).peeked = s.peeked ∧
      (l.foldl purgeIrp s).wild = s.wild ∧ (l.foldl purgeIrp s).wasted = s.wasted ∧
      (l.foldl purgeIrp s).io.running = s.io.running := by
  induction l generalizing s with
  | nil => exact ⟨rfl, rfl, rfl, rfl, rfl, rfl, rfl⟩
  | cons irp l ih =>
    obtain ⟨hqueue, haccepted, hsubmitted, hpeeked, hwild, hwasted, hrunning⟩ := ih (s.purgeIrp irp)
    obtain ⟨hqueue', haccepted', hsubmitted', hpeeked', hwild', hwasted', hrunning'⟩ :=
      s.purgeIrp_frame irp
    exact ⟨hqueue.trans hqueue', haccepted.trans haccepted', hsubmitted.trans hsubmitted',
      hpeeked.trans hpeeked', hwild.trans hwild', hwasted.trans hwasted',
      hrunning.trans hrunning'⟩

theorem purgeIrp_installed (s : State D) (irp j : Irp D) :
    (s.purgeIrp irp).io.installed j = if j = irp then false else s.io.installed j := by
  unfold purgeIrp
  rcases eq_or_ne j irp with rfl | hne
  · cases h : s.io.installed j <;> simp [h, insertCompletionQueue, ioSetCancelRoutine]
  · cases h : s.io.installed irp <;> simp [hne, insertCompletionQueue, ioSetCancelRoutine]

/-- No routine is left on the reads that are purged. -/
theorem purge_installed (l : List (Irp D)) (s : State D) (j : Irp D) :
    (l.foldl purgeIrp s).io.installed j = if j ∈ l then false else s.io.installed j := by
  induction l generalizing s with
  | nil => simp
  | cons irp l ih =>
    rw [List.foldl_cons, ih, purgeIrp_installed]
    by_cases hl : j ∈ l <;> by_cases hj : j = irp <;> simp [hl, hj]

theorem purgeIrp_places (s : State D) (irp j : Irp D) :
    (s.purgeIrp irp).places j =
      s.places j + if j = irp ∧ s.io.installed irp = true then 1 else 0 := by
  unfold purgeIrp
  split
  · next h =>
    rw [places_insertCompletionQueue]
    simp only [h, and_true]
    rfl
  · next h => simp [h]

/-- The reads with a routine go to the completion queue. -/
theorem purge_places {l : List (Irp D)} (hl : l.Nodup) (s : State D) (j : Irp D) :
    (l.foldl purgeIrp s).places j =
      s.places j + if s.io.installed j = true then l.count j else 0 := by
  induction l generalizing s with
  | nil => simp
  | cons irp l ih =>
    obtain ⟨hnew, hl⟩ := List.nodup_cons.mp hl
    rw [List.foldl_cons, ih hl, purgeIrp_installed, purgeIrp_places]
    rcases eq_or_ne j irp with rfl | hne
    · have hcount : l.count j = 0 := List.count_eq_zero.mpr hnew
      cases h : s.io.installed j <;> simp [hcount]
    · simp [hne, List.count_cons_of_ne hne.symm]

theorem purge_own {p : Port D} {l : List (Irp D)} {s : State D} (hl : ∀ irp ∈ l, irp.port = p)
    (h : s.Own) : (l.foldl purgeIrp s).Own := by
  induction l generalizing s with
  | nil => exact h
  | cons irp l ih =>
    refine ih (fun j hj => hl j (List.mem_cons_of_mem _ hj)) ?_
    unfold purgeIrp
    split
    · exact Own.insertCompletionQueue (s := s.ioSetCancelRoutine irp false) h irp _
    · exact h

/-- The reads on a queue are different. -/
theorem queue_nodup (hs : s.Kept) (hinv : s.Inv) (p : Port D) : (s.queue p).Nodup := by
  refine List.nodup_iff_count_le_one.mpr fun irp => ?_
  by_cases hmem : irp ∈ s.queue p
  · have hport : irp.port = p := hs.own p irp (List.mem_append_left _ hmem)
    have honce := hs.once irp (hinv.queued p irp hmem)
    rw [places, hport] at honce
    omega
  · rw [List.count_eq_zero.mpr hmem]
    exact Nat.zero_le 1

/-- A read keeps its place in a purge, unless it was on the queue without a routine. -/
theorem purgeQueue_places (hs : s.Kept) (hinv : s.Inv) (p : Port D) (j : Irp D) :
    (s.purgeQueue p).places j + (if s.io.installed j = true then 0 else (s.queue p).count j) =
      s.places j := by
  let u : State D := { s with queue := Function.update s.queue p [] }
  have hpurge : (s.purgeQueue p).places j =
      u.places j + if s.io.installed j = true then (s.queue p).count j else 0 :=
    purge_places (queue_nodup hs hinv p) u j
  have hu : u.places j = (u.queue j.port).count j + (s.completionQueue j.port).count j +
      s.completed.count j := rfl
  have hempty : u.places j + (s.queue p).count j = s.places j := by
    rw [hu, places]
    rcases eq_or_ne j.port p with rfl | hp
    · have hnil : u.queue j.port = [] := Function.update_self ..
      rw [hnil, List.count_nil]
      omega
    · have hout : (s.queue p).count j = 0 := by
        refine List.count_eq_zero.mpr fun hmem => hp ?_
        exact hs.own p j (List.mem_append_left _ hmem)
      have hsame : u.queue j.port = s.queue j.port := Function.update_of_ne hp ..
      rw [hsame, hout, Nat.add_zero]
  split at hpurge <;> simp_all

theorem purgeQueue_own (hs : s.Kept) (p : Port D) : (s.purgeQueue p).Own := by
  refine purge_own (p := p) (fun irp hirp => hs.own p irp (List.mem_append_left _ hirp)) ?_
  intro q j hj
  apply hs.own q j
  rcases eq_or_ne q p with rfl | hq
  · simp only [Function.update_self, List.nil_append] at hj
    exact List.mem_append_right _ hj
  · simpa [hq] using hj

/-- A purge completes the reads of a queue exactly if none is in cancellation. -/
theorem purgeQueue_kept_iff (hs : s.Kept) (hinv : s.Inv) (p : Port D) :
    (s.purgeQueue p).Kept ↔ ∀ irp ∈ s.queue p, s.io.installed irp = true := by
  let u : State D := { s with queue := Function.update s.queue p [] }
  obtain ⟨-, haccepted, -, -, hwild, hwasted, -⟩ := purge_frame (s.queue p) u
  constructor
  · intro hkept irp hirp
    by_contra hinst
    have honce := hs.once irp (hinv.queued p irp hirp)
    have hplaces := purgeQueue_places hs hinv p irp
    have hpos : 0 < (s.queue p).count irp := List.count_pos_iff.mpr hirp
    rw [if_neg hinst] at hplaces
    refine not_kept_of_lost irp ?_ (by omega) hkept
    exact haccepted ▸ hinv.queued p irp hirp
  · intro hall
    refine ⟨fun irp hirp => ?_, purgeQueue_own hs p, hwild.trans hs.touched,
      hwasted.trans hs.wasted⟩
    have honce := hs.once irp (haccepted ▸ hirp)
    have hplaces := purgeQueue_places hs hinv p irp
    by_cases hmem : irp ∈ s.queue p
    · rw [if_pos (hall irp hmem)] at hplaces
      omega
    · rw [List.count_eq_zero.mpr hmem] at hplaces
      simp only [ite_self] at hplaces
      omega

theorem purgeQueue_inv (hs : s.Kept) (hinv : s.Inv) {p : Port D}
    (hall : ∀ irp ∈ s.queue p, s.io.installed irp = true) : (s.purgeQueue p).Inv := by
  let u : State D := { s with queue := Function.update s.queue p [] }
  obtain ⟨hqueue, haccepted, hsubmitted, hpeeked, -, -, hrunning⟩ := purge_frame (s.queue p) u
  have hinstalled : ∀ j, (s.purgeQueue p).io.installed j =
      if j ∈ s.queue p then false else s.io.installed j := purge_installed (s.queue p) u
  refine ⟨⟨?_, ?_⟩, ?_, ?_, ?_, ?_, ?_⟩
  · exact hrunning ▸ hinv.io.running_nodup
  · intro j hj
    have hgone := hinv.io.running_gone j (hrunning ▸ hj)
    rw [hinstalled, hgone, ite_self]
  · intro q j hj
    have hj' : j ∈ u.queue q := hqueue ▸ hj
    rcases eq_or_ne q p with rfl | hq
    · simp [u] at hj'
    · have hold : j ∈ s.queue q := by simpa [u, hq] using hj'
      exact haccepted ▸ hinv.queued q j hold
  · intro d j hj
    exact haccepted ▸ hinv.peeked d j (hpeeked ▸ hj)
  · intro j hj
    exact hsubmitted ▸ hinv.accepted j (haccepted ▸ hj)
  · intro j hj
    have hplaces := purgeQueue_places hs hinv p j
    exact hsubmitted ▸ hinv.placed j (by omega)
  · intro j hj
    rw [hinstalled]
    have hrun : (s.purgeQueue p).io.running = s.io.running := hrunning
    rw [hrun]
    by_cases hmem : j ∈ s.queue p
    · have hinst := hall j hmem
      exact ⟨if_pos hmem, fun hr => by simp [hinv.io.running_gone j hr] at hinst⟩
    · have hout : j ∉ s.queue j.port := by
        intro hold
        rcases eq_or_ne j.port p with hp | hp
        · exact hmem (hp ▸ hold)
        · have hkeep : j ∈ u.queue j.port := by simpa [u, hp] using hold
          exact hj (hqueue ▸ hkeep)
      rw [if_neg hmem]
      exact hinv.idle j hout

/-! ## The other steps -/

/-- A read that is submitted for the first time is nowhere yet. -/
theorem Inv.fresh (hinv : s.Inv) (hnew : irp ∉ s.submitted) :
    s.places irp = 0 ∧ irp ∉ s.accepted := by
  refine ⟨?_, fun h => hnew (hinv.accepted irp h)⟩
  by_contra hpos
  exact hnew (hinv.placed irp (Nat.pos_of_ne_zero hpos))

theorem enqueue_places (s : State D) (irp j : Irp D) :
    (s.enqueue irp).places j = s.places j + if j = irp then 1 else 0 := by
  unfold enqueue
  cases hc : s.io.cancel irp with
  | true =>
    simp only [hc, if_true]
    rw [places_completeRequest]
    rfl
  | false =>
    have hcount := count_update_append s.queue irp j
    simp only [hc, Bool.false_eq_true, if_false, places, ioSetCancelRoutine, hcount]
    omega

theorem enqueue_kept (hs : s.Kept) (hinv : s.Inv) (hnew : irp ∉ s.submitted) :
    (s.enqueue irp).Kept := by
  obtain ⟨hnone, hout⟩ := hinv.fresh hnew
  have hplaces := s.enqueue_places irp
  unfold enqueue at hplaces ⊢
  cases hc : s.io.cancel irp with
  | true =>
    simp only [hc, if_true] at hplaces ⊢
    refine ⟨fun j hj => ?_, hs.own, hs.touched, hs.wasted⟩
    have hne : j ≠ irp := fun heq => hout (heq ▸ hj)
    rw [hplaces, if_neg hne]
    exact hs.once j hj
  | false =>
    simp only [hc, Bool.false_eq_true, if_false] at hplaces ⊢
    refine ⟨fun j hj => ?_, fun p j hj => ?_, hs.touched, hs.wasted⟩
    · rw [hplaces]
      rcases List.mem_append.mp hj with hold | hlast
      · have hne : j ≠ irp := fun heq => hout (heq ▸ hold)
        rw [if_neg hne]
        exact hs.once j hold
      · obtain rfl : j = irp := by simpa using hlast
        rw [hnone, if_pos rfl]
    · rcases eq_or_ne p irp.port with rfl | hp
      · simp only [Function.update_self, List.mem_append, List.mem_singleton] at hj
        rcases hj with (hj | rfl) | hj
        · exact hs.own _ j (List.mem_append_left _ hj)
        · rfl
        · exact hs.own _ j (List.mem_append_right _ hj)
      · exact hs.own p j (by simpa [hp, ioSetCancelRoutine] using hj)

theorem enqueue_inv (hs : s.Kept) (hinv : s.Inv) (hnew : irp ∉ s.submitted) :
    (s.enqueue irp).Inv := by
  obtain ⟨hnone, hout⟩ := hinv.fresh hnew
  have hqueue : irp ∉ s.queue irp.port := fun hmem => hout (hinv.queued _ irp hmem)
  obtain ⟨hinst, hrun⟩ := hinv.idle irp hqueue
  have hplaced : ∀ j, 0 < (s.enqueue irp).places j → j ∈ s.submitted ++ [irp] := by
    intro j hj
    rw [enqueue_places] at hj
    rcases eq_or_ne j irp with rfl | hne
    · exact List.mem_append_right _ List.mem_cons_self
    · rw [if_neg hne] at hj
      exact List.mem_append_left _ (hinv.placed j hj)
  unfold enqueue at hplaced ⊢
  cases hc : s.io.cancel irp with
  | true =>
    simp only [hc, if_true] at hplaced ⊢
    refine ⟨hinv.io.clear irp, hinv.queued, hinv.peeked, ?_, hplaced, ?_⟩
    · exact fun j hj => List.mem_append_left _ (hinv.accepted j hj)
    · intro j hj
      obtain ⟨hinst', hrun'⟩ := hinv.idle j hj
      refine ⟨?_, hrun'⟩
      rcases eq_or_ne j irp with rfl | hne
      · exact Function.update_self ..
      · exact (Function.update_of_ne hne ..).trans hinst'
  | false =>
    simp only [hc, Bool.false_eq_true, if_false] at hplaced ⊢
    refine ⟨hinv.io.install hrun, ?_, ?_, ?_, hplaced, ?_⟩
    · intro p j hj
      rcases eq_or_ne p irp.port with rfl | hp
      · simp only [Function.update_self, List.mem_append, List.mem_singleton] at hj
        rcases hj with hj | rfl
        · exact List.mem_append_left _ (hinv.queued _ j hj)
        · exact List.mem_append_right _ List.mem_cons_self
      · exact List.mem_append_left _ (hinv.queued p j (by simpa [hp] using hj))
    · exact fun d j hj => List.mem_append_left _ (hinv.peeked d j hj)
    · intro j hj
      rcases List.mem_append.mp hj with hold | hlast
      · exact List.mem_append_left _ (hinv.accepted j hold)
      · exact List.mem_append_right _ hlast
    · intro j hj
      have hne : j ≠ irp := by
        rintro rfl
        exact hj (by simp)
      have hold : j ∉ s.queue j.port := by
        intro hmem
        apply hj
        change j ∈ Function.update s.queue irp.port (s.queue irp.port ++ [irp]) j.port
        rcases eq_or_ne j.port irp.port with hp | hp
        · rw [hp, Function.update_self]
          exact List.mem_append_left _ (hp ▸ hmem)
        · rw [Function.update_of_ne hp]
          exact hmem
      obtain ⟨hinst', hrun'⟩ := hinv.idle j hold
      exact ⟨(Function.update_of_ne hne ..).trans hinst', hrun'⟩

theorem ioCancelIrp_inv (hinv : s.Inv) (irp : Irp D) :
    State.Inv { s with io := s.io.ioCancelIrp irp } where
  io := hinv.io.ioCancelIrp irp
  queued := hinv.queued
  peeked := hinv.peeked
  accepted := hinv.accepted
  placed := hinv.placed
  idle := fun j hj => by
    obtain ⟨hinst, hrun⟩ := hinv.idle j hj
    constructor
    · rcases eq_or_ne j irp with rfl | hne
      · simp
      · simpa [hne] using hinst
    · intro hmem
      rcases CancelState.mem_ioCancelIrp_running.mp hmem with hold | ⟨hinst', rfl⟩
      · exact hrun hold
      · simp [hinst] at hinst'

/-- The head of a completion queue is completed. -/
theorem qcEmptyCompletionQueue_places (hs : s.Kept) (p : Port D) (j : Irp D) :
    (s.qcEmptyCompletionQueue p).places j = s.places j := by
  unfold qcEmptyCompletionQueue
  split
  · rfl
  · next irp rest hq =>
    have hport : irp.port = p := hs.own p irp (by simp [hq])
    have hone : [irp].count j + rest.count j = (s.completionQueue p).count j := by
      rw [hq, ← List.count_append, List.singleton_append]
    simp only [places, List.count_append]
    rcases eq_or_ne j.port p with hp | hp
    · rw [hp, Function.update_self]
      omega
    · have hne : irp ≠ j := fun heq => hp (heq ▸ hport)
      rw [Function.update_of_ne hp, List.count_singleton, if_neg (by simpa using hne), Nat.add_zero]

theorem qcEmptyCompletionQueue_kept (hs : s.Kept) (p : Port D) :
    (s.qcEmptyCompletionQueue p).Kept := by
  have hplaces := qcEmptyCompletionQueue_places hs p
  unfold qcEmptyCompletionQueue at hplaces ⊢
  split at hplaces
  · exact hs
  · next irp rest hq =>
    refine ⟨fun j hj => (hplaces j).trans (hs.once j hj), ?_, hs.touched, hs.wasted⟩
    intro q j hj
    apply hs.own q j
    rcases eq_or_ne q p with rfl | hne
    · simp only [Function.update_self, List.mem_append, hq, List.mem_cons] at hj ⊢
      exact hj.imp_right .inr
    · simpa [hne] using hj

theorem qcEmptyCompletionQueue_inv (hs : s.Kept) (hinv : s.Inv) (p : Port D) :
    (s.qcEmptyCompletionQueue p).Inv := by
  have hplaces := qcEmptyCompletionQueue_places hs p
  unfold qcEmptyCompletionQueue at hplaces ⊢
  split at hplaces
  · exact hinv
  · exact ⟨hinv.io, hinv.queued, hinv.peeked, hinv.accepted,
      fun j hj => hinv.placed j (hplaces j ▸ hj), hinv.idle⟩

/-- What the level-1 threads have peeked at makes no difference to the reads. -/
theorem peeked_kept (hs : s.Kept) (peeked : D → Option (Irp D)) :
    State.Kept { s with peeked := peeked } := ⟨hs.once, hs.own, hs.touched, hs.wasted⟩

theorem peeked_inv (hinv : s.Inv) {peeked : D → Option (Irp D)}
    (h : ∀ d irp, peeked d = some irp → irp ∈ s.accepted) :
    State.Inv { s with peeked := peeked } :=
  ⟨hinv.io, hinv.queued, h, hinv.accepted, hinv.placed, hinv.idle⟩

theorem getAdapterReadDataItemIrp_inv (hinv : s.Inv) (d device : D) :
    (s.getAdapterReadDataItemIrp d device).Inv := by
  refine peeked_inv hinv fun e irp he => ?_
  rcases eq_or_ne e d with rfl | hne
  · rw [Function.update_self] at he
    exact hinv.queued _ irp (List.mem_of_mem_head? he)
  · rw [Function.update_of_ne hne] at he
    exact hinv.peeked e irp he

theorem letGo_inv (hinv : s.Inv) (d : D) :
    State.Inv { s with peeked := Function.update s.peeked d none } := by
  refine peeked_inv hinv fun e irp he => ?_
  rcases eq_or_ne e d with rfl | hne
  · simp at he
  · rw [Function.update_of_ne hne] at he
    exact hinv.peeked e irp he

end State

/-! ## The runs -/

open State

section

variable {s t : State D} {op : Op D}

/-- A fill completes the read it has exactly if the read is on its queue with its routine. -/
theorem completeIrp_kept_iff {irp : Irp D} (hs : s.Kept) (hinv : s.Inv) (hirp : irp ∈ s.accepted)
    (fill : Fill) :
    (s.completeIrp irp fill).Kept ↔ irp ∈ s.queue irp.port ∧ s.io.installed irp = true := by
  constructor
  · intro hkept
    have hinst : s.io.installed irp = true := by
      by_contra h
      exact completeIrp_lost hs hirp (by simpa using h) fill hkept
    refine ⟨?_, hinst⟩
    by_contra hout
    rw [(hinv.idle irp hout).1] at hinst
    exact Bool.false_ne_true hinst
  · rintro ⟨hmem, hinst⟩
    exact (completeIrp_finished hmem hinst fill).kept hs

/-- A step keeps the reads exactly if it disturbs no cancellation. -/
theorem step_kept_iff (hs : s.Kept) (hinv : s.Inv) (h : step s op = some t) :
    t.Kept ↔ op.Undisturbed s := by
  cases op with
  | enqueue irp =>
    obtain ⟨⟨-, hnew⟩, heq⟩ := Option.ite_none_right_eq_some.mp h
    obtain rfl := Option.some.inj heq
    exact iff_of_true (enqueue_kept hs hinv hnew) trivial
  | ioCancelIrp irp =>
    obtain rfl := Option.some.inj h
    exact iff_of_true ⟨hs.once, hs.own, hs.touched, hs.wasted⟩ trivial
  | cancelReadRoutine irp =>
    obtain ⟨⟨-, hrun⟩, heq⟩ := Option.ite_none_right_eq_some.mp h
    obtain rfl := Option.some.inj heq
    have hmem : irp ∈ s.queue irp.port := by
      by_contra hout
      exact (hinv.idle irp hout).2 hrun
    exact iff_of_true ((cancelReadRoutine_finished hmem hrun).kept hs) trivial
  | readIrpCompletion d fill =>
    obtain ⟨-, heq⟩ := Option.ite_none_right_eq_some.mp h
    obtain rfl := Option.some.inj heq
    simp only [Op.Undisturbed, readIrpCompletion]
    cases hq : s.queue (d, .data) with
    | nil => simpa using hs
    | cons irp rest =>
      have hmem : irp ∈ s.queue (d, .data) := hq ▸ List.mem_cons_self
      have hport : irp.port = (d, .data) := hs.own _ irp (List.mem_append_left _ hmem)
      cases hc : fill.bCompleteIrp with
      | false => simpa using hs
      | true =>
        have hiff := completeIrp_kept_iff hs hinv (hinv.queued _ irp hmem) fill
        rw [hport] at hiff
        simpa [hmem] using hiff
  | getAdapterReadDataItemIrp d device =>
    obtain ⟨-, heq⟩ := Option.ite_none_right_eq_some.mp h
    obtain rfl := Option.some.inj heq
    exact iff_of_true (peeked_kept hs _) trivial
  | readIrpCompletionMux d fill =>
    simp only [step] at h
    cases hp : s.peeked d with
    | none => simp [hp] at h
    | some irp =>
      simp only [hp] at h
      obtain ⟨-, heq⟩ := Option.ite_none_right_eq_some.mp h
      obtain rfl := Option.some.inj heq
      simp only [Op.Undisturbed, readIrpCompletionMux, hp]
      cases hc : fill.bCompleteIrp with
      | false => simpa using peeked_kept hs _
      | true =>
        have hiff := completeIrp_kept_iff (peeked_kept hs _) (letGo_inv hinv d)
          (hinv.peeked d irp hp) fill
        simpa using hiff
  | getEncapsulatedResponse d response =>
    obtain rfl := Option.some.inj h
    simp only [Op.Undisturbed]
    cases hq : s.queue (d, .control) with
    | nil => simpa [getEncapsulatedResponse, hq] using hs
    | cons irp rest =>
      have hmem : irp ∈ s.queue (d, .control) := hq ▸ List.mem_cons_self
      have hport : irp.port = (d, .control) := hs.own _ irp (List.mem_append_left _ hmem)
      cases hinst : s.io.installed irp with
      | true =>
        exact iff_of_true ((getEncapsulatedResponse_finished hq hport hinst response).kept hs)
          (by simpa using hinst)
      | false =>
        exact iff_of_false (getEncapsulatedResponse_lost hs hinv hq hinst response)
          (by simp [hinst])
  | purgeQueue p =>
    obtain ⟨-, heq⟩ := Option.ite_none_right_eq_some.mp h
    obtain rfl := Option.some.inj heq
    exact purgeQueue_kept_iff hs hinv p
  | qcEmptyCompletionQueue p =>
    obtain ⟨-, heq⟩ := Option.ite_none_right_eq_some.mp h
    obtain rfl := Option.some.inj heq
    exact iff_of_true (qcEmptyCompletionQueue_kept hs p) trivial

/-- A step that disturbs no cancellation keeps the invariant. -/
theorem step_inv (hs : s.Kept) (hinv : s.Inv) (hok : op.Undisturbed s) (h : step s op = some t) :
    t.Inv := by
  cases op with
  | enqueue irp =>
    obtain ⟨⟨-, hnew⟩, heq⟩ := Option.ite_none_right_eq_some.mp h
    obtain rfl := Option.some.inj heq
    exact enqueue_inv hs hinv hnew
  | ioCancelIrp irp =>
    obtain rfl := Option.some.inj h
    exact ioCancelIrp_inv hinv irp
  | cancelReadRoutine irp =>
    obtain ⟨⟨-, hrun⟩, heq⟩ := Option.ite_none_right_eq_some.mp h
    obtain rfl := Option.some.inj heq
    have hmem : irp ∈ s.queue irp.port := by
      by_contra hout
      exact (hinv.idle irp hout).2 hrun
    exact (cancelReadRoutine_finished hmem hrun).inv hmem hinv
  | readIrpCompletion d fill =>
    obtain ⟨-, heq⟩ := Option.ite_none_right_eq_some.mp h
    obtain rfl := Option.some.inj heq
    simp only [Op.Undisturbed] at hok
    unfold readIrpCompletion
    cases hq : s.queue (d, .data) with
    | nil => exact hinv
    | cons irp rest =>
      have hmem : irp ∈ s.queue (d, .data) := hq ▸ List.mem_cons_self
      have hport : irp.port = (d, .data) := hs.own _ irp (List.mem_append_left _ hmem)
      cases hc : fill.bCompleteIrp with
      | false => simpa [hc] using hinv
      | true =>
        have hinst : s.io.installed irp = true := hok hc irp (by simp [hq])
        have hmem' : irp ∈ s.queue irp.port := hport ▸ hmem
        simpa [hc] using (completeIrp_finished hmem' hinst fill).inv hmem' hinv
  | getAdapterReadDataItemIrp d device =>
    obtain ⟨-, heq⟩ := Option.ite_none_right_eq_some.mp h
    obtain rfl := Option.some.inj heq
    exact getAdapterReadDataItemIrp_inv hinv d device
  | readIrpCompletionMux d fill =>
    simp only [step] at h
    cases hp : s.peeked d with
    | none => simp [hp] at h
    | some irp =>
      simp only [hp] at h
      obtain ⟨-, heq⟩ := Option.ite_none_right_eq_some.mp h
      obtain rfl := Option.some.inj heq
      have hlet := letGo_inv hinv d
      unfold readIrpCompletionMux
      cases hc : fill.bCompleteIrp with
      | false => simpa [hc] using hlet
      | true =>
        obtain ⟨hmem, hinst⟩ := hok hc irp hp
        simpa [hc] using (completeIrp_finished (s := { s with
          peeked := Function.update s.peeked d none }) hmem hinst fill).inv hmem hlet
  | getEncapsulatedResponse d response =>
    obtain rfl := Option.some.inj h
    simp only [Op.Undisturbed] at hok
    cases hq : s.queue (d, .control) with
    | nil => simpa [getEncapsulatedResponse, hq] using hinv
    | cons irp rest =>
      have hmem : irp ∈ s.queue (d, .control) := hq ▸ List.mem_cons_self
      have hport : irp.port = (d, .control) := hs.own _ irp (List.mem_append_left _ hmem)
      have hinst : s.io.installed irp = true := hok irp (by simp [hq])
      exact (getEncapsulatedResponse_finished hq hport hinst response).inv (hport ▸ hmem) hinv
  | purgeQueue p =>
    obtain ⟨-, heq⟩ := Option.ite_none_right_eq_some.mp h
    obtain rfl := Option.some.inj heq
    exact purgeQueue_inv hs hinv hok
  | qcEmptyCompletionQueue p =>
    obtain ⟨-, heq⟩ := Option.ite_none_right_eq_some.mp h
    obtain rfl := Option.some.inj heq
    exact qcEmptyCompletionQueue_inv hs hinv p

end

/-- Every read is kept over a run, and completed once, exactly if no fill and no purge takes a
read off its queue that is in cancellation. -/
theorem reads_kept_iff (ops : List (Op D)) :
    (∀ s ∈ reads.visits State.initial ops, s.Kept) ↔
      ∀ p ∈ reads.fires State.initial ops, p.2.Undisturbed p.1 := by
  have hstep : ∀ s op s' (o : Unit), reads s op = some (s', o) → step s op = some (s' : State D) := by
    intro s op s' o h
    obtain ⟨t, ht, heq⟩ := Option.map_eq_some_iff.mp h
    obtain rfl : t = s' := congrArg Prod.fst heq
    exact ht
  have haux : ∀ s op s' (o : Unit), s.Inv → s.Kept → op.Undisturbed s →
      reads s op = some (s', o) → s'.Inv :=
    fun s op s' o hinv hs hok h => step_inv hs hinv hok (hstep s op s' o h)
  have hkept : ∀ s op s' (o : Unit), s.Inv → s.Kept → reads s op = some (s', o) →
      (s'.Kept ↔ op.Undisturbed s) :=
    fun s op s' o hinv hs h => step_kept_iff hs hinv (hstep s op s' o h)
  exact Machine.visits_all_iff_fires_of_ok haux hkept initial_inv initial_kept

/-- A data read is cancelled between the fill's peek and the lock, and a packet goes with it while
another read waits. -/
theorem reads_lost :
    ∃ s ∈ reads.visits State.initial
        [.enqueue ⟨0, 0, .data, 1500⟩, .enqueue ⟨1, 0, .data, 1500⟩,
          .ioCancelIrp (⟨0, 0, .data, 1500⟩ : Irp Nat),
          .readIrpCompletion 0 ⟨true, ⟨.success, 1⟩, some [0x45]⟩,
          .cancelReadRoutine ⟨0, 0, .data, 1500⟩],
      ∃ irp ∈ s.accepted, s.places irp = 0 ∧ s.io.running = [] ∧ s.wasted ≠ [] := by
  decide +kernel

end Transport.ReadCancel
