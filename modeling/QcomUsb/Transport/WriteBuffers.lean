-- SUMMARY: Write buffers and sent records: each transfer with USB or on its way back has one record that waits for it.
import QcomUsb.Transport.WriteThread

/-!
# Write buffers and sent records

A buffer is on one of its queues. While its transfer is with USB or on its way back, one sent
record has not returned, and that record names the buffer and its write. A record that has
returned under flow off stays, and its buffer may be sent again in front of it.
-/

namespace Transport.Mwt

open Transition

namespace State

/-- The buffer that is de-queued and not with USB yet. -/
def handBuf (s : State) : Option Nat :=
  match s.phase with
  | .send b _ => some b
  | _ => none

/-- The write that is de-queued and not attached to its buffer yet. -/
def hand (s : State) : Option Irp :=
  match s.phase with
  | .send _ irp => irp
  | _ => none

/-- The buffers with USB or on their way back, and the one in hand. -/
def busy (s : State) : List Nat := s.mWritePendingQueue ++ s.mWriteCompletionQueue

/-- The buffers and their records agree. -/
structure Tracked (s : State) : Prop where
  nodup : (s.mWriteIdleQueue ++ s.busy).Nodup
  idle : ∀ b ∈ s.mWriteIdleQueue, (s.pMwtBuffer b).callingIrp = none
  pending : ∀ b ∈ s.mWritePendingQueue, (s.pMwtBuffer b).state = .pending
  hand : ∀ b, s.handBuf = some b → b ∈ s.mWritePendingQueue ∧ (s.pMwtBuffer b).callingIrp = none
  processing : ∀ b, s.phase = .process b → s.mWriteCompletionQueue.head? = some b
  /-- Of two records of one buffer the earlier has returned. -/
  later : s.mwtSentIrpQueue.Pairwise fun r r' => r.mwtBuf = r'.mwtBuf → r.irpReturned = true
  outstanding : ∀ b ∈ s.busy, s.handBuf ≠ some b →
    ∃ r ∈ s.mwtSentIrpQueue, r.mwtBuf = b ∧ r.irpReturned = false
  record : ∀ r ∈ s.mwtSentIrpQueue, r.irpReturned = false →
    r.mwtBuf ∈ s.busy ∧ s.handBuf ≠ some r.mwtBuf ∧
      r.sentIrp = (s.pMwtBuffer r.mwtBuf).callingIrp

/-! ## The records of one buffer -/

section

variable {records before after : List SentIrp} {r : SentIrp} {b : Nat}

/-- The record of a buffer that has not returned is its last one, and the others have returned. -/
theorem records_split
    (hlater : records.Pairwise fun r r' => r.mwtBuf = r'.mwtBuf → r.irpReturned = true)
    (hr : r ∈ records) (hbuf : r.mwtBuf = b) (hret : r.irpReturned = false) :
    ∃ before after, records = before ++ r :: after ∧
      (∀ x ∈ before, x.mwtBuf = b → x.irpReturned = true) ∧ ∀ x ∈ after, x.mwtBuf ≠ b := by
  obtain ⟨before, after, rfl⟩ := List.append_of_mem hr
  obtain ⟨-, htail, hcross⟩ := List.pairwise_append.mp hlater
  refine ⟨before, after, rfl, fun x hx hb => ?_, fun x hx hb => ?_⟩
  · exact hcross x hx r List.mem_cons_self (hb.trans hbuf.symm)
  · have hreturned := (List.pairwise_cons.mp htail).1 x hx (hbuf.trans hb.symm)
    simp [hret] at hreturned

theorem markReturned_split (hbefore : ∀ x ∈ before, x.mwtBuf = b → x.irpReturned = true)
    (hbuf : r.mwtBuf = b) (hafter : ∀ x ∈ after, x.mwtBuf ≠ b) :
    markReturned (before ++ r :: after) b =
      before ++ { r with irpReturned := true } :: after := by
  have hleft : ∀ x ∈ before,
      (if x.mwtBuf = b then { x with irpReturned := true } else x) = x := by
    intro x hx
    split
    · rename_i hb
      rw [← hbefore x hx hb]
    · rfl
  have hright : ∀ x ∈ after,
      (if x.mwtBuf = b then { x with irpReturned := true } else x) = x :=
    fun x hx => if_neg (hafter x hx)
  simp only [markReturned, List.map_append, List.map_cons, if_pos hbuf]
  rw [List.map_congr_left hleft, List.map_congr_left hright, List.map_id', List.map_id']

theorem removeReturned_split (hbuf : r.mwtBuf = b) (hafter : ∀ x ∈ after, x.mwtBuf ≠ b) :
    removeReturned (before ++ r :: after) b = before ++ after := by
  have hnone : ∀ x ∈ after.reverse, ¬ (x.mwtBuf == b) = true := by simpa using hafter
  have hrev : (before ++ r :: after).reverse = after.reverse ++ r :: before.reverse := by simp
  rw [removeReturned, hrev, List.eraseP_append_right _ hnone, List.eraseP_cons_of_pos (by simpa)]
  simp

theorem allReturned_split (hbefore : ∀ x ∈ before, x.mwtBuf = b → x.irpReturned = true)
    (hbuf : r.mwtBuf = b) (hafter : ∀ x ∈ after, x.mwtBuf ≠ b) :
    allReturned (before ++ r :: after) b = true ↔ ∀ x ∈ before ++ after, x.irpReturned = true := by
  simp only [allReturned, List.all_eq_true, List.mem_append, List.mem_cons, Bool.or_eq_true,
    beq_iff_eq]
  constructor
  · rintro h x (hx | hx)
    · rcases h x (.inl hx) with hb | hret
      · exact hbefore x hx hb
      · exact hret
    · exact (h x (.inr (.inr hx))).resolve_left (hafter x hx)
  · rintro h x (hx | rfl | hx)
    · exact .inr (h x (.inl hx))
    · exact .inl hbuf
    · exact .inr (h x (.inr hx))

end

variable {cfg : Cfg} {s t : State} {b : Nat}

/-- What a completed buffer's record is among. -/
structure Split (s : State) (b : Nat) (before : List SentIrp) (r : SentIrp)
    (after : List SentIrp) : Prop where
  records : s.mwtSentIrpQueue = before ++ r :: after
  buf : r.mwtBuf = b
  notReturned : r.irpReturned = false
  sentIrp : r.sentIrp = (s.pMwtBuffer b).callingIrp
  before : ∀ x ∈ before, x.mwtBuf = b → x.irpReturned = true
  after : ∀ x ∈ after, x.mwtBuf ≠ b

theorem Tracked.split (hs : s.Tracked) (hb : b ∈ s.busy) (hhand : s.handBuf ≠ some b) :
    ∃ before r after, s.Split b before r after := by
  obtain ⟨r, hr, hbuf, hret⟩ := hs.outstanding b hb hhand
  obtain ⟨before, after, hrecords, hbefore, hafter⟩ := records_split hs.later hr hbuf hret
  have hsent := (hs.record r hr hret).2.2
  exact ⟨before, r, after, hrecords, hbuf, hret, hbuf ▸ hsent, hbefore, hafter⟩

/-! ## What becomes of a completed write -/

/-- The status that a completed buffer counts with. -/
def statusOf (s : State) (b : Nat) : NtStatus :=
  if s.presentAndStarted then (s.pMwtBuffer b).status else .cancelled

variable {before after : List SentIrp} {r : SentIrp}

theorem Split.marked (h : s.Split b before r after) :
    markReturned s.mwtSentIrpQueue b = before ++ { r with irpReturned := true } :: after := by
  rw [h.records, markReturned_split h.before h.buf h.after]

theorem Split.any (h : s.Split b before r after) :
    ((markReturned s.mwtSentIrpQueue b).any fun r => r.mwtBuf == b) = true := by
  simp [h.marked, h.buf]

theorem Split.removed (h : s.Split b before r after) :
    removeReturned (markReturned s.mwtSentIrpQueue b) b = before ++ after := by
  rw [h.marked]
  exact removeReturned_split h.buf h.after

theorem Split.allReturned_iff (h : s.Split b before r after) :
    allReturned s.mwtSentIrpQueue b = true ↔ ∀ x ∈ before ++ after, x.irpReturned = true := by
  rw [h.records]
  exact allReturned_split h.before h.buf h.after

/-- Outside FLOW_OFF the record goes, and the write is completed. -/
theorem Split.returnWrite_working (h : s.Split b before r after) (hstate : s.mwtState ≠ .flowOff) :
    s.returnWrite cfg b =
      { s with
        mwtSentIrpQueue := before ++ after
        mwtSentIrpRecordPool := s.mwtSentIrpRecordPool + 1 }.writeIrpCompletion cfg b
          (s.statusOf b) := by
  simp only [returnWrite, if_neg hstate, markAndCheckReturnedIrp, h.any, h.removed, statusOf,
    Bool.true_or, Bool.and_self, if_true]

/-- Under FLOW_OFF a write that was sent is completed, and when all are back the records go back to
the data queue. -/
theorem Split.returnWrite_success (h : s.Split b before r after) (hstate : s.mwtState = .flowOff)
    (hstatus : s.statusOf b = .success) :
    s.returnWrite cfg b =
      let u :=
        { s with
          mwtSentIrpQueue := before ++ after
          mwtSentIrpRecordPool := s.mwtSentIrpRecordPool + 1 }.writeIrpCompletion cfg b .success
      if allReturned s.mwtSentIrpQueue b then u.requeue else u := by
  have hstatus : (if s.presentAndStarted then (s.pMwtBuffer b).status else .cancelled) =
      NtStatus.success := hstatus
  simp only [returnWrite, if_pos hstate, markAndCheckReturnedIrp, h.any, h.removed, hstatus,
    Bool.false_or, BEq.rfl, Bool.and_self, if_true, Bool.false_eq_true, if_false]

/-- Under FLOW_OFF a write that was not sent keeps its record. -/
theorem Split.returnWrite_failed (h : s.Split b before r after) (hstate : s.mwtState = .flowOff)
    (hstatus : s.statusOf b ≠ .success) :
    s.returnWrite cfg b =
      let u := { s with mwtSentIrpQueue := before ++ { r with irpReturned := true } :: after }
      if allReturned s.mwtSentIrpQueue b then u.requeue else u := by
  have hstatus : ((if s.presentAndStarted then (s.pMwtBuffer b).status else .cancelled) ==
      NtStatus.success) = false := beq_false_of_ne hstatus
  simp only [returnWrite, if_pos hstate, markAndCheckReturnedIrp, h.marked, hstatus,
    Bool.or_self, Bool.and_false, Bool.false_eq_true, if_false]

/-! ## Steps that leave the buffers alone -/

/-- The buffers, their queues and the records are the same. -/
structure SameBuffers (s t : State) : Prop where
  idle : t.mWriteIdleQueue = s.mWriteIdleQueue
  pending : t.mWritePendingQueue = s.mWritePendingQueue
  completion : t.mWriteCompletionQueue = s.mWriteCompletionQueue
  pMwtBuffer : t.pMwtBuffer = s.pMwtBuffer
  records : t.mwtSentIrpQueue = s.mwtSentIrpQueue

/-- The writes, their queues and what USB took are the same, too. -/
structure SameWrites (s t : State) : Prop extends SameBuffers s t where
  pool : t.mwtSentIrpRecordPool = s.mwtSentIrpRecordPool
  writeDataQueue : t.writeDataQueue = s.writeDataQueue
  wtCompletionQueue : t.wtCompletionQueue = s.wtCompletionQueue
  information : t.information = s.information
  status : t.status = s.status
  io : t.io = s.io
  submitted : t.submitted = s.submitted
  accepted : t.accepted = s.accepted
  completed : t.completed = s.completed
  taken : t.taken = s.taken
  wild : t.wild = s.wild

theorem SameBuffers.refl (s : State) : s.SameBuffers s := ⟨rfl, rfl, rfl, rfl, rfl⟩

theorem SameBuffers.trans {u : State} (h : s.SameBuffers t) (h' : t.SameBuffers u) :
    s.SameBuffers u where
  idle := h'.idle.trans h.idle
  pending := h'.pending.trans h.pending
  completion := h'.completion.trans h.completion
  pMwtBuffer := h'.pMwtBuffer.trans h.pMwtBuffer
  records := h'.records.trans h.records

theorem SameThread.sameBuffers (h : s.SameThread t) : s.SameBuffers t :=
  ⟨h.idle, h.pending, h.completion, h.pMwtBuffer, h.records⟩

theorem sameWrites_goTo (s : State) (phase : Phase) : s.SameWrites (s.goTo phase) :=
  ⟨⟨rfl, rfl, rfl, rfl, rfl⟩, rfl, rfl, rfl, rfl, rfl, rfl, rfl, rfl, rfl, rfl, rfl⟩

variable (cfg) in
theorem sameBuffers_countError (s : State) (status : NtStatus) :
    s.SameBuffers (s.countError cfg status) := by
  unfold countError
  split
  · exact ⟨rfl, rfl, rfl, rfl, rfl⟩
  · split <;> exact ⟨rfl, rfl, rfl, rfl, rfl⟩

variable (cfg) in
theorem sameBuffers_writeIrpCompletion (s : State) (b : Nat) (status : NtStatus) :
    s.SameBuffers (s.writeIrpCompletion cfg b status) := by
  have hcount := s.sameBuffers_countError cfg status
  simp only [writeIrpCompletion]
  split
  · exact hcount
  · split
    · exact hcount.trans ⟨rfl, rfl, rfl, rfl, rfl⟩
    · exact hcount

theorem sameBuffers_partialTransfer (s : State) (b : Nat) :
    s.SameBuffers (s.partialTransfer b) := by
  simp only [partialTransfer]
  split
  · exact .refl s
  · split
    · exact ⟨rfl, rfl, rfl, rfl, rfl⟩
    · exact .refl s

variable (cfg) in
/-- The events change the control state only. -/
theorem sameWrites_consume (s : State) (event : Event) : s.SameWrites (s.consume cfg event) := by
  cases event with
  | completion =>
    simp only [consume]
    split
    · exact sameWrites_goTo s .loopHead
    · exact sameWrites_goTo s _
  | cancelCurrent | kick | resume stopped | flowOn stopped =>
    exact ⟨⟨rfl, rfl, rfl, rfl, rfl⟩, rfl, rfl, rfl, rfl, rfl, rfl, rfl, rfl, rfl, rfl, rfl⟩
  | cancel | purge | stop | flowOff =>
    simp only [consume]
    split <;>
      exact ⟨⟨rfl, rfl, rfl, rfl, rfl⟩, rfl, rfl, rfl, rfl, rfl, rfl, rfl, rfl, rfl, rfl, rfl⟩

variable (cfg) in
theorem sameWrites_waitForCompletion (s : State) (event : Event) :
    s.SameWrites (s.waitForCompletion cfg event) := by
  unfold waitForCompletion
  split
  · exact sameWrites_goTo s .exited
  · exact s.sameWrites_consume cfg event

theorem sameWrites_afterCompletion (s : State) : s.SameWrites s.afterCompletion := by
  have hdrained : s.SameWrites (s.endOfDrain.goTo .loopHead) := by
    unfold endOfDrain
    split <;>
      exact ⟨⟨rfl, rfl, rfl, rfl, rfl⟩, rfl, rfl, rfl, rfl, rfl, rfl, rfl, rfl, rfl, rfl, rfl⟩
  unfold afterCompletion
  split
  · exact ⟨⟨rfl, rfl, rfl, rfl, rfl⟩, rfl, rfl, rfl, rfl, rfl, rfl, rfl, rfl, rfl, rfl, rfl⟩
  · split
    · split
      · exact sameWrites_goTo s .wait
      · exact hdrained
    · exact sameWrites_goTo s .loopHead

variable (cfg) in
/-- Where the thread is behind an event. -/
theorem consume_phase (s : State) (event : Event) :
    (s.consume cfg event).handBuf = none ∧
      ∀ b, (s.consume cfg event).phase = .process b → s.mWriteCompletionQueue.head? = some b := by
  cases event with
  | completion =>
    simp only [consume]
    split <;> rename_i h <;> simp [h, goTo, handBuf]
  | cancelCurrent | kick | resume stopped | flowOn stopped => simp [consume, goTo, handBuf]
  | cancel | purge | stop | flowOff =>
    simp only [consume]
    split <;> simp [goTo, handBuf, drain]

theorem afterCompletion_phase (s : State) :
    s.afterCompletion.phase = .loopHead ∨ s.afterCompletion.phase = .wait := by
  unfold afterCompletion
  split
  · exact .inl rfl
  · split
    · split
      · exact .inr rfl
      · exact .inl rfl
    · exact .inl rfl

theorem loopHead_phase (s : State) :
    s.loopHead.phase = .wait ∨ s.loopHead.phase = .dequeue := by
  unfold loopHead
  split
  · exact .inl rfl
  · split
    · exact .inl rfl
    · split
      · exact .inl rfl
      · exact .inr rfl

theorem sameBuffers_loopHead (s : State) : s.SameBuffers s.loopHead := by
  unfold loopHead
  split
  · exact s.sameThread_purgeQueue.sameBuffers.trans ⟨rfl, rfl, rfl, rfl, rfl⟩
  · split
    · exact ⟨rfl, rfl, rfl, rfl, rfl⟩
    · split <;> exact ⟨rfl, rfl, rfl, rfl, rfl⟩

/-- The head of the idle buffers is put with the pending ones. -/
def takeBuffer (s : State) (b : Nat) (idle : List Nat) : State :=
  { s with
    mWriteIdleQueue := idle
    pMwtBuffer := Function.update s.pMwtBuffer b { s.pMwtBuffer b with state := .pending }
    mWritePendingQueue := s.mWritePendingQueue ++ [b] }

/-- A turn of the inner loop goes to wait, or takes a buffer for a zero-length packet or the next
write. -/
theorem dequeue_cases (s : State) (wakeup : Bool) :
    s.dequeue wakeup = s.goTo .wait ∨
    s.bCancelled = true ∧ s.dequeue wakeup = s.purgeQueue.goTo .wait ∨
    ∃ b idle, s.mWriteIdleQueue = b :: idle ∧
      ((s.bSendZeroLength = true ∧
          s.dequeue wakeup = (s.takeBuffer b idle).goTo (.send b none)) ∨
        ∃ irp rest, s.bSendZeroLength = false ∧ s.writeDataQueue = irp :: rest ∧
          s.dequeue wakeup =
            { s.takeBuffer b idle with writeDataQueue := rest }.goTo (.send b (some irp))) := by
  unfold dequeue
  split
  · exact .inl rfl
  · rename_i hwork
    split
    · exact .inl rfl
    · rename_i b idle hidle
      split
      · exact .inl rfl
      · split
        · exact .inr (.inl ⟨‹_›, rfl⟩)
        · split
          · exact .inl rfl
          · refine .inr (.inr ⟨b, idle, hidle, ?_⟩)
            rcases eq_or_ne s.bSendZeroLength true with hzero | hdata
            · exact .inl ⟨hzero, if_pos hzero⟩
            · have hzero : s.bSendZeroLength = false := by simpa using hdata
              obtain ⟨irp, rest, hqueue⟩ : ∃ irp rest, s.writeDataQueue = irp :: rest :=
                List.exists_cons_of_ne_nil fun hnil => hwork ⟨hnil, hzero⟩
              refine .inr ⟨irp, rest, hzero, hqueue, (if_neg hdata).trans ?_⟩
              simp only [hqueue]
              rfl

/-! ## The buffers stay tracked -/

theorem initial_tracked (cfg : Cfg) : (initial cfg).Tracked where
  nodup := by simpa [initial, busy] using List.nodup_range
  idle := fun _ _ => rfl
  pending := by simp [initial]
  hand := by simp [initial, handBuf]
  processing := by simp [initial]
  later := List.Pairwise.nil
  outstanding := by simp [initial, busy]
  record := by simp [initial]

theorem Tracked.of_same (hs : s.Tracked) (h : s.SameBuffers t) (hhand : t.handBuf = s.handBuf)
    (hprocessing : ∀ b, t.phase = .process b → t.mWriteCompletionQueue.head? = some b) :
    t.Tracked where
  nodup := by simpa only [busy, h.idle, h.pending, h.completion] using hs.nodup
  idle := by simpa only [h.idle, h.pMwtBuffer] using hs.idle
  pending := by simpa only [h.pending, h.pMwtBuffer] using hs.pending
  hand := by simpa only [hhand, h.pending, h.pMwtBuffer] using hs.hand
  processing := hprocessing
  later := by simpa only [h.records] using hs.later
  outstanding := by
    simpa only [busy, hhand, h.pending, h.completion, h.records] using hs.outstanding
  record := by
    simpa only [busy, hhand, h.pending, h.completion, h.records, h.pMwtBuffer] using hs.record

/-- A buffer is on one of its queues. -/
theorem Tracked.not_mem_completion (hs : s.Tracked) (hb : b ∈ s.mWritePendingQueue) :
    b ∉ s.mWriteCompletionQueue := by
  obtain ⟨-, hbusy, -⟩ := List.nodup_append.mp hs.nodup
  obtain ⟨-, -, hne⟩ := List.nodup_append.mp hbusy
  exact fun hmem => hne b hb b hmem rfl

theorem Tracked.nodup_pending (hs : s.Tracked) : s.mWritePendingQueue.Nodup := by
  obtain ⟨-, hbusy, -⟩ := List.nodup_append.mp hs.nodup
  exact (List.nodup_append.mp hbusy).1

theorem Tracked.nodup_completion (hs : s.Tracked) : s.mWriteCompletionQueue.Nodup := by
  obtain ⟨-, hbusy, -⟩ := List.nodup_append.mp hs.nodup
  exact (List.nodup_append.mp hbusy).2.1

theorem atUsb_iff : s.atUsb b = true ↔ b ∈ s.mWritePendingQueue ∧ s.handBuf ≠ some b := by
  unfold atUsb handBuf
  rw [Bool.and_eq_true, decide_eq_true_eq]
  refine and_congr_right fun _ => ?_
  cases s.phase with
  | send c irp => simp [@eq_comm _ b c]
  | loopHead | dequeue | wait | process c | exited => simp

/-- What USB completes moves from the pending to the completed buffers. -/
theorem busy_writeCompletionRoutine (hb : b ∈ s.mWritePendingQueue) (transferred : Nat)
    (status : NtStatus) : (s.writeCompletionRoutine b transferred status).busy.Perm s.busy := by
  have hperm : (s.mWritePendingQueue.erase b ++ [b]).Perm s.mWritePendingQueue :=
    List.perm_append_singleton b _ |>.trans (List.perm_cons_erase hb).symm
  have hassoc : (s.mWritePendingQueue.erase b ++ [b] ++ s.mWriteCompletionQueue).Perm s.busy :=
    hperm.append_right _
  refine List.Perm.trans ?_ hassoc
  rw [List.append_assoc]
  exact List.Perm.append_left _ (List.perm_append_singleton b _)

theorem callingIrp_writeCompletionRoutine (s : State) (b transferred : Nat) (status : NtStatus)
    (c : Nat) : ((s.writeCompletionRoutine b transferred status).pMwtBuffer c).callingIrp =
      (s.pMwtBuffer c).callingIrp := by
  rcases eq_or_ne c b with rfl | hne
  · simp [State.writeCompletionRoutine]
  · simp [State.writeCompletionRoutine, hne]

theorem callingIrp_takeBuffer (s : State) (b : Nat) (idle : List Nat) (c : Nat) :
    ((s.takeBuffer b idle).pMwtBuffer c).callingIrp = (s.pMwtBuffer c).callingIrp := by
  rcases eq_or_ne c b with rfl | hne <;> simp [takeBuffer, *]

theorem Tracked.writeCompletionRoutine (hs : s.Tracked) (hat : s.atUsb b) (transferred : Nat)
    (status : NtStatus) : (s.writeCompletionRoutine b transferred status).Tracked := by
  obtain ⟨hb, hphase⟩ := atUsb_iff.mp hat
  have hbusy := busy_writeCompletionRoutine hb transferred status
  have hcalling := callingIrp_writeCompletionRoutine s b transferred status
  exact {
    nodup := (hbusy.append_left s.mWriteIdleQueue).nodup_iff.mpr hs.nodup
    idle := fun c hc => (hcalling c).trans (hs.idle c hc)
    pending := fun c hc => by
      have hne : c ≠ b := by
        rintro rfl
        exact (hs.nodup_pending.not_mem_erase) hc
      have hsame : (s.writeCompletionRoutine b transferred status).pMwtBuffer c = s.pMwtBuffer c :=
        Function.update_of_ne hne ..
      exact hsame ▸ hs.pending c (List.mem_of_mem_erase hc)
    hand := fun c hc => by
      obtain ⟨hmem, hnone⟩ := hs.hand c hc
      have hne : c ≠ b := fun heq => hphase (heq ▸ hc)
      exact ⟨(List.mem_erase_of_ne hne).mpr hmem, (hcalling c).trans hnone⟩
    processing := fun c hc => by
      have hhead := hs.processing c hc
      simp [State.writeCompletionRoutine, hhead]
    later := hs.later
    outstanding := fun c hc hhand => hs.outstanding c (hbusy.mem_iff.mp hc) hhand
    record := fun r hr hret => by
      obtain ⟨hmem, hhand, hsent⟩ := hs.record r hr hret
      exact ⟨hbusy.mem_iff.mpr hmem, hhand, hsent.trans (hcalling _).symm⟩ }

/-- A buffer is taken, and in hand. -/
theorem Tracked.take (hs : s.Tracked) {idle : List Nat} (hidle : s.mWriteIdleQueue = b :: idle)
    (hhand : s.handBuf = none) (h : (s.takeBuffer b idle).SameBuffers t) {irp : Option Irp}
    (hphase : t.phase = .send b irp) : t.Tracked := by
  have hnew : b ∉ s.busy := by
    have hnodup := hs.nodup
    rw [hidle] at hnodup
    exact fun hmem => (List.nodup_cons.mp hnodup).1 (List.mem_append_right _ hmem)
  have hpend : t.mWritePendingQueue = s.mWritePendingQueue ++ [b] := h.pending
  have hcompl : t.mWriteCompletionQueue = s.mWriteCompletionQueue := h.completion
  have hbuf : t.pMwtBuffer =
      Function.update s.pMwtBuffer b { s.pMwtBuffer b with state := .pending } := h.pMwtBuffer
  have hrec : t.mwtSentIrpQueue = s.mwtSentIrpQueue := h.records
  have hcalling : ∀ c, (t.pMwtBuffer c).callingIrp = (s.pMwtBuffer c).callingIrp := fun c =>
    h.pMwtBuffer ▸ callingIrp_takeBuffer s b idle c
  have hbusy : t.busy.Perm (b :: s.busy) := by
    rw [busy, hpend, hcompl, List.append_assoc]
    exact List.perm_middle
  have hin : t.handBuf = some b := by simp [handBuf, hphase]
  exact {
    nodup := by
      have hidle' : t.mWriteIdleQueue = idle := h.idle
      rw [hidle']
      have hperm : (idle ++ t.busy).Perm (b :: (idle ++ s.busy)) :=
        (hbusy.append_left idle).trans List.perm_middle
      have hnodup := hs.nodup
      rw [hidle] at hnodup
      exact hperm.nodup_iff.mpr hnodup
    idle := fun c hc => by
      have hidle' : t.mWriteIdleQueue = idle := h.idle
      have hc' : c ∈ idle := hidle' ▸ hc
      exact (hcalling c).trans (hs.idle c (hidle ▸ List.mem_cons_of_mem b hc'))
    pending := fun c hc => by
      rw [hpend] at hc
      rw [hbuf]
      rcases eq_or_ne c b with rfl | hne
      · simp
      · have hold : c ∈ s.mWritePendingQueue := by simpa [hne] using hc
        rw [Function.update_of_ne hne]
        exact hs.pending c hold
    hand := fun c hc => by
      obtain rfl : b = c := Option.some.inj (hin.symm.trans hc)
      exact ⟨by simp [hpend], (hcalling b).trans (hs.idle b (by simp [hidle]))⟩
    processing := fun c hc => by simp [hphase] at hc
    later := hrec ▸ hs.later
    outstanding := fun c hc hne => by
      rw [hrec]
      rcases List.mem_cons.mp (hbusy.mem_iff.mp hc) with rfl | hold
      · exact absurd hin hne
      · exact hs.outstanding c hold (by simp [hhand])
    record := fun r hr hret => by
      obtain ⟨hmem, -, hsent⟩ := hs.record r (hrec ▸ hr) hret
      refine ⟨hbusy.mem_iff.mpr (List.mem_cons_of_mem b hmem), ?_, hsent.trans (hcalling _).symm⟩
      rw [hin]
      exact fun heq => hnew (Option.some.inj heq ▸ hmem) }

variable (cfg) in
/-- The record of what is sent comes last, and those of its buffer have returned. -/
theorem Tracked.send (hs : s.Tracked) {irp : Option Irp} (hphase : s.phase = .send b irp) :
    (s.send cfg b irp).Tracked := by
  have hin : s.handBuf = some b := by simp [handBuf, hphase]
  obtain ⟨hpend, -⟩ := hs.hand b hin
  unfold State.send
  split
  · exact hs.of_same ⟨rfl, rfl, rfl, rfl, rfl⟩ rfl hs.processing
  · have hother : ∀ c, c ≠ b → ∀ buf : Buffer, Function.update s.pMwtBuffer b buf c = s.pMwtBuffer c :=
      fun c hne buf => Function.update_of_ne hne ..
    exact {
      nodup := hs.nodup
      idle := fun c hc => by
        have hne : c ≠ b := by
          rintro rfl
          obtain ⟨-, -, hdisj⟩ := List.nodup_append.mp hs.nodup
          exact hdisj c hc c (List.mem_append_left _ hpend) rfl
        dsimp only
        rw [hother c hne]
        exact hs.idle c hc
      pending := fun c hc => by
        rcases eq_or_ne c b with rfl | hne
        · simpa using hs.pending c hc
        · dsimp only
          rw [hother c hne]
          exact hs.pending c hc
      hand := by simp [handBuf]
      processing := by simp
      later := by
        refine List.pairwise_append.mpr ⟨hs.later, by simp, fun r hr r' hr' hsame => ?_⟩
        obtain rfl := List.mem_singleton.mp hr'
        by_contra hret
        have hne := (hs.record r hr (by simpa using hret)).2.1
        exact hne (hin.trans (congrArg some hsame.symm))
      outstanding := fun c hc _ => by
        rcases eq_or_ne c b with rfl | hne
        · exact ⟨_, List.mem_append_right _ (List.mem_singleton_self _), rfl, rfl⟩
        · obtain ⟨r, hr, hbuf, hret⟩ := hs.outstanding c hc (by simp [hin, hne.symm])
          exact ⟨r, List.mem_append_left _ hr, hbuf, hret⟩
      record := fun r hr hret => by
        rcases List.mem_append.mp hr with hr | hr
        · obtain ⟨hmem, hhand, hsent⟩ := hs.record r hr hret
          have hne : r.mwtBuf ≠ b := fun heq => hhand (by rw [hin, heq])
          exact ⟨hmem, by simp [handBuf], by dsimp only; rw [hother _ hne]; exact hsent⟩
        · obtain rfl := List.mem_singleton.mp hr
          exact ⟨List.mem_append_left _ hpend, by simp [handBuf], by simp⟩ }

/-- The records that have not returned are those from before, but for the completed buffer's. -/
structure Returned (s t : State) (b : Nat) : Prop where
  idle : t.mWriteIdleQueue = s.mWriteIdleQueue
  pending : t.mWritePendingQueue = s.mWritePendingQueue
  completion : t.mWriteCompletionQueue = s.mWriteCompletionQueue
  pMwtBuffer : t.pMwtBuffer = s.pMwtBuffer
  handBuf : t.handBuf = s.handBuf
  later : t.mwtSentIrpQueue.Pairwise fun r r' => r.mwtBuf = r'.mwtBuf → r.irpReturned = true
  record : ∀ r, r ∈ t.mwtSentIrpQueue ∧ r.irpReturned = false ↔
    r ∈ s.mwtSentIrpQueue ∧ r.irpReturned = false ∧ r.mwtBuf ≠ b

theorem handBuf_congr (h : t.phase = s.phase) : t.handBuf = s.handBuf := by simp only [handBuf, h]

variable (cfg) in
/-- The record goes, or it has returned, or all go back. -/
theorem Split.returnWrite_records (h : s.Split b before r after) :
    (s.returnWrite cfg b).mwtSentIrpQueue = before ++ after ∨
    (s.returnWrite cfg b).mwtSentIrpQueue = before ++ { r with irpReturned := true } :: after ∨
    (s.returnWrite cfg b).mwtSentIrpQueue = [] ∧ ∀ x ∈ before ++ after, x.irpReturned = true := by
  have hcompleted : ∀ status, State.mwtSentIrpQueue
      ({ s with
        mwtSentIrpQueue := before ++ after
        mwtSentIrpRecordPool := s.mwtSentIrpRecordPool + 1 }.writeIrpCompletion cfg b status) =
      before ++ after := fun status => (sameBuffers_writeIrpCompletion cfg _ b status).records
  rcases eq_or_ne s.mwtState .flowOff with hstate | hstate
  · rcases eq_or_ne (s.statusOf b) .success with hstatus | hstatus
    · rw [h.returnWrite_success hstate hstatus]
      dsimp only
      split
      · exact .inr (.inr ⟨rfl, h.allReturned_iff.mp ‹_›⟩)
      · exact .inl (hcompleted _)
    · rw [h.returnWrite_failed hstate hstatus]
      dsimp only
      split
      · exact .inr (.inr ⟨rfl, h.allReturned_iff.mp ‹_›⟩)
      · exact .inr (.inl rfl)
  · rw [h.returnWrite_working hstate]
    exact .inl (hcompleted _)

variable (cfg) in
/-- The buffers are not touched before the completed one is idle again. -/
theorem returnWrite_buffers (s : State) (b : Nat) :
    (s.returnWrite cfg b).mWriteIdleQueue = s.mWriteIdleQueue ∧
      (s.returnWrite cfg b).pMwtBuffer = s.pMwtBuffer := by
  have hmarked : ∀ removeIrp status,
      (s.markAndCheckReturnedIrp cfg b removeIrp status).mWriteIdleQueue = s.mWriteIdleQueue ∧
        (s.markAndCheckReturnedIrp cfg b removeIrp status).pMwtBuffer = s.pMwtBuffer := by
    intro removeIrp status
    simp only [markAndCheckReturnedIrp]
    split
    · split
      · exact ⟨rfl, rfl⟩
      · have hsame := sameBuffers_writeIrpCompletion cfg
          { s with
            mwtSentIrpQueue := removeReturned (markReturned s.mwtSentIrpQueue b) b
            mwtSentIrpRecordPool := s.mwtSentIrpRecordPool + 1 } b status
        exact ⟨hsame.idle, hsame.pMwtBuffer⟩
    · exact ⟨rfl, rfl⟩
  simp only [returnWrite]
  split
  · split
    · exact hmarked _ _
    · exact hmarked _ _
  · have hsame := sameBuffers_writeIrpCompletion cfg
      (s.markAndCheckReturnedIrp cfg b true
        (if s.presentAndStarted then (s.pMwtBuffer b).status else .cancelled)) b
      (if s.presentAndStarted then (s.pMwtBuffer b).status else .cancelled)
    exact ⟨hsame.idle.trans (hmarked _ _).1, hsame.pMwtBuffer.trans (hmarked _ _).2⟩

variable (cfg) in
theorem Tracked.returnWrite (hs : s.Tracked) (hb : b ∈ s.busy) (hhand : s.handBuf ≠ some b) :
    s.Returned (s.returnWrite cfg b) b := by
  obtain ⟨before, r, after, h⟩ := hs.split hb hhand
  have hsame := s.sameControl_returnWrite cfg b
  obtain ⟨hidle, hbuf⟩ := s.returnWrite_buffers cfg b
  have hlater := hs.later
  rw [h.records] at hlater
  obtain ⟨hbefore, htail, hcross⟩ := List.pairwise_append.mp hlater
  refine ⟨hidle, hsame.pending, hsame.completion, hbuf, handBuf_congr hsame.phase, ?_, fun x => ?_⟩
  · rcases h.returnWrite_records cfg with hq | hq | ⟨hq, -⟩
    · rw [hq]
      exact hlater.sublist (List.Sublist.append_left (List.sublist_cons_self r after) before)
    · rw [hq]
      refine List.pairwise_append.mpr ⟨hbefore, ?_, fun x hx y hy => ?_⟩
      · exact List.pairwise_cons.mpr ⟨fun _ _ _ => rfl, (List.pairwise_cons.mp htail).2⟩
      · rcases List.mem_cons.mp hy with rfl | hy
        · exact hcross x hx r List.mem_cons_self
        · exact hcross x hx y (List.mem_cons_of_mem r hy)
    · rw [hq]
      exact .nil
  · have hold : x ∈ s.mwtSentIrpQueue ∧ x.irpReturned = false ∧ x.mwtBuf ≠ b ↔
        x ∈ before ++ after ∧ x.irpReturned = false := by
      rw [h.records]
      simp only [List.mem_append, List.mem_cons]
      constructor
      · rintro ⟨hx | rfl | hx, hret, hne⟩
        · exact ⟨.inl hx, hret⟩
        · exact absurd h.buf hne
        · exact ⟨.inr hx, hret⟩
      · rintro ⟨hx | hx, hret⟩
        · refine ⟨.inl hx, hret, fun hxb => ?_⟩
          simp [h.before x hx hxb] at hret
        · exact ⟨.inr (.inr hx), hret, h.after x hx⟩
    rw [hold]
    rcases h.returnWrite_records cfg with hq | hq | ⟨hq, hall⟩
    · rw [hq]
    · rw [hq]
      simp only [List.mem_append, List.mem_cons]
      constructor
      · rintro ⟨hx | rfl | hx, hret⟩
        · exact ⟨.inl hx, hret⟩
        · cases hret
        · exact ⟨.inr hx, hret⟩
      · rintro ⟨hx | hx, hret⟩
        · exact ⟨.inl hx, hret⟩
        · exact ⟨.inr (.inr hx), hret⟩
    · rw [hq]
      simp only [List.not_mem_nil, false_and, false_iff]
      rintro ⟨hx, hret⟩
      simp [hall x hx] at hret

/-- The completed buffer is idle again. -/
theorem Tracked.recycle (hs : s.Tracked) (hb : b ∈ s.mWriteCompletionQueue)
    (hhand : s.handBuf = none) (hreturned : s.Returned t b) {u : State}
    (hu : (t.recycle b).SameBuffers u) (huhand : u.handBuf = none)
    (hprocessing : ∀ c, u.phase ≠ .process c) : u.Tracked := by
  have hidle : u.mWriteIdleQueue = s.mWriteIdleQueue ++ [b] := by
    rw [hu.idle, State.recycle, hreturned.idle]
  have hpend : u.mWritePendingQueue = s.mWritePendingQueue := hu.pending.trans hreturned.pending
  have hcompl : u.mWriteCompletionQueue = s.mWriteCompletionQueue.erase b := by
    rw [hu.completion, State.recycle, hreturned.completion]
  have hother : ∀ c, c ≠ b → u.pMwtBuffer c = s.pMwtBuffer c := by
    intro c hne
    rw [hu.pMwtBuffer, State.recycle, hreturned.pMwtBuffer]
    exact Function.update_of_ne hne ..
  have hpending : b ∉ s.mWritePendingQueue := fun hmem => hs.not_mem_completion hmem hb
  have hbusy : s.busy.Perm (b :: u.busy) := by
    rw [busy, busy, hpend, hcompl]
    exact ((List.perm_cons_erase hb).append_left _).trans List.perm_middle
  have hnew : b ∉ u.busy := by
    have hnodup := (List.nodup_append.mp hs.nodup).2.1
    exact (List.nodup_cons.mp (hbusy.nodup_iff.mp hnodup)).1
  exact {
    nodup := by
      rw [hidle, List.append_assoc]
      exact (hbusy.symm.append_left s.mWriteIdleQueue).nodup_iff.mpr hs.nodup
    idle := fun c hc => by
      rcases eq_or_ne c b with rfl | hne
      · simp [hu.pMwtBuffer, State.recycle]
      · rw [hother c hne]
        exact hs.idle c (by simpa [hidle, hne] using hc)
    pending := fun c hc => by
      have hmem : c ∈ s.mWritePendingQueue := hpend ▸ hc
      rw [hother c fun heq => hpending (heq ▸ hmem)]
      exact hs.pending c hmem
    hand := by simp [huhand]
    processing := fun c hc => absurd hc (hprocessing c)
    later := hu.records ▸ hreturned.later
    outstanding := fun c hc _ => by
      have hne : c ≠ b := fun heq => hnew (heq ▸ hc)
      have hmem : c ∈ s.busy := hbusy.mem_iff.mpr (List.mem_cons_of_mem b hc)
      obtain ⟨r, hr, hbuf, hret⟩ := hs.outstanding c hmem (by simp [hhand])
      obtain ⟨hr', -⟩ := (hreturned.record r).mpr ⟨hr, hret, fun heq => hne (hbuf ▸ heq)⟩
      exact ⟨r, by rw [hu.records]; exact hr', hbuf, hret⟩
    record := fun r hr hret => by
      rw [hu.records] at hr
      obtain ⟨hr, -, hne⟩ := (hreturned.record r).mp ⟨hr, hret⟩
      obtain ⟨hmem, -, hsent⟩ := hs.record r hr hret
      refine ⟨?_, by simp [huhand], by rw [hother _ hne]; exact hsent⟩
      exact (List.mem_cons.mp (hbusy.mem_iff.mp hmem)).resolve_left hne }

/-! ## Every step -/

variable (cfg) in
theorem Tracked.processCompletion (hs : s.Tracked) (hphase : s.phase = .process b) :
    (s.processCompletion cfg b).Tracked := by
  have hhand : s.handBuf = none := by simp [handBuf, hphase]
  have hb : b ∈ s.mWriteCompletionQueue := List.mem_of_mem_head? (hs.processing b hphase)
  have hpart := s.sameBuffers_partialTransfer b
  have hpartphase := (s.sameControl_partialTransfer b).phase
  have hs' : (s.partialTransfer b).Tracked :=
    hs.of_same hpart (handBuf_congr hpartphase) fun c hc => by
      rw [hpart.completion]
      exact hs.processing c (hpartphase ▸ hc)
  have hb' : b ∈ (s.partialTransfer b).mWriteCompletionQueue := by rwa [hpart.completion]
  have hhand' : (s.partialTransfer b).handBuf = none := (handBuf_congr hpartphase).trans hhand
  have hreturned := hs'.returnWrite cfg (List.mem_append_right _ hb') (by simp [hhand'])
  have hafter : (s.processCompletion cfg b).phase = .loopHead ∨
      (s.processCompletion cfg b).phase = .wait := afterCompletion_phase _
  refine hs'.recycle hb' hhand' hreturned (sameWrites_afterCompletion _).toSameBuffers ?_ ?_
  · rcases hafter with h | h <;> simp [handBuf, h]
  · rcases hafter with h | h <;> simp [h]

theorem threadStep_tracked (hs : s.Tracked) {wakeup : Bool} {event : Event}
    (h : threadStep cfg s wakeup event = some t) : t.Tracked := by
  cases hphase : s.phase with
  | loopHead =>
    simp only [threadStep, hphase, Option.some.injEq] at h
    subst h
    refine hs.of_same s.sameBuffers_loopHead ?_ ?_
    · rcases s.loopHead_phase with h | h <;> simp [handBuf, h, hphase]
    · rcases s.loopHead_phase with h | h <;> simp [h]
  | dequeue =>
    have hhand : s.handBuf = none := by simp [handBuf, hphase]
    have hwait : ∀ {u : State}, s.SameBuffers u → (u.goTo .wait).Tracked := fun hu =>
      hs.of_same (hu.trans (sameWrites_goTo _ _).toSameBuffers) (by simp [handBuf, State.goTo, hphase])
        (by simp [State.goTo])
    simp only [threadStep, hphase, Option.some.injEq] at h
    subst h
    obtain heq | ⟨-, heq⟩ | ⟨b, idle, hidle, ⟨-, heq⟩ | ⟨irp, rest, -, -, heq⟩⟩ :=
      s.dequeue_cases wakeup
    · exact heq ▸ hwait (.refl s)
    · exact heq ▸ hwait s.sameThread_purgeQueue.sameBuffers
    · exact heq ▸ hs.take hidle hhand ⟨rfl, rfl, rfl, rfl, rfl⟩ rfl
    · exact heq ▸ hs.take hidle hhand ⟨rfl, rfl, rfl, rfl, rfl⟩ rfl
  | send b irp =>
    simp only [threadStep, hphase, Option.some.injEq] at h
    exact h ▸ hs.send cfg hphase
  | wait =>
    have hhand : s.handBuf = none := by simp [handBuf, hphase]
    simp only [threadStep, hphase, Option.some.injEq] at h
    subst h
    have hsame := s.sameWrites_waitForCompletion cfg event
    obtain ⟨hgone, hproc⟩ := s.consume_phase cfg event
    unfold waitForCompletion at hsame ⊢
    split
    · exact hs.of_same (sameWrites_goTo s .exited).toSameBuffers (by simp [handBuf, State.goTo, hphase])
        (by simp [State.goTo])
    · have hconsumed := (s.sameWrites_consume cfg event).toSameBuffers
      refine hs.of_same hconsumed (hgone.trans hhand.symm) fun b hb => ?_
      rw [hconsumed.completion]
      exact hproc b hb
  | process b =>
    simp only [threadStep, hphase, Option.some.injEq] at h
    exact h ▸ hs.processCompletion cfg hphase
  | exited => simp [threadStep, hphase] at h

theorem Tracked.of_sameThread (hs : s.Tracked) (h : s.SameThread t) : t.Tracked := by
  refine hs.of_same h.sameBuffers (handBuf_congr h.phase) fun b hb => ?_
  rw [h.completion]
  exact hs.processing b (h.phase ▸ hb)

theorem step_tracked {op : Op} (hs : s.Tracked) (h : step cfg s op = some t) : t.Tracked := by
  obtain hsame | ⟨b, transferred, status, rfl, hat, rfl⟩ | ⟨wakeup, event, rfl, hthread⟩ :=
    step_cases h
  · exact hs.of_sameThread hsame
  · exact hs.writeCompletionRoutine hat transferred status
  · exact threadStep_tracked hs hthread

end State

end Transport.Mwt
