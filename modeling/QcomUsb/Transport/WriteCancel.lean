-- SUMMARY: When every accepted write is completed once and never while USB has it: no cancel routine meets a write between two owners.
import QcomUsb.Transport.WriteOwners

/-!
# Cancelled writes

The steps of the thread and of USB hand a write from owner to owner. A completed buffer's write is
completed, or was by its cancel routine, or goes back with its record.
-/

namespace Transport.Mwt

open CancelRoutine Transition

namespace State

variable {cfg : Cfg} {s t : State} {irp : Irp} {b : Nat}

/-! ## Transfers -/

/-- The write of one buffer, set apart. -/
theorem count_map_erase {buffers : List Nat} (hb : b ∈ buffers) (f : Nat → Option Irp)
    (x : Option Irp) : ((buffers.erase b).map f).count x + [f b].count x = (buffers.map f).count x := by
  have hperm := ((List.perm_cons_erase hb).map f).count_eq x
  rw [List.map_cons, ← List.singleton_append, List.count_append] at hperm
  omega

/-- USB gives a transfer back. -/
theorem Inv.writeCompletionRoutine (hs : s.Inv) (hat : s.atUsb b) (transferred : Nat)
    (status : NtStatus) : (s.writeCompletionRoutine b transferred status).Inv := by
  have hb := (atUsb_iff.mp hat).1
  have hcalling : (fun c =>
      ((s.writeCompletionRoutine b transferred status).pMwtBuffer c).callingIrp) =
      fun c => (s.pMwtBuffer c).callingIrp :=
    funext (callingIrp_writeCompletionRoutine s b transferred status)
  have hwith : ∀ j, (s.writeCompletionRoutine b transferred status).withUsb j +
      [(s.pMwtBuffer b).callingIrp].count (some j) = s.withUsb j := by
    intro j
    simp only [withUsb, callingIrps, hcalling]
    exact count_map_erase hb _ _
  have hback : ∀ j, (s.writeCompletionRoutine b transferred status).back j =
      s.back j + [(s.pMwtBuffer b).callingIrp].count (some j) := by
    intro j
    simp only [back, callingIrps, hcalling]
    simp [State.writeCompletionRoutine]
  have hheld : ∀ j, (s.writeCompletionRoutine b transferred status).held j = s.held j := by
    intro j
    have h1 := hwith j
    have h2 := hback j
    have h3 : (s.writeCompletionRoutine b transferred status).queued j = s.queued j := rfl
    have h4 : (s.writeCompletionRoutine b transferred status).inHand j = s.inHand j := rfl
    have h5 : (s.writeCompletionRoutine b transferred status).waiting j = s.waiting j := rfl
    unfold held
    omega
  refine hs.move (hs.tracked.writeCompletionRoutine hat transferred status) ⟨rfl, rfl, rfl⟩
    (fun j => rfl) (fun j => Nat.le_of_eq (hheld j)) (fun j hlt => ?_) (fun j hpos => ?_) rfl
    hs.goesBack
  · exact absurd (hheld j) (Nat.ne_of_lt hlt)
  · have hfree := hs.free j hpos
    have hj := hwith j
    have hzero := hfree.withUsb
    exact ⟨hfree.queued, hfree.inHand, by omega, hfree.waiting⟩

theorem takeBuffer_counts (hfirst : (s.pMwtBuffer b).callingIrp = none) (idle : List Nat)
    (irp : Irp) : (s.takeBuffer b idle).withUsb irp = s.withUsb irp ∧
      (s.takeBuffer b idle).back irp = s.back irp := by
  have hcalling : (fun c => ((s.takeBuffer b idle).pMwtBuffer c).callingIrp) =
      fun c => (s.pMwtBuffer c).callingIrp := funext (callingIrp_takeBuffer s b idle)
  simp only [withUsb, back, callingIrps, hcalling]
  simp [takeBuffer, hfirst]

/-- A write is de-queued with a buffer, or a buffer for a zero-length packet. -/
theorem Inv.take (hs : s.Inv) {idle : List Nat} (hidle : s.mWriteIdleQueue = b :: idle)
    (hphase : s.phase = .dequeue) (hsame : (s.takeBuffer b idle).SameBuffers t)
    {next : Option Irp} (hnext : t.phase = .send b next)
    (hqueue : s.writeDataQueue = next.toList ++ t.writeDataQueue) (hbooks : s.SameBooks t)
    (hfin : ∀ j, t.finished j = s.finished j) (hio : t.io = s.io)
    (hstate : t.mwtState = s.mwtState) : t.Inv := by
  have htracked := hs.tracked.take hidle (by simp [handBuf, hphase]) hsame hnext
  have hcounts := fun j => takeBuffer_counts (hs.tracked.idle b (by simp [hidle])) idle j
  have hwith : ∀ j, t.withUsb j = s.withUsb j := fun j => (hsame.withUsb j).trans (hcounts j).1
  have hback : ∀ j, t.back j = s.back j := fun j => (hsame.back j).trans (hcounts j).2
  have hwaiting : ∀ j, t.waiting j = s.waiting j := fun j => hsame.waiting j
  have hmoved : ∀ j, t.queued j + t.inHand j = s.queued j + s.inHand j := by
    intro j
    have hin : t.inHand j = next.toList.count j := by
      cases next with
      | none => simp [inHand, hand, hnext]
      | some irp => simp [inHand, hand, hnext, List.count_singleton]
    have hin' : s.inHand j = 0 := by simp [inHand, hand, hphase]
    have hqueued : s.queued j = next.toList.count j + t.queued j := by
      rw [queued, hqueue, List.count_append, queued]
    omega
  have hheld : ∀ j, t.held j = s.held j := by
    intro j
    have h1 := hmoved j
    unfold held
    rw [hwith, hback, hwaiting]
    omega
  refine hs.move htracked hbooks hfin (fun j => Nat.le_of_eq (hheld j))
    (fun j hlt => absurd (hheld j) (Nat.ne_of_lt hlt)) (fun j hpos => ?_) hio fun j hpos => ?_
  · have hfree := hs.free j hpos
    have hj := hmoved j
    have h1 := hfree.queued
    have h2 := hfree.inHand
    exact ⟨by omega, by omega, (hwith j).trans hfree.withUsb, (hwaiting j).trans hfree.waiting⟩
  · have hrecords : t.mwtSentIrpQueue = s.mwtSentIrpQueue := hsame.records
    rw [hstate, hrecords]
    exact hs.goesBack j (hwaiting j ▸ hpos)

variable (cfg) in
/-- What is in hand goes to USB. -/
theorem send_counts (hs : s.Tracked) {next : Option Irp} (hphase : s.phase = .send b next)
    (hpool : s.mwtSentIrpRecordPool ≠ 0) (irp : Irp) :
    (s.send cfg b next).withUsb irp = s.withUsb irp + s.inHand irp ∧
      (s.send cfg b next).back irp = s.back irp ∧ (s.send cfg b next).inHand irp = 0 ∧
      (s.send cfg b next).waiting irp = s.waiting irp := by
  have hhand : s.handBuf = some b := by simp [handBuf, hphase]
  obtain ⟨hb, hfirst⟩ := hs.hand b hhand
  have hin : s.inHand irp = [next].count (some irp) := by simp [inHand, hand, hphase]
  have hsent : ∀ c, ((s.send cfg b next).pMwtBuffer c).callingIrp =
      if c = b then next else (s.pMwtBuffer c).callingIrp := by
    intro c
    rw [State.send, if_neg hpool]
    rcases eq_or_ne c b with rfl | hne <;> simp [*]
  have hpend : (s.send cfg b next).mWritePendingQueue = s.mWritePendingQueue := by
    rw [State.send, if_neg hpool]
  have hcompl : (s.send cfg b next).mWriteCompletionQueue = s.mWriteCompletionQueue := by
    rw [State.send, if_neg hpool]
  have hnot : b ∉ s.mWriteCompletionQueue := hs.not_mem_completion hb
  refine ⟨?_, ?_, ?_, ?_⟩
  · have hold := count_map_erase hb (fun c => (s.pMwtBuffer c).callingIrp) (some irp)
    have hnew := count_map_erase hb (fun c => if c = b then next else (s.pMwtBuffer c).callingIrp)
      (some irp)
    have hrest : (s.mWritePendingQueue.erase b).map
        (fun c => if c = b then next else (s.pMwtBuffer c).callingIrp) =
        (s.mWritePendingQueue.erase b).map fun c => (s.pMwtBuffer c).callingIrp := by
      refine List.map_congr_left fun c hc => if_neg ?_
      rintro rfl
      exact hs.nodup_pending.not_mem_erase hc
    rw [hrest, if_pos rfl] at hnew
    rw [hfirst] at hold
    simp only [withUsb, callingIrps, hpend, hsent, hin]
    simp only [List.count_singleton] at hold hnew ⊢
    simp at hold
    omega
  · simp only [back, callingIrps, hcompl, hsent]
    congr 1
    refine List.map_congr_left fun c hc => if_neg ?_
    rintro rfl
    exact hnot hc
  · rw [State.send, if_neg hpool]
    simp [inHand, hand]
  · rw [State.send, if_neg hpool]
    simp [waiting, returned]

theorem Inv.send (hs : s.Inv) {next : Option Irp} (hphase : s.phase = .send b next)
    (hpool : s.mwtSentIrpRecordPool ≠ 0) : (s.send cfg b next).Inv := by
  have htracked := hs.tracked.send cfg hphase
  have hcounts := send_counts cfg hs.tracked hphase hpool
  have heq : s.send cfg b next = _ := if_neg hpool
  have hqueued : ∀ j, (s.send cfg b next).queued j = s.queued j := fun j => by rw [heq]; rfl
  have hheld : ∀ j, (s.send cfg b next).held j = s.held j := by
    intro j
    obtain ⟨hwith, hback, hin, hwaiting⟩ := hcounts j
    have hq := hqueued j
    unfold held
    omega
  refine hs.move htracked (by rw [heq]; exact ⟨rfl, rfl, rfl⟩) (fun j => by rw [heq]; rfl)
    (fun j => Nat.le_of_eq (hheld j)) (fun j hlt => absurd (hheld j) (Nat.ne_of_lt hlt))
    (fun j hpos => ?_) (by rw [heq]) fun j hpos => ?_
  · obtain ⟨hwith, -, hin, hwaiting⟩ := hcounts j
    have hfree := hs.free j hpos
    have h1 := hfree.withUsb
    have h2 := hfree.inHand
    exact ⟨(hqueued j).trans hfree.queued, hin, by omega, hwaiting.trans hfree.waiting⟩
  · obtain ⟨-, -, -, hwaiting⟩ := hcounts j
    obtain ⟨hstate, r, hr, hret⟩ := hs.goesBack j (hwaiting ▸ hpos)
    rw [heq]
    exact ⟨hstate, r, List.mem_append_left _ hr, hret⟩

/-! ## Completed buffers -/

/-- A write of a completed buffer is completed, or its routine has been or is about to be at it. -/
structure Completes (s t : State) (b : Nat) : Prop where
  books : s.SameBooks t
  effect :
    (∃ irp, (s.pMwtBuffer b).callingIrp = some irp ∧ s.io.installed irp = true ∧
      t.io = s.io.ioSetCancelRoutine irp false ∧
      ∀ j, t.finished j = s.finished j + if j = irp then 1 else 0) ∨
    (∀ irp, (s.pMwtBuffer b).callingIrp = some irp → s.io.installed irp = false) ∧
      t.io = s.io ∧ ∀ j, t.finished j = s.finished j

variable (cfg) in
theorem sameWrites_countError (s : State) (status : NtStatus) :
    s.SameWrites (s.countError cfg status) := by
  unfold countError
  split
  · exact ⟨⟨rfl, rfl, rfl, rfl, rfl⟩, rfl, rfl, rfl, rfl, rfl, rfl, rfl, rfl, rfl, rfl, rfl⟩
  · split <;>
      exact ⟨⟨rfl, rfl, rfl, rfl, rfl⟩, rfl, rfl, rfl, rfl, rfl, rfl, rfl, rfl, rfl, rfl, rfl⟩

theorem SameWrites.finished (h : s.SameWrites t) (irp : Irp) : t.finished irp = s.finished irp := by
  simp only [State.finished, h.wtCompletionQueue, h.completed]

theorem SameWrites.queued (h : s.SameWrites t) (irp : Irp) : t.queued irp = s.queued irp := by
  simp only [State.queued, h.writeDataQueue]

theorem SameWrites.books (h : s.SameWrites t) : s.SameBooks t := ⟨h.submitted, h.accepted, h.wild⟩

variable (cfg) in
theorem writeDataQueue_writeIrpCompletion (s : State) (b : Nat) (status : NtStatus) :
    (s.writeIrpCompletion cfg b status).writeDataQueue = s.writeDataQueue := by
  have hcount := (s.sameWrites_countError cfg status).writeDataQueue
  simp only [writeIrpCompletion]
  split
  · exact hcount
  · split
    · exact hcount
    · exact hcount

variable (cfg) in
theorem completes_writeIrpCompletion (s : State) (b : Nat) (status : NtStatus) :
    s.Completes (s.writeIrpCompletion cfg b status) b := by
  have hcount := s.sameWrites_countError cfg status
  have hbooks := hcount.books
  simp only [writeIrpCompletion, hcount.pMwtBuffer]
  split
  · rename_i hnone
    exact ⟨hbooks, .inr ⟨fun irp hirp => by simp [hnone] at hirp, hcount.io, hcount.finished⟩⟩
  · rename_i irp hirp
    split
    · rename_i hinst
      rw [hcount.io] at hinst
      refine ⟨⟨hbooks.submitted, hbooks.accepted, hbooks.wild⟩,
        .inl ⟨irp, hirp, hinst, ?_, fun j => ?_⟩⟩
      · exact congrArg (fun c => c.ioSetCancelRoutine irp false) hcount.io
      · rw [← hcount.finished j]
        exact finished_insertWtCompletionQueue _ irp _ _ j
    · rename_i hinst
      rw [hcount.io] at hinst
      refine ⟨hbooks, .inr ⟨fun i hi => ?_, hcount.io, hcount.finished⟩⟩
      obtain rfl := Option.some.inj (hirp.symm.trans hi)
      simpa using hinst

theorem Completes.requeue (h : s.Completes t b) : s.Completes t.requeue b :=
  ⟨⟨h.books.submitted, h.books.accepted, h.books.wild⟩, h.effect⟩

/-- When all records have returned, their writes go to the data queue. -/
theorem requeue_counts (hall : ∀ r ∈ s.mwtSentIrpQueue, r.irpReturned = true) (irp : Irp) :
    s.requeue.queued irp = s.queued irp + s.waiting irp ∧ s.requeue.waiting irp = 0 := by
  have hfilter : s.mwtSentIrpQueue.filter SentIrp.irpReturned = s.mwtSentIrpQueue :=
    List.filter_eq_self.mpr hall
  have hcount : ∀ records : List SentIrp, (records.filterMap SentIrp.sentIrp).count irp =
      (records.map SentIrp.sentIrp).count (some irp) := by
    intro records
    induction records with
    | nil => rfl
    | cons r records ih =>
      cases hsent : r.sentIrp with
      | none => simp [hsent, ih]
      | some i => simp [hsent, ih, List.count_cons]
  constructor
  · simp only [queued, requeue, List.count_append, hcount, waiting, returned, hfilter]
    omega
  · simp [waiting, requeue, returned]

section

variable {before after : List SentIrp} {r : SentIrp}

/-- The records of a completed write's buffer that are left have returned as before. -/
theorem Split.waiting_removed (h : s.Split b before r after)
    (hu : t.mwtSentIrpQueue = before ++ after)
    (irp : Irp) : t.waiting irp = s.waiting irp := by
  simp only [waiting, returned, hu, h.records]
  simp [h.notReturned]

theorem Split.waiting_marked (h : s.Split b before r after)
    (hu : t.mwtSentIrpQueue = before ++ { r with irpReturned := true } :: after) (irp : Irp) :
    t.waiting irp = s.waiting irp + [(s.pMwtBuffer b).callingIrp].count (some irp) := by
  simp only [waiting, returned, hu, h.records, ← h.sentIrp]
  simp only [List.filter_append, List.map_append, List.count_append, List.filter_cons, if_true,
    h.notReturned, Bool.false_eq_true, if_false, List.map_cons, List.count_cons, List.count_nil]
  omega

/-- Not all are back. -/
theorem Split.exists_out (h : s.Split b before r after)
    (hall : allReturned s.mwtSentIrpQueue b ≠ true) :
    ∃ x ∈ before ++ after, x.irpReturned = false := by
  by_contra hnone
  apply hall
  rw [h.allReturned_iff]
  intro x hx
  by_contra hret
  exact hnone ⟨x, hx, by simpa using hret⟩

end

/-- What becomes of the data queue and of the records that have returned. -/
structure Settles (s t : State) (b : Nat) (kept : Bool) : Prop where
  moved : ∀ irp, t.queued irp + t.waiting irp = s.queued irp + s.waiting irp +
    if kept then [(s.pMwtBuffer b).callingIrp].count (some irp) else 0
  goesBack : ∀ irp, 0 < t.waiting irp →
    s.mwtState = .flowOff ∧ ∃ r ∈ t.mwtSentIrpQueue, r.irpReturned = false

variable (cfg) in
/-- A transfer that succeeded, or any outside FLOW_OFF, completes its write. -/
theorem returnWrite_completes (hs : s.Tracked) (hg : s.GoesBack) (hb : b ∈ s.busy)
    (hhand : s.handBuf ≠ some b) (h : s.mwtState = .flowOff → s.statusOf b = .success) :
    s.Completes (s.returnWrite cfg b) b ∧ s.Settles (s.returnWrite cfg b) b false := by
  obtain ⟨before, r, after, hsplit⟩ := hs.split hb hhand
  obtain ⟨v, hv⟩ : ∃ v : State, v =
      { s with
        mwtSentIrpQueue := before ++ after
        mwtSentIrpRecordPool := s.mwtSentIrpRecordPool + 1 } := ⟨_, rfl⟩
  have hcompletes : ∀ status, s.Completes (v.writeIrpCompletion cfg b status) b := by
    intro status
    obtain ⟨hbooks, heffect⟩ := completes_writeIrpCompletion cfg v b status
    subst hv
    exact ⟨⟨hbooks.submitted, hbooks.accepted, hbooks.wild⟩, heffect⟩
  have hrecords : ∀ status, (v.writeIrpCompletion cfg b status).mwtSentIrpQueue = before ++ after := by
    intro status
    rw [(sameBuffers_writeIrpCompletion cfg v b status).records, hv]
  have hqueued : ∀ status irp, (v.writeIrpCompletion cfg b status).queued irp = s.queued irp := by
    intro status irp
    rw [queued, writeDataQueue_writeIrpCompletion, hv, queued]
  have hwaiting : ∀ status irp, (v.writeIrpCompletion cfg b status).waiting irp = s.waiting irp :=
    fun status irp => hsplit.waiting_removed (hrecords status) irp
  rcases eq_or_ne s.mwtState .flowOff with hstate | hstate
  · rw [hsplit.returnWrite_success hstate (h hstate), ← hv]
    dsimp only
    split
    · rename_i hall
      have hback : ∀ x ∈ (v.writeIrpCompletion cfg b .success).mwtSentIrpQueue,
          x.irpReturned = true := by
        rw [hrecords]
        exact hsplit.allReturned_iff.mp hall
      refine ⟨(hcompletes .success).requeue, fun irp => ?_, fun irp hpos => ?_⟩
      · obtain ⟨hq, hw⟩ := requeue_counts hback irp
        rw [hq, hw, hqueued, hwaiting]
        simp
      · rw [(requeue_counts hback irp).2] at hpos
        omega
    · rename_i hall
      refine ⟨hcompletes .success, fun irp => ?_, fun irp hpos => ⟨hstate, ?_⟩⟩
      · rw [hqueued, hwaiting]
        simp
      · rw [hrecords]
        exact hsplit.exists_out hall
  · rw [hsplit.returnWrite_working hstate, ← hv]
    refine ⟨hcompletes _, fun irp => ?_, fun irp hpos => ?_⟩
    · rw [hqueued, hwaiting]
      simp
    · -- nothing has returned outside FLOW_OFF
      rw [hwaiting] at hpos
      exact absurd (hg irp hpos).1 hstate

variable (cfg) in
/-- Under FLOW_OFF a transfer that failed leaves its write with the record. -/
theorem returnWrite_keeps (hs : s.Tracked) (hb : b ∈ s.busy) (hhand : s.handBuf ≠ some b)
    (hstate : s.mwtState = .flowOff) (hstatus : s.statusOf b ≠ .success) :
    s.SameBooks (s.returnWrite cfg b) ∧ (s.returnWrite cfg b).io = s.io ∧
      (∀ irp, (s.returnWrite cfg b).finished irp = s.finished irp) ∧
      s.Settles (s.returnWrite cfg b) b true := by
  obtain ⟨before, r, after, hsplit⟩ := hs.split hb hhand
  have hwaiting := fun irp => hsplit.waiting_marked
    (t := { s with mwtSentIrpQueue := before ++ { r with irpReturned := true } :: after }) rfl irp
  rw [hsplit.returnWrite_failed hstate hstatus]
  dsimp only
  split
  · rename_i hall
    have hback : ∀ x ∈ before ++ { r with irpReturned := true } :: after,
        x.irpReturned = true := by
      have hothers := hsplit.allReturned_iff.mp hall
      simp only [List.mem_append, List.mem_cons] at hothers ⊢
      rintro x (hx | rfl | hx)
      · exact hothers x (.inl hx)
      · rfl
      · exact hothers x (.inr hx)
    have hcounts := requeue_counts
      (s := { s with mwtSentIrpQueue := before ++ { r with irpReturned := true } :: after }) hback
    refine ⟨⟨rfl, rfl, rfl⟩, rfl, fun irp => rfl, fun irp => ?_, fun irp hpos => ?_⟩
    · obtain ⟨hq, hw⟩ := hcounts irp
      rw [hq, hw, hwaiting, if_pos rfl, Nat.add_zero, ← Nat.add_assoc]
      rfl
    · rw [(hcounts irp).2] at hpos
      omega
  · rename_i hall
    refine ⟨⟨rfl, rfl, rfl⟩, rfl, fun irp => rfl, fun irp => ?_, fun irp hpos => ⟨hstate, ?_⟩⟩
    · rw [hwaiting, if_pos rfl, ← Nat.add_assoc]
      rfl
    · obtain ⟨x, hx, hret⟩ := hsplit.exists_out hall
      refine ⟨x, ?_, hret⟩
      rcases List.mem_append.mp hx with hx | hx
      · exact List.mem_append_left _ hx
      · exact List.mem_append_right _ (List.mem_cons_of_mem _ hx)

theorem recycle_counts (hs : s.Tracked) (hb : b ∈ s.mWriteCompletionQueue)
    (hreturned : s.Returned t b) (irp : Irp) :
    (t.recycle b).withUsb irp = s.withUsb irp ∧
      (t.recycle b).back irp + [(s.pMwtBuffer b).callingIrp].count (some irp) = s.back irp := by
  have hsame : ∀ buffers : List Nat, b ∉ buffers → (t.recycle b).callingIrps buffers =
      s.callingIrps buffers := by
    intro buffers hnot
    refine List.map_congr_left fun c hc => ?_
    have hne : c ≠ b := fun heq => hnot (heq ▸ hc)
    rw [recycle, hreturned.pMwtBuffer]
    simp [hne]
  have hpending : (t.recycle b).mWritePendingQueue = s.mWritePendingQueue := hreturned.pending
  have hcompletion : (t.recycle b).mWriteCompletionQueue = s.mWriteCompletionQueue.erase b := by
    rw [recycle, hreturned.completion]
  constructor
  · rw [withUsb, hpending, hsame _ fun hmem => hs.not_mem_completion hmem hb]
    rfl
  · rw [back, hcompletion, hsame _ hs.nodup_completion.not_mem_erase]
    exact count_map_erase hb _ _

theorem partialTransfer_eq (s : State) (b : Nat) :
    ∃ information, s.partialTransfer b = { s with information := information } := by
  simp only [partialTransfer]
  split
  · exact ⟨s.information, rfl⟩
  · split
    · exact ⟨_, rfl⟩
    · exact ⟨s.information, rfl⟩

theorem afterCompletion_flowOff (hstate : s.mwtState = .flowOff)
    (hrecords : s.mwtSentIrpQueue ≠ []) :
    s.afterCompletion.mwtState = .flowOff := by
  rw [afterCompletion, if_pos hstate]
  exact if_neg hrecords

/-- A completed buffer is processed. -/
theorem Inv.processed (hs : s.Inv) (hphase : s.phase = .process b)
    (hok : s.mwtState = .flowOff → s.statusOf b ≠ .success →
      ∀ irp ∈ (s.pMwtBuffer b).callingIrp, s.finished irp = 0)
    (ht : t = ((s.returnWrite cfg b).recycle b).afterCompletion) (htracked : t.Tracked) : t.Inv := by
  have hhand : s.handBuf = none := by simp [handBuf, hphase]
  have hb : b ∈ s.mWriteCompletionQueue := List.mem_of_mem_head? (hs.tracked.processing b hphase)
  have hbusy : b ∈ s.busy := List.mem_append_right _ hb
  have hnot : s.handBuf ≠ some b := by simp [hhand]
  have hreturned := hs.tracked.returnWrite cfg hbusy hnot
  have hsame := sameWrites_afterCompletion ((s.returnWrite cfg b).recycle b)
  rw [← ht] at hsame
  have hphase' : t.phase = .loopHead ∨ t.phase = .wait := ht ▸ afterCompletion_phase _
  have hin : ∀ j, t.inHand j = 0 := fun j => by
    rcases hphase' with h | h <;> simp [inHand, hand, h]
  have hin' : ∀ j, s.inHand j = 0 := fun j => by simp [inHand, hand, hphase]
  have hwith : ∀ j, t.withUsb j = s.withUsb j := fun j =>
    (hsame.withUsb j).trans (recycle_counts hs.tracked hb hreturned j).1
  have hback : ∀ j, t.back j + [(s.pMwtBuffer b).callingIrp].count (some j) = s.back j := fun j =>
    (hsame.back j).symm ▸ (recycle_counts hs.tracked hb hreturned j).2
  have hqueued : ∀ j, t.queued j = (s.returnWrite cfg b).queued j := hsame.queued
  have hwaiting : ∀ j, t.waiting j = (s.returnWrite cfg b).waiting j := hsame.waiting
  have hbooks : s.SameBooks (s.returnWrite cfg b) → s.SameBooks t := fun h =>
    ⟨hsame.submitted.trans h.submitted, hsame.accepted.trans h.accepted, hsame.wild.trans h.wild⟩
  have hfin : ∀ j, t.finished j = (s.returnWrite cfg b).finished j := hsame.finished
  have hio : t.io = (s.returnWrite cfg b).io := hsame.io
  have hgoes : ∀ kept, s.Settles (s.returnWrite cfg b) b kept → t.GoesBack := by
    intro kept h j hpos
    rw [hwaiting] at hpos
    obtain ⟨hstate, r, hr, hret⟩ := h.goesBack j hpos
    have hrecords : t.mwtSentIrpQueue = (s.returnWrite cfg b).mwtSentIrpQueue := hsame.records
    refine ⟨?_, r, hrecords ▸ hr, hret⟩
    rw [ht]
    exact afterCompletion_flowOff ((s.sameControl_returnWrite cfg b).mwtState.trans hstate)
      (List.ne_nil_of_mem hr)
  rcases Decidable.em (s.mwtState = .flowOff → s.statusOf b = .success) with hdone | hfailed
  · obtain ⟨⟨hsb, heffect⟩, hsettles⟩ :=
      returnWrite_completes cfg hs.tracked hs.goesBack hbusy hnot hdone
    have hmoved : ∀ j, t.queued j + t.waiting j = s.queued j + s.waiting j := fun j => by
      rw [hqueued, hwaiting]
      exact hsettles.moved j
    have hheld : ∀ j, t.held j + [(s.pMwtBuffer b).callingIrp].count (some j) = s.held j := by
      intro j
      have h1 := hmoved j
      have h2 := hwith j
      have h3 := hback j
      have h4 := hin j
      have h5 := hin' j
      unfold held
      omega
    have hfree : ∀ j, 0 < s.finished j → t.Free j := by
      intro j hpos
      have h := hs.free j hpos
      have h1 := hmoved j
      have h2 := h.queued
      have h3 := h.waiting
      exact ⟨by omega, hin j, (hwith j).trans h.withUsb, by omega⟩
    rcases heffect with ⟨irp, hcalling, hinst, hioeq, hfineq⟩ | ⟨hgone, hioeq, hfineq⟩
    · -- the write is completed
      have hself : [(s.pMwtBuffer b).callingIrp].count (some irp) = 1 := by simp [hcalling]
      have hzero : s.finished irp = 0 := by
        by_contra hne
        simp [(hs.quiet irp (by omega)).1] at hinst
      have hle := hs.held_le irp
      have hirp := hheld irp
      refine hs.finish htracked (hbooks hsb) (hs.mem_accepted (.inr (.inr (.inl hinst)))) hzero
        (fun j => (hfin j).trans (hfineq j)) (fun j hne => ?_) (by omega) (fun j hj => ?_)
        (by rw [hio, hioeq]; exact .take hinst) (hgoes _ hsettles)
      · have hj := hheld j
        have hnone : [(s.pMwtBuffer b).callingIrp].count (some j) = 0 := by
          simp [hcalling, hne.symm]
        omega
      · rcases hj with hpos | rfl
        · exact hfree j hpos
        · exact free_of_held (by omega)
    · -- its routine was called
      refine hs.move htracked (hbooks hsb) (fun j => (hfin j).trans (hfineq j)) (fun j => ?_)
        (fun j hlt => ?_) hfree (hio.trans hioeq) (hgoes _ hsettles)
      · have hj := hheld j
        omega
      · have hj := hheld j
        have hmem : some j ∈ [(s.pMwtBuffer b).callingIrp] := List.count_pos_iff.mp (by omega)
        have hinst := hgone j (List.mem_singleton.mp hmem).symm
        rcases Nat.eq_zero_or_pos (s.finished j) with hzero | hpos
        · have haccepted : j ∈ s.accepted := hs.mem_accepted (.inl (by omega))
          have honWay := hs.onWay j haccepted hzero
          exact .inl (honWay.resolve_right fun h => by simp [hinst] at h)
        · exact .inr hpos
  · -- the write stays with its record, or goes back to the data queue
    obtain ⟨hstate, hstatus⟩ := Classical.not_imp.mp hfailed
    obtain ⟨hsb, hioeq, hfineq, hsettles⟩ :=
      returnWrite_keeps cfg hs.tracked hbusy hnot hstate hstatus
    have hmoved : ∀ j, t.queued j + t.waiting j = s.queued j + s.waiting j +
        [(s.pMwtBuffer b).callingIrp].count (some j) := fun j => by
      rw [hqueued, hwaiting]
      exact hsettles.moved j
    have hheld : ∀ j, t.held j = s.held j := by
      intro j
      have h1 := hmoved j
      have h2 := hwith j
      have h3 := hback j
      have h4 := hin j
      have h5 := hin' j
      unfold held
      omega
    refine hs.move htracked (hbooks hsb) (fun j => (hfin j).trans (hfineq j))
      (fun j => Nat.le_of_eq (hheld j)) (fun j hlt => absurd (hheld j) (Nat.ne_of_lt hlt))
      (fun j hpos => ?_) (hio.trans hioeq) (hgoes _ hsettles)
    have h := hs.free j hpos
    have h1 := hmoved j
    have h2 := h.queued
    have h3 := h.waiting
    have hnone : [(s.pMwtBuffer b).callingIrp].count (some j) = 0 := by
      refine List.count_eq_zero.mpr fun hmem => ?_
      have hzero := hok hstate hstatus j (List.mem_singleton.mp hmem).symm
      omega
    exact ⟨by omega, hin j, (hwith j).trans h.withUsb, by omega⟩

theorem Inv.partialTransfer (hs : s.Inv) (b : Nat) : (s.partialTransfer b).Inv := by
  have hphase := (s.sameControl_partialTransfer b).phase
  have hbuffers := s.sameBuffers_partialTransfer b
  have htracked := hs.tracked.of_same hbuffers (handBuf_congr hphase) fun c hc => by
    rw [hbuffers.completion]
    exact hs.tracked.processing c (hphase ▸ hc)
  obtain ⟨information, heq⟩ := s.partialTransfer_eq b
  rw [heq] at htracked ⊢
  exact hs.move htracked ⟨rfl, rfl, rfl⟩ (fun j => rfl) (fun j => Nat.le_refl _)
    (fun j hlt => absurd rfl (Nat.ne_of_lt hlt))
    (fun j hpos => ⟨(hs.free j hpos).queued, (hs.free j hpos).inHand, (hs.free j hpos).withUsb,
      (hs.free j hpos).waiting⟩) rfl hs.goesBack

theorem Inv.processCompletion (hs : s.Inv) (hphase : s.phase = .process b)
    (hok : s.mwtState = .flowOff → s.statusOf b ≠ .success →
      ∀ irp ∈ (s.pMwtBuffer b).callingIrp, s.finished irp = 0) :
    (s.processCompletion cfg b).Inv := by
  have htracked := hs.tracked.processCompletion cfg hphase
  have hpart := hs.partialTransfer b
  unfold State.processCompletion at htracked ⊢
  obtain ⟨information, heq⟩ := s.partialTransfer_eq b
  rw [heq] at htracked hpart ⊢
  exact hpart.processed hphase hok rfl htracked

/-! ## Control -/

/-- The thread goes on without touching a write. -/
theorem Inv.of_sameWrites (hs : s.Inv) (h : s.SameWrites t) (htracked : t.Tracked)
    (hhand : t.hand = s.hand) (hgoes : t.GoesBack) : t.Inv := by
  have hheld : ∀ j, t.held j = s.held j := fun j => by
    have hj := h.held hhand j
    have hq := h.queued j
    omega
  exact hs.move htracked h.books h.finished (fun j => Nat.le_of_eq (hheld j))
    (fun j hlt => absurd (hheld j) (Nat.ne_of_lt hlt))
    (fun j hpos => h.free hhand (Nat.le_of_eq (h.queued j)) (hs.free j hpos)) h.io hgoes

theorem GoesBack.consume (hs : s.GoesBack) {event : Event}
    (hok : event.drains = true → s.mWritePendingQueue ≠ [] → ∀ irp ∈ s.returned, irp = none) :
    (s.consume cfg event).GoesBack := by
  have hsame := (s.sameWrites_consume cfg event).toSameBuffers
  -- a drain that begins finds nothing waiting
  have hdrain : event.drains = true → s.mWritePendingQueue ≠ [] → (s.consume cfg event).GoesBack := by
    intro hevent hpending j hpos
    rw [hsame.waiting] at hpos
    have hnone := hok hevent hpending (some j) (List.count_pos_iff.mp hpos)
    cases hnone
  cases event with
  | completion =>
    refine hs.of_same hsame ?_
    simp only [State.consume]
    split <;> rfl
  | cancelCurrent | kick | resume stopped | flowOn stopped => exact hs.of_same hsame rfl
  | cancel | purge | stop =>
    by_cases hpending : s.mWritePendingQueue = []
    · refine hs.of_same hsame ?_
      simp [State.consume, hpending, goTo]
    · exact hdrain rfl hpending
  | flowOff =>
    cases hspeed : cfg.highSpeed with
    | true =>
      refine hs.of_same hsame ?_
      simp [State.consume, hspeed, goTo]
    | false =>
      intro j hpos
      have hstate : (s.consume cfg .flowOff).mwtState = .flowOff := by
        simp [State.consume, hspeed, goTo]
      rw [hsame.waiting] at hpos
      rw [hsame.records]
      exact ⟨hstate, (hs j hpos).2⟩

theorem Inv.waitForCompletion (hs : s.Inv) (hphase : s.phase = .wait) {event : Event}
    (hok : event.drains = true → s.mWritePendingQueue ≠ [] → ∀ irp ∈ s.returned, irp = none)
    (htracked : (s.waitForCompletion cfg event).Tracked) : (s.waitForCompletion cfg event).Inv := by
  have hhand : s.hand = none := by simp [hand, hphase]
  unfold State.waitForCompletion at htracked ⊢
  split
  · rename_i hexit
    rw [if_pos hexit] at htracked
    exact hs.of_sameWrites (sameWrites_goTo s .exited) htracked (by simp [hand, goTo, hphase])
      (hs.goesBack.of_same (sameWrites_goTo s .exited).toSameBuffers rfl)
  · rename_i hexit
    rw [if_neg hexit] at htracked
    have hgone : (s.consume cfg event).hand = none := by
      have hbuf := (s.consume_phase cfg event).1
      unfold handBuf at hbuf
      unfold hand
      cases hp : (s.consume cfg event).phase <;> simp [hp] at hbuf ⊢
    exact hs.of_sameWrites (s.sameWrites_consume cfg event) htracked (hgone.trans hhand.symm)
      (hs.goesBack.consume hok)

theorem Inv.loopHead (hs : s.Inv) (hphase : s.phase = .loopHead) (htracked : s.loopHead.Tracked) :
    s.loopHead.Inv := by
  have hgo : ∀ phase, (s.goTo phase).Tracked → (s.goTo phase).hand = none → (s.goTo phase).Inv :=
    fun phase h hnone => hs.of_sameWrites (sameWrites_goTo s phase) h
      (hnone.trans (by simp [hand, hphase]))
      (hs.goesBack.of_same (sameWrites_goTo s phase).toSameBuffers rfl)
  unfold State.loopHead at htracked ⊢
  split
  · rename_i hpurge
    rw [if_pos hpurge] at htracked
    have hpurged := hs.purgeQueue
    have hsame : s.purgeQueue.SameWrites
        { s.purgeQueue with bPurged := false, purgeOwed := false, phase := .wait } :=
      ⟨⟨rfl, rfl, rfl, rfl, rfl⟩, rfl, rfl, rfl, rfl, rfl, rfl, rfl, rfl, rfl, rfl, rfl⟩
    have hhand : s.purgeQueue.hand = none := by
      rw [hand_congr s.sameThread_purgeQueue.phase]
      simp [hand, hphase]
    exact hpurged.of_sameWrites hsame htracked (by rw [hhand]; rfl)
      (hpurged.goesBack.of_same hsame.toSameBuffers rfl)
  · rename_i hpurge
    rw [if_neg hpurge] at htracked
    split
    · rename_i hstopped
      rw [if_pos hstopped] at htracked
      exact hgo _ htracked rfl
    · rename_i hstopped
      rw [if_neg hstopped] at htracked
      split
      · rename_i hflow
        rw [if_pos hflow] at htracked
        exact hgo _ htracked rfl
      · rename_i hflow
        rw [if_neg hflow] at htracked
        exact hgo _ htracked rfl

theorem Inv.dequeue (hs : s.Inv) (hphase : s.phase = .dequeue) {wakeup : Bool}
    (htracked : (s.dequeue wakeup).Tracked) : (s.dequeue wakeup).Inv := by
  have hwait : ∀ u : State, u.Inv → u.phase = .dequeue → (u.goTo .wait).Tracked →
      (u.goTo .wait).Inv := fun u hu hp h =>
    hu.of_sameWrites (sameWrites_goTo u .wait) h (by simp [hand, goTo, hp])
      (hu.goesBack.of_same (sameWrites_goTo u .wait).toSameBuffers rfl)
  obtain heq | ⟨-, heq⟩ | ⟨b, idle, hidle, ⟨-, heq⟩ | ⟨irp, rest, -, hqueue, heq⟩⟩ :=
    s.dequeue_cases wakeup
  · rw [heq] at htracked ⊢
    exact hwait s hs hphase htracked
  · rw [heq] at htracked ⊢
    exact hwait _ hs.purgeQueue (s.sameThread_purgeQueue.phase.trans hphase) htracked
  · rw [heq]
    exact hs.take hidle hphase ⟨rfl, rfl, rfl, rfl, rfl⟩ rfl rfl ⟨rfl, rfl, rfl⟩ (fun j => rfl) rfl rfl
  · rw [heq]
    exact hs.take hidle hphase ⟨rfl, rfl, rfl, rfl, rfl⟩ rfl hqueue ⟨rfl, rfl, rfl⟩ (fun j => rfl) rfl
      rfl

/-! ## Every step -/

theorem threadStep_inv (hs : s.Inv) {wakeup : Bool} {event : Event}
    (hok : (Op.thread wakeup event).Orderly s) (h : threadStep cfg s wakeup event = some t) :
    t.Inv := by
  have htracked := threadStep_tracked hs.tracked h
  cases hphase : s.phase with
  | loopHead =>
    simp only [threadStep, hphase, Option.some.injEq] at h
    subst h
    exact hs.loopHead hphase htracked
  | dequeue =>
    simp only [threadStep, hphase, Option.some.injEq] at h
    subst h
    exact hs.dequeue hphase htracked
  | send b irp =>
    simp only [threadStep, hphase, Option.some.injEq] at h
    simp only [Op.Orderly, hphase] at hok
    exact h ▸ hs.send hphase hok
  | wait =>
    simp only [threadStep, hphase, Option.some.injEq] at h
    simp only [Op.Orderly, hphase] at hok
    subst h
    exact hs.waitForCompletion hphase hok htracked
  | process b =>
    simp only [threadStep, hphase, Option.some.injEq] at h
    simp only [Op.Orderly, hphase] at hok
    exact h ▸ hs.processCompletion hphase hok
  | exited => simp [threadStep, hphase] at h

theorem step_inv {op : Op} (hs : s.Inv) (hok : op.Orderly s) (h : step cfg s op = some t) :
    t.Inv := by
  cases op with
  | enqueue irp =>
    obtain ⟨⟨hnew, -⟩, heq⟩ := Option.ite_none_right_eq_some.mp h
    obtain rfl := Option.some.inj heq
    exact hs.enqueue hnew
  | ioCancelIrp irp =>
    obtain rfl := Option.some.inj h
    exact hs.ioCancelIrp irp
  | cancelWriteRoutine irp =>
    obtain ⟨hrun, heq⟩ := Option.ite_none_right_eq_some.mp h
    obtain rfl := Option.some.inj heq
    exact hs.cancelWriteRoutine hrun hok
  | purgeQueue =>
    obtain rfl := Option.some.inj h
    exact hs.purgeQueue
  | qcEmptyCompletionQueue =>
    obtain rfl := Option.some.inj h
    exact hs.qcEmptyCompletionQueue
  | usbCompletes b transferred status =>
    obtain ⟨⟨hat, -, -⟩, heq⟩ := Option.ite_none_right_eq_some.mp h
    obtain rfl := Option.some.inj heq
    exact hs.writeCompletionRoutine hat transferred status
  | devState presentAndStarted =>
    obtain rfl := Option.some.inj h
    have hsame : s.SameWrites { s with presentAndStarted := presentAndStarted } :=
      ⟨⟨rfl, rfl, rfl, rfl, rfl⟩, rfl, rfl, rfl, rfl, rfl, rfl, rfl, rfl, rfl, rfl, rfl⟩
    exact hs.of_sameWrites hsame (hs.tracked.of_sameThread (s.sameThread_devState presentAndStarted))
      rfl (hs.goesBack.of_same hsame.toSameBuffers rfl)
  | thread wakeup event => exact threadStep_inv hs hok h

end State

/-- In every run in which no cancel routine meets a write between two owners, every accepted write
is completed once, and never while USB has it. -/
theorem writes_kept (cfg : Cfg) (ops : List Op)
    (hok : ∀ p ∈ (writeThread cfg).fires (State.initial cfg) ops, p.2.Orderly p.1) :
    ∀ s ∈ (writeThread cfg).visits (State.initial cfg) ops, s.Kept := by
  have hstep : ∀ s op s' (o : Unit), s.Inv → op.Orderly s → writeThread cfg s op = some (s', o) →
      s'.Inv :=
    fun s op s' o hs hop h => State.step_inv hs hop (step_of_writeThread h)
  intro s hs
  exact (Machine.visits_all_of_fires hstep (State.initial_inv cfg) hok s hs).kept

/-- A write is cancelled while it is with USB. -/
def cancelledPending : List Op :=
  oneSent ++ [.ioCancelIrp ⟨0, [1, 2, 3]⟩, .cancelWriteRoutine ⟨0, [1, 2, 3]⟩,
    .thread false .cancelCurrent, .usbCompletes 0 0 .cancelled, .thread false .kick,
    .thread false .kick, .thread false .completion, .thread false .kick]

theorem writes_kept_pending :
    (∀ p ∈ (writeThread twoBuffers).fires (State.initial twoBuffers) cancelledPending,
      p.2.Orderly p.1) ∧
    ∀ s ∈ (writeThread twoBuffers).visits (State.initial twoBuffers) cancelledPending, s.Kept :=
  have hok : ∀ p ∈ (writeThread twoBuffers).fires (State.initial twoBuffers) cancelledPending,
      p.2.Orderly p.1 := by decide +kernel
  ⟨hok, writes_kept twoBuffers _ hok⟩

/-- The cancel routine completes a write in hand, which is then sent, and one that waits with its
record under FLOW_OFF, which then goes back to the data queue. -/
theorem writes_lost :
    (∃ s ∈ (writeThread twoBuffers).visits (State.initial twoBuffers)
        [.enqueue ⟨0, [1, 2, 3]⟩, .thread false .kick, .thread false .kick,
          .ioCancelIrp ⟨0, [1, 2, 3]⟩, .cancelWriteRoutine ⟨0, [1, 2, 3]⟩, .thread false .kick],
      ∃ irp ∈ s.accepted, irp ∈ s.wtCompletionQueue ∧
        ∃ b ∈ s.mWritePendingQueue, (s.pMwtBuffer b).callingIrp = some irp) ∧
    ∃ s ∈ (writeThread twoBuffers).visits (State.initial twoBuffers)
        [.enqueue ⟨0, [1, 2, 3]⟩, .enqueue ⟨1, [4]⟩, .thread false .kick, .thread false .kick,
          .thread false .kick, .thread false .kick, .thread false .kick, .thread false .kick,
          .thread false .flowOff, .thread false .kick, .usbCompletes 0 0 .cancelled,
          .thread false .completion, .thread false .kick, .thread false .kick,
          .ioCancelIrp ⟨0, [1, 2, 3]⟩, .cancelWriteRoutine ⟨0, [1, 2, 3]⟩,
          .usbCompletes 1 0 .cancelled, .thread false .completion, .thread false .kick],
      ∃ irp ∈ s.accepted, irp ∈ s.wtCompletionQueue ∧ irp ∈ s.writeDataQueue := by
  decide +kernel

end Transport.Mwt
