-- SUMMARY: Burst pacing with equal gaps: the transfer that stops the writes is the one that starts the timer.
import QcomUsb.Transport.WriteBurst

/-!
# Equal gaps

In `EQUAL_GAP` the count of what is sent and the count of what is back go over the same lengths in
the same order. They start anew at the same transfer, so the writes that its send has stopped are
started by the timer that its completion sets.
-/

namespace Transport.Mwt

open Transition Transducer

namespace State

/-- The transfers that the thread has sent and not taken back, in the order in which it sent them. -/
def outstanding (s : State) : List Nat :=
  s.mWriteCompletionQueue ++ s.mWritePendingQueue.filter fun b => s.handBuf ≠ some b

/-- The lengths that they were sent with. -/
def lengths (s : State) : List UInt32 :=
  s.outstanding.map fun b => UInt32.ofNat (s.pMwtBuffer b).length

variable {cfg : Cfg} {s t : State} {b : Nat}

theorem lengths_congr (houtstanding : t.outstanding = s.outstanding)
    (hlength : ∀ b ∈ s.outstanding, (t.pMwtBuffer b).length = (s.pMwtBuffer b).length) :
    t.lengths = s.lengths := by
  rw [lengths, lengths, houtstanding]
  exact List.map_congr_left fun b hb => by rw [hlength b hb]

/-- The same transfers are outstanding, with the same lengths, and none is in hand. -/
structure SameOutstanding (s t : State) : Prop where
  outstanding : t.outstanding = s.outstanding
  lengths : t.lengths = s.lengths

theorem SameBuffers.sameOutstanding (h : s.SameBuffers t) (hhand : t.handBuf = s.handBuf) :
    s.SameOutstanding t := by
  have houtstanding : t.outstanding = s.outstanding := by
    rw [State.outstanding, State.outstanding, h.completion, h.pending, hhand]
  exact ⟨houtstanding, lengths_congr houtstanding fun b _ => by rw [h.pMwtBuffer]⟩

theorem outstanding_of_none (hhand : s.handBuf = none) :
    s.outstanding = s.mWriteCompletionQueue ++ s.mWritePendingQueue := by
  simp [outstanding, hhand]

/-- The buffer in hand is the last one that was taken. -/
theorem outstanding_of_last {front : List Nat} (hhand : s.handBuf = some b)
    (hpending : s.mWritePendingQueue = front ++ [b]) (hb : b ∉ front) :
    s.outstanding = s.mWriteCompletionQueue ++ front := by
  have hfilter : front.filter (fun c => some b ≠ some c) = front := by
    apply List.filter_eq_self.mpr
    intro c hc
    simpa using (ne_of_mem_of_not_mem hc hb).symm
  rw [outstanding, hhand, hpending, List.filter_append, hfilter]
  simp

theorem Tracked.mem_busy_of_outstanding (hb : b ∈ s.outstanding) : b ∈ s.busy := by
  rcases List.mem_append.mp hb with hcompletion | hpending
  · exact List.mem_append_right _ hcompletion
  · exact List.mem_append_left _ (List.mem_filter.mp hpending).1

/-- The first of the transfers with USB comes back. -/
theorem sameOutstanding_writeCompletionRoutine (hat : s.atUsb b)
    (hfirst : s.mWritePendingQueue.head? = some b) (transferred : Nat) (status : NtStatus) :
    s.SameOutstanding (s.writeCompletionRoutine b transferred status) := by
  obtain ⟨rest, hpending⟩ := List.head?_eq_some_iff.mp hfirst
  have hhand : s.handBuf ≠ some b := (atUsb_iff.mp hat).2
  have houtstanding : (s.writeCompletionRoutine b transferred status).outstanding = s.outstanding := by
    have hsame : (s.writeCompletionRoutine b transferred status).handBuf = s.handBuf := rfl
    rw [State.outstanding, State.outstanding, hsame, hpending]
    simp [State.writeCompletionRoutine, hpending, hhand]
  refine ⟨houtstanding, lengths_congr houtstanding fun c _ => ?_⟩
  simp only [State.writeCompletionRoutine]
  rcases eq_or_ne c b with rfl | hne
  · rw [Function.update_self]
  · rw [Function.update_of_ne hne]

/-- A buffer is taken, and not outstanding yet. -/
theorem sameOutstanding_take (hs : s.Tracked) {idle : List Nat} {irp : Option Irp} (rest : List Irp)
    (hidle : s.mWriteIdleQueue = b :: idle) (hhand : s.handBuf = none) :
    s.SameOutstanding ({ s.takeBuffer b idle with writeDataQueue := rest }.goTo (.send b irp)) := by
  have hnew : b ∉ s.busy := by
    have hnodup := hs.nodup
    rw [hidle, List.cons_append] at hnodup
    exact fun hmem => (List.nodup_cons.mp hnodup).1 (List.mem_append_right _ hmem)
  have hpending : b ∉ s.mWritePendingQueue := fun hmem => hnew (List.mem_append_left _ hmem)
  have houtstanding :
      ({ s.takeBuffer b idle with writeDataQueue := rest }.goTo (.send b irp)).outstanding
        = s.outstanding := by
    rw [outstanding_of_last rfl rfl hpending, outstanding_of_none hhand]
    rfl
  refine ⟨houtstanding, lengths_congr houtstanding fun c hc => ?_⟩
  have hne : c ≠ b := fun heq => hnew (heq ▸ Tracked.mem_busy_of_outstanding hc)
  simp only [goTo, takeBuffer, Function.update_of_ne hne]

/-- The transfer in hand is sent. -/
theorem outstanding_send (cfg : Cfg) (hs : s.Tracked) {irp : Option Irp}
    (hphase : s.phase = .send b irp)
    (hlast : s.mWritePendingQueue.getLast? = some b) (hpool : s.mwtSentIrpRecordPool ≠ 0) :
    (s.send cfg b irp).outstanding = s.outstanding ++ [b] ∧
      (s.send cfg b irp).lengths = s.lengths ++ [UInt32.ofNat (s.reqBytes irp)] := by
  obtain ⟨front, hfront⟩ := List.getLast?_eq_some_iff.mp hlast
  have hhand : s.handBuf = some b := by rw [handBuf, hphase]
  have hnodup := hs.nodup_pending
  rw [hfront] at hnodup
  have hb : b ∉ front := fun hmem => (List.nodup_append.mp hnodup).2.2 b hmem b (by simp) rfl
  have hold := outstanding_of_last hhand hfront hb
  have hnew : (s.send cfg b irp).outstanding = s.outstanding ++ [b] := by
    have hsent : (s.send cfg b irp).handBuf = none := by simp [send, hpool, handBuf]
    have hqueues : (s.send cfg b irp).mWriteCompletionQueue = s.mWriteCompletionQueue ∧
        (s.send cfg b irp).mWritePendingQueue = s.mWritePendingQueue := by
      simp [send, hpool]
    rw [outstanding_of_none hsent, hqueues.1, hqueues.2, hold, hfront, List.append_assoc]
  have hfresh : b ∉ s.outstanding := by
    rw [hold, List.mem_append, not_or]
    have hmem : b ∈ s.mWritePendingQueue := by simp [hfront]
    exact ⟨hs.not_mem_completion hmem, hb⟩
  refine ⟨hnew, ?_⟩
  have hlength : ∀ c, (s.send cfg b irp).pMwtBuffer c = if c = b then
      { s.pMwtBuffer b with
        callingIrp := irp
        length := s.reqBytes irp
        offset := s.sendOffset irp
        transferBufferLength := s.reqBytes irp }
      else s.pMwtBuffer c := by
    intro c
    simp [send, hpool, Function.update_apply]
  rw [lengths, lengths, hnew, List.map_append]
  congr 1
  · refine List.map_congr_left fun c hc => ?_
    rw [hlength c, if_neg (ne_of_mem_of_not_mem hc hfresh)]
  · rw [List.map_singleton, hlength b, if_pos rfl]

/-- The thread is done with a buffer, the first of those outstanding. -/
theorem outstanding_processCompletion (cfg : Cfg) (hs : s.Tracked) (hphase : s.phase = .process b) :
    s.outstanding = b :: (s.processCompletion cfg b).outstanding ∧
      s.lengths = UInt32.ofNat (s.pMwtBuffer b).length :: (s.processCompletion cfg b).lengths := by
  obtain ⟨rest, hcompletion⟩ := List.head?_eq_some_iff.mp (hs.processing b hphase)
  have hhand : s.handBuf = none := by simp [handBuf, hphase]
  have hpart := s.sameBuffers_partialTransfer b
  have hreturn := (s.partialTransfer b).sameControl_returnWrite cfg b
  have hbuffers := (s.partialTransfer b).returnWrite_buffers cfg b
  have hafter := (sameWrites_afterCompletion
    (((s.partialTransfer b).returnWrite cfg b).recycle b)).toSameBuffers
  have hqueues : (s.processCompletion cfg b).mWriteCompletionQueue = rest ∧
      (s.processCompletion cfg b).mWritePendingQueue = s.mWritePendingQueue := by
    rw [processCompletion, hafter.completion, hafter.pending, recycle, hreturn.completion,
      hreturn.pending, hpart.completion, hpart.pending, hcompletion]
    simp
  have hgone : (s.processCompletion cfg b).handBuf = none := by
    have hcases : (s.processCompletion cfg b).phase = .loopHead ∨
      (s.processCompletion cfg b).phase = .wait := afterCompletion_phase _
    rcases hcases with h | h <;> simp [handBuf, h]
  have houtstanding : s.outstanding = b :: (s.processCompletion cfg b).outstanding := by
    rw [outstanding_of_none hhand, outstanding_of_none hgone, hqueues.1, hqueues.2, hcompletion]
    rfl
  refine ⟨houtstanding, ?_⟩
  have hother : ∀ c ≠ b, (s.processCompletion cfg b).pMwtBuffer c = s.pMwtBuffer c := by
    intro c hne
    rw [processCompletion, hafter.pMwtBuffer, recycle, hbuffers.2, hpart.pMwtBuffer]
    exact Function.update_of_ne hne ..
  have hnodup : (s.mWriteCompletionQueue ++ s.mWritePendingQueue).Nodup := by
    have hbusy := (List.nodup_append.mp hs.nodup).2.1
    exact List.perm_append_comm.nodup_iff.mp hbusy
  rw [hcompletion, List.cons_append] at hnodup
  rw [lengths, lengths, houtstanding, List.map_cons]
  congr 1
  refine List.map_congr_left fun c hc => ?_
  rw [outstanding_of_none hgone, hqueues.1, hqueues.2] at hc
  rw [hother c (ne_of_mem_of_not_mem hc (List.nodup_cons.mp hnodup).1)]

/-- The buffer in hand is the last of those that are pending. -/
def HandLast (s : State) : Prop := ∀ b, s.handBuf = some b → s.mWritePendingQueue.getLast? = some b

theorem HandLast.of_none (h : s.handBuf = none) : s.HandLast := by
  intro b hb
  rw [h] at hb
  cases hb

/-- What a step does to the outstanding transfers, if they come back in order. -/
theorem step_outstanding {op : Op} (hs : s.Tracked) (hlast : s.HandLast)
    (horder : ∀ b n status, op = .usbCompletes b n status → s.mWritePendingQueue.head? = some b)
    (h : Mwt.step cfg s op = some t) :
    (s.SameOutstanding t ∧ t.HandLast) ∨
    (∃ b irp wakeup event, op = .thread wakeup event ∧ s.phase = .send b irp ∧
      s.mwtSentIrpRecordPool ≠ 0 ∧ t = s.send cfg b irp ∧ t.handBuf = none) ∨
    ∃ b wakeup event, op = .thread wakeup event ∧ s.phase = .process b ∧
      t = s.processCompletion cfg b ∧ t.handBuf = none := by
  obtain hsame | ⟨b, n, status, rfl, hat, rfl⟩ | ⟨wakeup, event, rfl, hthread⟩ := step_cases h
  · left
    have hhand : t.handBuf = s.handBuf := handBuf_congr hsame.phase
    refine ⟨hsame.sameBuffers.sameOutstanding hhand, fun b hb => ?_⟩
    rw [hsame.pending]
    exact hlast b (hhand ▸ hb)
  · left
    have hfirst := horder b n status rfl
    refine ⟨sameOutstanding_writeCompletionRoutine hat hfirst n status, fun c hc => ?_⟩
    obtain ⟨rest, hpending⟩ := List.head?_eq_some_iff.mp hfirst
    have hne : c ≠ b := fun heq => (atUsb_iff.mp hat).2 (heq ▸ hc)
    have hlastc := hlast c hc
    have hrest : (s.writeCompletionRoutine b n status).mWritePendingQueue = rest := by
      simp [writeCompletionRoutine, hpending]
    rw [hrest]
    rw [hpending] at hlastc
    cases rest with
    | nil => exact absurd (Option.some.inj hlastc).symm hne
    | cons d rest => simpa using hlastc
  · cases hphase : s.phase with
    | loopHead =>
        simp only [threadStep, hphase, Option.some.injEq] at hthread
        subst hthread
        have hhand : s.handBuf = none := by simp [handBuf, hphase]
        have hgone : s.loopHead.handBuf = none := by
          rcases s.loopHead_phase with h | h <;> simp [handBuf, h]
        exact .inl ⟨s.sameBuffers_loopHead.sameOutstanding (hgone.trans hhand.symm), .of_none hgone⟩
    | dequeue =>
        simp only [threadStep, hphase, Option.some.injEq] at hthread
        subst hthread
        left
        have hhand : s.handBuf = none := by simp [handBuf, hphase]
        have hwait : ∀ {u : State}, s.SameBuffers u →
            s.SameOutstanding (u.goTo .wait) ∧ (u.goTo .wait).HandLast := fun hu =>
          ⟨(hu.trans (sameWrites_goTo _ _).toSameBuffers).sameOutstanding hhand.symm, .of_none rfl⟩
        obtain heq | ⟨-, heq⟩ | ⟨b, idle, hidle, ⟨-, heq⟩ | ⟨irp, rest, -, -, heq⟩⟩ :=
          s.dequeue_cases wakeup
        · rw [heq]
          exact hwait (.refl s)
        · rw [heq]
          exact hwait s.sameThread_purgeQueue.sameBuffers
        · rw [heq]
          refine ⟨sameOutstanding_take hs s.writeDataQueue hidle hhand, fun c hc => ?_⟩
          obtain rfl := Option.some.inj hc
          simp [goTo, takeBuffer]
        · rw [heq]
          refine ⟨sameOutstanding_take hs rest hidle hhand, fun c hc => ?_⟩
          obtain rfl := Option.some.inj hc
          simp [goTo, takeBuffer]
    | send b irp =>
        simp only [threadStep, hphase, Option.some.injEq] at hthread
        subst hthread
        rcases eq_or_ne s.mwtSentIrpRecordPool 0 with hpool | hpool
        · left
          have hsend : s.send cfg b irp = { s with wild := true } := by simp [send, hpool]
          rw [hsend]
          exact ⟨⟨rfl, rfl⟩, hlast⟩
        · exact .inr (.inl ⟨b, irp, wakeup, event, rfl, rfl, hpool, rfl,
            by simp [send, hpool, handBuf]⟩)
    | wait =>
        simp only [threadStep, hphase, Option.some.injEq] at hthread
        subst hthread
        have hhand : s.handBuf = none := by simp [handBuf, hphase]
        have hgone : (s.waitForCompletion cfg event).handBuf = none := by
          unfold waitForCompletion
          split
          · rfl
          · exact (s.consume_phase cfg event).1
        exact .inl ⟨(s.sameWrites_waitForCompletion cfg event).toSameBuffers.sameOutstanding
          (hgone.trans hhand.symm), .of_none hgone⟩
    | process b =>
        simp only [threadStep, hphase, Option.some.injEq] at hthread
        subst hthread
        have hgone : (s.processCompletion cfg b).handBuf = none := by
          have hcases : (s.processCompletion cfg b).phase = .loopHead ∨
            (s.processCompletion cfg b).phase = .wait := afterCompletion_phase _
          rcases hcases with h | h <;> simp [handBuf, h]
        exact .inr (.inr ⟨b, wakeup, event, rfl, rfl, rfl, hgone⟩)
    | exited => simp [threadStep, hphase] at hthread

/-! ## The thread goes on -/

/-- There is no cancel. -/
structure Uncancelled (s : State) : Prop where
  notCancelled : s.bCancelled = false
  notCancelling : s.mwtState ≠ .cancelling

theorem SameControl.uncancelled (h : s.SameControl t) (hs : s.Uncancelled) : t.Uncancelled :=
  ⟨h.bCancelled.trans hs.notCancelled, h.mwtState ▸ hs.notCancelling⟩

theorem Uncancelled.afterCompletion (hs : s.Uncancelled) : s.afterCompletion.Uncancelled := by
  unfold State.afterCompletion
  split
  · refine ⟨hs.notCancelled, ?_⟩
    dsimp only
    split <;> simp
  · split
    · split
      · exact ⟨hs.notCancelled, hs.notCancelling⟩
      · refine ⟨?_, by simp [endOfDrain, goTo]⟩
        have hcancelling := hs.notCancelling
        simp only [endOfDrain, goTo]
        split
        · exact hs.notCancelled
        · contradiction
        · exact hs.notCancelled
    · exact ⟨hs.notCancelled, hs.notCancelling⟩

theorem Uncancelled.consume (hs : s.Uncancelled) {event : Event} (hevent : event ≠ .cancel) :
    (s.consume cfg event).Uncancelled := by
  cases event with
  | cancel => exact absurd rfl hevent
  | completion =>
    simp only [State.consume]
    split <;> exact ⟨hs.notCancelled, hs.notCancelling⟩
  | cancelCurrent | kick | resume stopped | flowOn stopped =>
    exact ⟨hs.notCancelled, hs.notCancelling⟩
  | purge | stop =>
    simp only [State.consume]
    split
    · exact ⟨hs.notCancelled, MwtState.noConfusion⟩
    · exact ⟨hs.notCancelled, hs.notCancelling⟩
  | flowOff =>
    simp only [State.consume]
    split
    · exact ⟨hs.notCancelled, hs.notCancelling⟩
    · exact ⟨hs.notCancelled, MwtState.noConfusion⟩

/-- Without a CANCEL event the thread is never cancelled. -/
theorem Uncancelled.step {op : Op} (hs : s.Uncancelled)
    (hop : ∀ wakeup, op ≠ .thread wakeup .cancel) (h : Mwt.step cfg s op = some t) :
    t.Uncancelled := by
  obtain hsame | ⟨b, n, status, -, -, rfl⟩ | ⟨wakeup, event, rfl, hthread⟩ := step_cases h
  · exact hsame.toSameControl.uncancelled hs
  · exact ⟨hs.notCancelled, hs.notCancelling⟩
  have hevent : event ≠ .cancel := fun heq => hop wakeup (heq ▸ rfl)
  cases hphase : s.phase with
  | loopHead =>
    simp only [threadStep, hphase, Option.some.injEq] at hthread
    subst hthread
    unfold State.loopHead
    split
    · have hpurge := s.sameThread_purgeQueue.toSameControl.uncancelled hs
      exact ⟨hpurge.notCancelled, hpurge.notCancelling⟩
    · split
      · exact ⟨hs.notCancelled, hs.notCancelling⟩
      · split <;> exact ⟨hs.notCancelled, hs.notCancelling⟩
  | dequeue =>
    simp only [threadStep, hphase, Option.some.injEq] at hthread
    subst hthread
    obtain heq | ⟨hcancelled, -⟩ | ⟨b, idle, -, ⟨-, heq⟩ | ⟨irp, rest, -, -, heq⟩⟩ :=
      s.dequeue_cases wakeup
    · rw [heq]
      exact ⟨hs.notCancelled, hs.notCancelling⟩
    · rw [hs.notCancelled] at hcancelled
      cases hcancelled
    · rw [heq]
      exact ⟨hs.notCancelled, hs.notCancelling⟩
    · rw [heq]
      exact ⟨hs.notCancelled, hs.notCancelling⟩
  | send b irp =>
    simp only [threadStep, hphase, Option.some.injEq] at hthread
    subst hthread
    unfold State.send
    split <;> exact ⟨hs.notCancelled, hs.notCancelling⟩
  | wait =>
    simp only [threadStep, hphase, Option.some.injEq] at hthread
    subst hthread
    simp only [waitForCompletion, hs.notCancelled, Bool.false_eq_true, and_false, if_false]
    exact hs.consume hevent
  | process b =>
    simp only [threadStep, hphase, Option.some.injEq] at hthread
    subst hthread
    have hpart := (s.sameControl_partialTransfer b).uncancelled hs
    have hreturn := ((s.partialTransfer b).sameControl_returnWrite cfg b).uncancelled hpart
    have hrecycle : (((s.partialTransfer b).returnWrite cfg b).recycle b).Uncancelled :=
      ⟨hreturn.notCancelled, hreturn.notCancelling⟩
    exact hrecycle.afterCompletion
  | exited => simp [threadStep, hphase] at hthread

/-- Then it does not exit. -/
theorem Uncancelled.ne_exited {wakeup : Bool} {event : Event} (hs : s.Uncancelled)
    (hphase : s.phase = .wait) (h : threadStep cfg s wakeup event = some t) : t.phase ≠ .exited := by
  simp only [threadStep, hphase, Option.some.injEq] at h
  subst h
  simp only [waitForCompletion, hs.notCancelled, Bool.false_eq_true, and_false, if_false]
  cases event with
  | completion =>
    simp only [State.consume]
    split <;> exact Phase.noConfusion
  | cancelCurrent | kick | resume stopped | flowOn stopped => exact Phase.noConfusion
  | cancel | purge | stop | flowOff =>
    simp only [State.consume]
    split <;> exact Phase.noConfusion

end State

/-- Bursts are enabled, with equal gaps. -/
structure EqualGap (cfg : BurstCfg) : Prop where
  burstFashion : cfg.burstFashion = .equalGap
  burstSize : cfg.burstSize ≠ 0
  burstInterval : cfg.burstInterval ≠ 0

theorem EqualGap.enabled {cfg : BurstCfg} (h : EqualGap cfg) : cfg.enabled = true := by
  simp [BurstCfg.enabled, h.burstSize, h.burstInterval]

namespace BurstState

/-! ## The two counts -/

/-- The outstanding transfers among the first `n` that were sent. -/
def sentBefore (s : BurstState) (n : Nat) : List Nat := s.mwt.outstanding.take (n - s.returned)

/-- The `n`th transfer is outstanding, and its completion will start the timer. -/
def Due (cfg : BurstCfg) (s : BurstState) (n : Nat) : Prop :=
  ∃ i, n = s.returned + i + 1 ∧
    (outputs (burstStep cfg.burstSize) s.burstCount s.mwt.lengths)[i]? = some true

/-- The two counts agree on where a burst ends. -/
structure Paced (cfg : BurstCfg) (s : BurstState) : Prop where
  tracked : s.mwt.Tracked
  handLast : s.mwt.HandLast
  uncancelled : s.mwt.Uncancelled
  behind : Behind (burstStep cfg.burstSize) s.burstCount s.burstPendingCount s.mwt.lengths
  sent : s.sent = s.returned + s.mwt.outstanding.length
  stop : ∀ n, s.burstStop = some n → s.Due cfg n ∨ s.armed = true ∨ s.dpcQueued = true

variable {cfg : BurstCfg} {s s' : BurstState} {t : State} {n : Nat}

theorem Due.sentBefore_ne_nil (h : s.Due cfg n) : s.sentBefore n ≠ [] := by
  obtain ⟨i, rfl, hout⟩ := h
  have hlt : i < s.mwt.outstanding.length := by
    obtain ⟨hi, -⟩ := List.getElem?_eq_some_iff.mp hout
    simpa [State.lengths] using hi
  apply List.ne_nil_of_length_pos
  rw [sentBefore, List.length_take]
  omega

/-- The pacing has not moved, and a stop that is left is an old one. -/
structure SamePacing (s s' : BurstState) : Prop where
  burstPendingCount : s'.burstPendingCount = s.burstPendingCount
  burstCount : s'.burstCount = s.burstCount
  sent : s'.sent = s.sent
  returned : s'.returned = s.returned
  timer : s.armed = true ∨ s.dpcQueued = true → s'.armed = true ∨ s'.dpcQueued = true
  burstStop : ∀ n, s'.burstStop = some n → s.burstStop = some n

theorem Paced.of_same (hs : s.Paced cfg) (hpacing : s.SamePacing s')
    (hout : s.mwt.SameOutstanding s'.mwt) (htracked : s'.mwt.Tracked) (hlast : s'.mwt.HandLast)
    (huncancelled : s'.mwt.Uncancelled) : s'.Paced cfg where
  tracked := htracked
  handLast := hlast
  uncancelled := huncancelled
  behind := by
    rw [hpacing.burstCount, hpacing.burstPendingCount, hout.lengths]
    exact hs.behind
  sent := by
    rw [hpacing.sent, hpacing.returned, hout.outstanding]
    exact hs.sent
  stop := by
    intro n hn
    rcases hs.stop n (hpacing.burstStop n hn) with hdue | htimer
    · left
      rw [Due, hpacing.returned, hpacing.burstCount, hout.lengths]
      exact hdue
    · exact .inr (hpacing.timer htimer)

theorem initial_paced (cfg : BurstCfg) : (initial cfg).Paced cfg where
  tracked := State.initial_tracked cfg.mwt
  handLast := .of_none rfl
  uncancelled := ⟨rfl, MwtState.noConfusion⟩
  behind := rfl
  sent := rfl
  stop := by simp [initial]

/-- The events other than a transfer that is sent or has come back. -/
theorem samePacing_threadStep {wakeup : Bool} {event : State.Event} (acquires : Bool)
    (hs : s.mwt.Uncancelled) (h : Mwt.threadStep cfg.mwt s.mwt wakeup event = some t)
    (hsend : ∀ b irp, s.mwt.phase = .send b irp → s.mwt.mwtSentIrpRecordPool = 0)
    (hprocess : ∀ b, s.mwt.phase ≠ .process b) :
    s.SamePacing (s.threadStep cfg acquires event t) ∧ (s.threadStep cfg acquires event t).mwt = t := by
  cases hphase : s.mwt.phase with
  | loopHead | dequeue | exited =>
    simp only [BurstState.threadStep, hphase]
    exact ⟨⟨rfl, rfl, rfl, rfl, id, fun _ => id⟩, trivial⟩
  | send b irp =>
    simp only [BurstState.threadStep, hphase, hsend b irp hphase, if_true]
    exact ⟨⟨rfl, rfl, rfl, rfl, id, fun _ => id⟩, trivial⟩
  | process b => exact absurd hphase (hprocess b)
  | wait =>
    simp only [BurstState.threadStep, hphase, if_neg (hs.ne_exited hphase h)]
    cases event with
    | resume stopped | flowOn stopped =>
      refine ⟨⟨rfl, rfl, rfl, rfl, id, fun n hn => ?_⟩, rfl⟩
      dsimp only [observe] at hn
      split at hn
      · exact hn
      · cases hn
    | completion | cancelCurrent | kick | cancel | purge | stop | flowOff =>
      exact ⟨⟨rfl, rfl, rfl, rfl, id, fun _ => id⟩, rfl⟩

theorem threadStep_send (hcfg : EqualGap cfg) {b : Nat} {irp : Option Irp}
    (acquires : Bool) (event : State.Event) (t : State) (hphase : s.mwt.phase = .send b irp)
    (hpool : s.mwt.mwtSentIrpRecordPool ≠ 0) {count : UInt32} {full : Bool}
    (hburst : burstStep cfg.burstSize s.burstPendingCount (UInt32.ofNat (s.mwt.reqBytes irp)) =
      (count, full)) :
    s.threadStep cfg acquires event t =
      { s with
        mwt := { t with bWriteStopped := t.bWriteStopped || full }
        burstPendingCount := count
        burstStop := if full then some (s.sent + 1) else s.burstStop
        sent := s.sent + 1
        sentStopped := s.sentStopped || s.stopAcked } := by
  simp [BurstState.threadStep, hphase, hpool, burstCheckSend, hcfg.enabled, hcfg.burstFashion, hburst]

theorem threadStep_process (hcfg : EqualGap cfg) {b : Nat} (event : State.Event) (t : State)
    (hphase : s.mwt.phase = .process b) {count : UInt32} {full : Bool}
    (hburst : burstStep cfg.burstSize s.burstCount (UInt32.ofNat (s.mwt.pMwtBuffer b).length) =
      (count, full)) :
    s.threadStep cfg true event t =
      { s with
        mwt := t
        burstCount := count
        acquired := if full then s.acquired + 1 else s.acquired
        burstTimerLaunched := s.burstTimerLaunched || full
        armed := s.armed || full
        returned := s.returned + 1
        stopAcked := s.stopAcked || (s.mwt.stopOwed && !t.stopOwed) } := by
  cases full <;>
    simp [BurstState.threadStep, hphase, burstCheckCompletion, hcfg.enabled, hcfg.burstFashion, hburst]

/-- A transfer is sent. -/
theorem Paced.send (hcfg : EqualGap cfg) (hs : s.Paced cfg) {b : Nat} {irp : Option Irp}
    (acquires : Bool) (event : State.Event) (hphase : s.mwt.phase = .send b irp)
    (hpool : s.mwt.mwtSentIrpRecordPool ≠ 0) (hsend : t = s.mwt.send cfg.mwt b irp)
    (htracked : t.Tracked) (hhand : t.handBuf = none) (huncancelled : t.Uncancelled) :
    (s.threadStep cfg acquires event t).Paced cfg := by
  have hlast : s.mwt.mWritePendingQueue.getLast? = some b := by
    apply hs.handLast
    rw [State.handBuf, hphase]
  obtain ⟨houtstanding, hlengths⟩ :=
    State.outstanding_send cfg.mwt hs.tracked hphase hlast hpool
  rw [← hsend] at houtstanding hlengths
  rcases hburst : burstStep cfg.burstSize s.burstPendingCount (UInt32.ofNat (s.mwt.reqBytes irp))
    with ⟨count, full⟩
  rw [threadStep_send hcfg acquires event t hphase hpool hburst]
  have hahead := hs.behind.ahead (a := UInt32.ofNat (s.mwt.reqBytes irp))
  have houtputs := hs.behind.outputs_snoc (a := UInt32.ofNat (s.mwt.reqBytes irp))
  rw [hburst, ← hlengths] at hahead houtputs
  refine ⟨htracked.of_same ⟨rfl, rfl, rfl, rfl, rfl⟩ rfl htracked.processing, fun c hc => ?_,
    ⟨huncancelled.notCancelled, huncancelled.notCancelling⟩, hahead, ?_, fun n hn => ?_⟩
  · rw [← State.HandLast.of_none hhand c hc]
  · have hsent := hs.sent
    have hlength : t.outstanding.length = s.mwt.outstanding.length + 1 := by simp [houtstanding]
    change s.sent + 1 = s.returned + t.outstanding.length
    omega
  · have hout : outputs (burstStep cfg.burstSize) s.burstCount t.lengths =
        outputs (burstStep cfg.burstSize) s.burstCount s.mwt.lengths ++ [full] := houtputs
    cases full with
    | true =>
      -- the transfer that is sent is the one that its completion waits for
      obtain rfl : s.sent + 1 = n := Option.some.inj hn
      refine .inl ⟨s.mwt.outstanding.length, by rw [hs.sent], ?_⟩
      change (outputs (burstStep cfg.burstSize) s.burstCount t.lengths)[_]? = _
      rw [hout]
      simp [State.lengths]
    | false =>
      apply (hs.stop n hn).imp_left
      rintro ⟨i, hi, hdue⟩
      obtain ⟨hlt, -⟩ := List.getElem?_eq_some_iff.mp hdue
      refine ⟨i, hi, ?_⟩
      change (outputs (burstStep cfg.burstSize) s.burstCount t.lengths)[_]? = _
      rw [hout, List.getElem?_append_left hlt, hdue]

/-- A transfer has come back. -/
theorem Paced.process (hcfg : EqualGap cfg) (hs : s.Paced cfg) {b : Nat} (event : State.Event)
    (hphase : s.mwt.phase = .process b) (hprocess : t = s.mwt.processCompletion cfg.mwt b)
    (htracked : t.Tracked) (hhand : t.handBuf = none) (huncancelled : t.Uncancelled) :
    (s.threadStep cfg true event t).Paced cfg := by
  obtain ⟨houtstanding, hlengths⟩ :=
    State.outstanding_processCompletion cfg.mwt hs.tracked hphase
  rw [← hprocess] at houtstanding hlengths
  rcases hburst : burstStep cfg.burstSize s.burstCount (UInt32.ofNat (s.mwt.pMwtBuffer b).length)
    with ⟨count, full⟩
  rw [threadStep_process hcfg event t hphase hburst]
  have hbehind := hs.behind
  rw [hlengths] at hbehind
  have hfollow := hbehind.follow
  rw [hburst] at hfollow
  refine ⟨htracked, .of_none hhand, huncancelled, hfollow, ?_, fun n hn => ?_⟩
  · have hsent := hs.sent
    rw [houtstanding, List.length_cons] at hsent
    change s.sent = s.returned + 1 + t.outstanding.length
    omega
  · cases full with
    | true => exact .inr (.inl (Bool.or_true _))
    | false =>
      rcases hs.stop n hn with ⟨i, rfl, hdue⟩ | htimer
      · rw [hlengths, outputs, hburst] at hdue
        cases i with
        | zero => cases hdue
        | succ i => exact .inl ⟨i, by dsimp only; omega, hdue⟩
      · exact .inr (htimer.imp_left fun harmed => by rw [harmed]; rfl)

/-! ## Every step -/

/-- The transfers come back in order, the remove lock is acquired, and the thread is not cancelled. -/
def Steady (s : BurstState) : BurstOp → Prop
  | .mwt (.usbCompletes b _ _) _ => s.mwt.mWritePendingQueue.head? = some b
  | .mwt (.thread _ event) acquires => acquires = true ∧ event ≠ .cancel
  | _ => True

section

variable {wakeup : Bool} {event : State.Event} (hs : s.Paced cfg) (hsame : s.mwt.SameOutstanding t)
  (h : Mwt.threadStep cfg.mwt s.mwt wakeup event = some t)

include hs hsame h

/-- A step that leaves the outstanding transfers has not sent one. -/
theorem Paced.pool_eq_zero {b : Nat} {irp : Option Irp} (hphase : s.mwt.phase = .send b irp) :
    s.mwt.mwtSentIrpRecordPool = 0 := by
  by_contra hpool
  have hlast : s.mwt.mWritePendingQueue.getLast? = some b := by
    apply hs.handLast
    rw [State.handBuf, hphase]
  obtain ⟨hmore, -⟩ := State.outstanding_send cfg.mwt hs.tracked hphase hlast hpool
  simp only [Mwt.threadStep, hphase, Option.some.injEq] at h
  rw [h, hsame.outstanding] at hmore
  exact absurd hmore (by simp)

/-- And none has come back. -/
theorem Paced.ne_process {b : Nat} (hphase : s.mwt.phase = .process b) : False := by
  obtain ⟨hless, -⟩ := State.outstanding_processCompletion cfg.mwt hs.tracked hphase
  simp only [Mwt.threadStep, hphase, Option.some.injEq] at h
  rw [h, hsame.outstanding] at hless
  exact absurd hless (List.cons_ne_self b _).symm

end

instance (s : BurstState) : (op : BurstOp) → Decidable (s.Steady op)
  | .mwt (.usbCompletes ..) _ => inferInstanceAs (Decidable (_ = _))
  | .mwt (.thread ..) _ => inferInstanceAs (Decidable (_ ∧ _))
  | .mwt (.enqueue _) _ | .mwt (.ioCancelIrp _) _ | .mwt (.cancelWriteRoutine _) _ | .mwt .purgeQueue _
  | .mwt .qcEmptyCompletionQueue _ | .mwt (.devState _) _ | .expire | .dpcStart | .dpcEnd =>
    inferInstanceAs (Decidable True)

theorem Paced.step (hcfg : EqualGap cfg) (hs : s.Paced cfg) {op : BurstOp} (hop : s.Steady op)
    (h : s.step cfg op = some s') : s'.Paced cfg := by
  cases op with
  | expire =>
    obtain ⟨-, heq⟩ := Option.ite_none_right_eq_some.mp h
    obtain rfl := Option.some.inj heq
    exact hs.of_same ⟨rfl, rfl, rfl, rfl, fun _ => .inr rfl, fun _ => id⟩ ⟨rfl, rfl⟩ hs.tracked
      hs.handLast hs.uncancelled
  | dpcStart =>
    obtain ⟨-, heq⟩ := Option.ite_none_right_eq_some.mp h
    obtain rfl := Option.some.inj heq
    have hno : ∀ n, s.dpcStart.burstStop ≠ some n := by simp [BurstState.dpcStart]
    exact ⟨hs.tracked.of_same ⟨rfl, rfl, rfl, rfl, rfl⟩ rfl hs.tracked.processing, hs.handLast,
      ⟨hs.uncancelled.notCancelled, hs.uncancelled.notCancelling⟩, hs.behind, hs.sent,
      fun n hn => absurd hn (hno n)⟩
  | dpcEnd =>
    obtain ⟨-, heq⟩ := Option.ite_none_right_eq_some.mp h
    obtain rfl := Option.some.inj heq
    exact hs.of_same ⟨rfl, rfl, rfl, rfl, id, fun _ => id⟩ ⟨rfl, rfl⟩ hs.tracked hs.handLast
      hs.uncancelled
  | mwt op acquires =>
    obtain ⟨t, ht, heq⟩ := Option.map_eq_some_iff.mp h
    have htracked := State.step_tracked hs.tracked ht
    have horder : ∀ b n status, op = .usbCompletes b n status →
        s.mwt.mWritePendingQueue.head? = some b := by
      rintro b n status rfl
      exact hop
    have hcancel : ∀ wakeup, op ≠ .thread wakeup .cancel := by
      rintro wakeup rfl
      exact hop.2 rfl
    have huncancelled := hs.uncancelled.step hcancel ht
    have hout := State.step_outstanding hs.tracked hs.handLast horder ht
    cases op with
    | thread wakeup event =>
      obtain rfl : acquires = true := hop.1
      obtain rfl : s.threadStep cfg true event t = s' := heq
      obtain ⟨hsame, hlast⟩ | ⟨b, irp, -, -, -, hphase, hpool, hsend, hhand⟩ |
        ⟨b, -, -, -, hphase, hprocess, hhand⟩ := hout
      · have hthread : Mwt.threadStep cfg.mwt s.mwt wakeup event = some t := ht
        have hnotSent : ∀ b irp, s.mwt.phase = .send b irp → s.mwt.mwtSentIrpRecordPool = 0 :=
          fun b irp hphase => hs.pool_eq_zero hsame hthread hphase
        have hnotBack : ∀ b, s.mwt.phase ≠ .process b :=
          fun b hphase => hs.ne_process hsame hthread hphase
        obtain ⟨hpacing, hmwt⟩ :=
          samePacing_threadStep true hs.uncancelled hthread hnotSent hnotBack
        apply hs.of_same hpacing <;> rw [hmwt] <;> assumption
      · exact hs.send hcfg true event hphase hpool hsend htracked hhand huncancelled
      · exact hs.process hcfg event hphase hprocess htracked hhand huncancelled
    | enqueue irp | ioCancelIrp irp | cancelWriteRoutine irp | purgeQueue | qcEmptyCompletionQueue
    | usbCompletes b n status | devState presentAndStarted =>
      subst heq
      obtain ⟨hsame, hlast⟩ | ⟨_, _, _, _, hthread, -⟩ | ⟨_, _, _, hthread, -⟩ := hout
      · exact hs.of_same ⟨rfl, rfl, rfl, rfl, id, fun _ => id⟩ hsame htracked hlast huncancelled
      · cases hthread
      · cases hthread

end BurstState

/-- With equal gaps the writer is not wedged: while the writes are stopped behind a burst, one of the
transfers that were sent before is outstanding, or `BurstTimer` is armed or its DPC queued. -/
theorem burstStop_restarts (cfg : BurstCfg) (hcfg : EqualGap cfg) (ops : List BurstOp)
    (hops : ∀ p ∈ (writeBurst cfg).fires (.initial cfg) ops, p.1.Steady p.2) :
    ∀ s ∈ (writeBurst cfg).visits (.initial cfg) ops, ∀ n, s.burstStop = some n →
      s.sentBefore n ≠ [] ∨ s.armed = true ∨ s.dpcQueued = true := by
  have hstep : ∀ s op s' o, s.Paced cfg → s.Steady op → writeBurst cfg s op = some (s', o) →
      s'.Paced cfg := fun s op s' o hs hop h => hs.step hcfg hop (step_of_writeBurst h)
  intro s hs n hn
  have hpaced := Machine.visits_all_of_fires hstep (BurstState.initial_paced cfg) hops s hs
  exact (hpaced.stop n hn).imp_left BurstState.Due.sentBefore_ne_nil

theorem burstStop_restarts_gapRun :
    EqualGap burstsOfThree ∧
      ((writeBurst burstsOfThree).fires (.initial burstsOfThree) gapRun).length = gapRun.length ∧
      ∀ s ∈ (writeBurst burstsOfThree).visits (.initial burstsOfThree) gapRun,
        ∀ n, s.burstStop = some n → s.sentBefore n ≠ [] ∨ s.armed = true ∨ s.dpcQueued = true := by
  have hcfg : EqualGap burstsOfThree := ⟨rfl, by decide, by decide⟩
  exact ⟨hcfg, by decide +kernel, burstStop_restarts burstsOfThree hcfg gapRun (by decide +kernel)⟩

end Transport.Mwt
