-- SUMMARY: Burst pacing against the remove lock and against stops: which steps keep both.
import QcomUsb.Transport.WriteBurst

/-!
# The remove lock of the timer

Each arming of `BurstTimer` should hold the remove lock until its DPC is done, and a WRITE_STOP should
hold the writes until they are resumed. In `EQUAL_INTERVAL` the timer is started without the lock, in
`EQUAL_GAP` it can be started while it is armed, and the DPC starts the writes whoever has stopped
them.
-/

namespace Transport.Mwt

open Transition

namespace State

/-! ## The writes stay stopped -/

/-- What was stopped is stopped. -/
def KeepsStop (s t : State) : Prop := s.bWriteStopped = true → t.bWriteStopped = true

variable {cfg : Cfg} {s t u : State}

theorem KeepsStop.of_eq (h : t.bWriteStopped = s.bWriteStopped) :
    s.KeepsStop t := fun hs => h.trans hs

theorem KeepsStop.trans (h : s.KeepsStop t) (h' : t.KeepsStop u) :
    s.KeepsStop u := fun hs => h' (h hs)

theorem bWriteStopped_purgeIrp (s : State) (irp : Irp) :
    (s.purgeIrp irp).bWriteStopped = s.bWriteStopped := by
  unfold purgeIrp
  split <;> rfl

theorem bWriteStopped_purgeQueue (s : State) : s.purgeQueue.bWriteStopped = s.bWriteStopped := by
  unfold purgeQueue
  have hfoldl : ∀ (irps : List Irp) (s : State),
      (irps.foldl purgeIrp s).bWriteStopped = s.bWriteStopped := by
    intro irps
    induction irps with
    | nil => exact fun _ => rfl
    | cons irp irps ih => exact fun s => (ih _).trans (s.bWriteStopped_purgeIrp irp)
  rw [hfoldl]

theorem bWriteStopped_cancelWriteRoutine (s : State) (irp : Irp) :
    (s.cancelWriteRoutine irp).bWriteStopped = s.bWriteStopped := by
  simp only [cancelWriteRoutine]
  split
  · rfl
  · split
    · rfl
    · split <;> rfl

variable (cfg) in
theorem keepsStop_writeIrpCompletion (s : State) (b : Nat) (status : NtStatus) :
    s.KeepsStop (s.writeIrpCompletion cfg b status) := by
  have hcount : s.KeepsStop (s.countError cfg status) := by
    intro hs
    unfold countError
    split
    · exact hs
    · split
      · rfl
      · exact hs
  refine hcount.trans (.of_eq ?_)
  simp only [writeIrpCompletion]
  split
  · rfl
  · split <;> rfl

variable (cfg) in
theorem keepsStop_returnWrite (s : State) (b : Nat) : s.KeepsStop (s.returnWrite cfg b) := by
  have hmark : ∀ removeIrp status, s.KeepsStop (s.markAndCheckReturnedIrp cfg b removeIrp status) := by
    intro removeIrp status
    simp only [markAndCheckReturnedIrp]
    split
    · split
      · exact .of_eq rfl
      · exact fun hs => keepsStop_writeIrpCompletion cfg _ b status hs
    · exact .of_eq rfl
  unfold returnWrite
  simp only
  split
  · split
    · exact (hmark _ _).trans (.of_eq rfl)
    · exact hmark _ _
  · exact (hmark _ _).trans (keepsStop_writeIrpCompletion cfg _ b _)

theorem bWriteStopped_afterCompletion (s : State) :
    s.afterCompletion.bWriteStopped = s.bWriteStopped := by
  unfold afterCompletion
  split
  · rfl
  · split
    · split
      · rfl
      · simp only [endOfDrain, goTo]
        split <;> rfl
    · rfl

variable (cfg) in
theorem keepsStop_processCompletion (s : State) (b : Nat) :
    s.KeepsStop (s.processCompletion cfg b) := by
  have hpart : s.KeepsStop (s.partialTransfer b) := by
    simp only [partialTransfer]
    split
    · exact .of_eq rfl
    · split <;> exact .of_eq rfl
  have hreturn := keepsStop_returnWrite cfg (s.partialTransfer b) b
  exact (hpart.trans hreturn).trans (.of_eq (bWriteStopped_afterCompletion _))

/-- Other than by RESUME and FLOW_ON. -/
theorem keepsStop_consume (s : State) {event : Event} (hresume : ∀ stopped, event ≠ .resume stopped)
    (hflowOn : ∀ stopped, event ≠ .flowOn stopped) : s.KeepsStop (s.consume cfg event) := by
  cases event with
  | completion =>
    simp only [consume]
    split <;> exact .of_eq rfl
  | cancelCurrent | kick => exact .of_eq rfl
  | cancel | stop | flowOff =>
    intro _
    simp only [consume]
    split <;> rfl
  | purge =>
    simp only [consume]
    split <;> exact .of_eq rfl
  | resume stopped => exact absurd rfl (hresume stopped)
  | flowOn stopped => exact absurd rfl (hflowOn stopped)

/-- The writes are stopped, and no transfer is on its way. -/
structure Halted (s : State) : Prop where
  bWriteStopped : s.bWriteStopped = true
  notDequeue : s.phase ≠ .dequeue
  notSend : ∀ b irp, s.phase ≠ .send b irp

theorem Halted.keeps (hs : s.Halted) (hstop : s.KeepsStop t) (hphase : t.phase = s.phase) :
    t.Halted where
  bWriteStopped := hstop hs.bWriteStopped
  notDequeue := hphase ▸ hs.notDequeue
  notSend := hphase ▸ hs.notSend

variable (cfg) in
/-- The thread goes on to the head of its loop, or waits, or processes a completed buffer. -/
theorem consume_next (s : State) (event : Event) :
    (s.consume cfg event).phase = .loopHead ∨ (s.consume cfg event).phase = .wait ∨
      ∃ b, (s.consume cfg event).phase = .process b := by
  cases event with
  | completion =>
    simp only [consume]
    split
    · exact .inl rfl
    · exact .inr (.inr ⟨_, rfl⟩)
  | cancelCurrent | kick | resume stopped | flowOn stopped => exact .inl rfl
  | cancel | purge | stop =>
    simp only [consume]
    split
    · exact .inr (.inl rfl)
    · exact .inl rfl
  | flowOff =>
    simp only [consume]
    split <;> exact .inl rfl

theorem consume_halted {event : Event} (hstopped : (s.consume cfg event).bWriteStopped = true) :
    (s.consume cfg event).Halted := by
  refine ⟨hstopped, ?_, ?_⟩ <;> obtain h | h | ⟨b, h⟩ := s.consume_next cfg event <;> simp [h]

theorem Halted.afterCompletion (hstopped : s.bWriteStopped = true) : s.afterCompletion.Halted := by
  refine ⟨(bWriteStopped_afterCompletion s).trans hstopped, ?_, ?_⟩ <;>
    rcases s.afterCompletion_phase with h | h <;> simp [h]

end State

/-- The events that start the writes. -/
def State.Event.starts : State.Event → Bool
  | .resume _ | .flowOn _ => true
  | _ => false

namespace State

variable {cfg : Cfg} {s t : State} {wakeup : Bool} {event : Event}

theorem Halted.threadStep (hs : s.Halted) (hevent : s.phase = .wait → event.starts = false)
    (h : Mwt.threadStep cfg s wakeup event = some t) : t.Halted := by
  cases hphase : s.phase with
  | loopHead =>
    simp only [Mwt.threadStep, hphase, Option.some.injEq] at h
    subst h
    unfold State.loopHead
    split
    · exact ⟨(s.bWriteStopped_purgeQueue).trans hs.bWriteStopped, Phase.noConfusion,
        fun _ _ => Phase.noConfusion⟩
    · rw [if_pos hs.bWriteStopped]
      exact ⟨hs.bWriteStopped, Phase.noConfusion, fun _ _ => Phase.noConfusion⟩
  | dequeue => exact absurd hphase hs.notDequeue
  | send b irp => exact absurd hphase (hs.notSend b irp)
  | wait =>
    simp only [Mwt.threadStep, hphase, Option.some.injEq] at h
    subst h
    unfold waitForCompletion
    split
    · exact ⟨hs.bWriteStopped, Phase.noConfusion, fun _ _ => Phase.noConfusion⟩
    · apply consume_halted
      have hstarts := hevent hphase
      exact keepsStop_consume s (by rintro _ rfl; cases hstarts) (by rintro _ rfl; cases hstarts)
        hs.bWriteStopped
  | process b =>
    simp only [Mwt.threadStep, hphase, Option.some.injEq] at h
    subst h
    apply Halted.afterCompletion
    have hkeeps := keepsStop_processCompletion cfg s b hs.bWriteStopped
    exact (bWriteStopped_afterCompletion _).symm.trans hkeeps
  | exited => simp [Mwt.threadStep, hphase] at h

/-- What is not a step of the thread. -/
theorem step_keepsStop {op : Op} (hop : ∀ wakeup event, op ≠ .thread wakeup event)
    (h : Mwt.step cfg s op = some t) :
    s.KeepsStop t ∧ t.phase = s.phase ∧ t.stopOwed = s.stopOwed := by
  have hrest : t.phase = s.phase ∧ t.stopOwed = s.stopOwed := by
    obtain hsame | ⟨b, n, status, rfl, -, rfl⟩ | ⟨wakeup, event, rfl, -⟩ := step_cases h
    · exact ⟨hsame.phase, hsame.stopOwed⟩
    · exact ⟨rfl, rfl⟩
    · exact absurd rfl (hop wakeup event)
  refine ⟨.of_eq ?_, hrest⟩
  cases op with
  | enqueue irp =>
    obtain ⟨-, heq⟩ := Option.ite_none_right_eq_some.mp h
    obtain rfl := Option.some.inj heq
    simp only [State.enqueue]
    split <;> rfl
  | ioCancelIrp irp =>
    obtain rfl := Option.some.inj h
    rfl
  | cancelWriteRoutine irp =>
    obtain ⟨-, heq⟩ := Option.ite_none_right_eq_some.mp h
    obtain rfl := Option.some.inj heq
    exact s.bWriteStopped_cancelWriteRoutine irp
  | purgeQueue =>
    obtain rfl := Option.some.inj h
    exact s.bWriteStopped_purgeQueue
  | qcEmptyCompletionQueue =>
    obtain rfl := Option.some.inj h
    unfold State.qcEmptyCompletionQueue
    split <;> rfl
  | usbCompletes b transferred status =>
    obtain ⟨-, heq⟩ := Option.ite_none_right_eq_some.mp h
    obtain rfl := Option.some.inj heq
    rfl
  | devState presentAndStarted =>
    obtain rfl := Option.some.inj h
    rfl
  | thread wakeup event => exact absurd rfl (hop wakeup event)

/-! ## A stop that is owed -/

/-- A step of the thread owes no new stop, unless it takes a STOP event. -/
theorem stopOwed_threadStep (hevent : s.phase = .wait → event ≠ .stop)
    (h : Mwt.threadStep cfg s wakeup event = some t) (howed : t.stopOwed = true) :
    s.stopOwed = true := by
  cases hphase : s.phase with
  | loopHead =>
    simp only [Mwt.threadStep, hphase, Option.some.injEq] at h
    subst h
    unfold State.loopHead at howed
    split at howed
    · exact (s.sameThread_purgeQueue.stopOwed).symm.trans howed
    · split at howed
      · exact howed
      · split at howed <;> exact howed
  | dequeue =>
    simp only [Mwt.threadStep, hphase, Option.some.injEq] at h
    subst h
    obtain heq | ⟨-, heq⟩ | ⟨b, idle, -, ⟨-, heq⟩ | ⟨irp, rest, -, -, heq⟩⟩ := s.dequeue_cases wakeup
    · exact (heq ▸ howed :)
    · rw [heq] at howed
      exact (s.sameThread_purgeQueue.stopOwed).symm.trans howed
    · rw [heq] at howed
      exact howed
    · rw [heq] at howed
      exact howed
  | send b irp =>
    simp only [Mwt.threadStep, hphase, Option.some.injEq] at h
    subst h
    unfold State.send at howed
    split at howed <;> exact howed
  | wait =>
    simp only [Mwt.threadStep, hphase, Option.some.injEq] at h
    subst h
    unfold waitForCompletion at howed
    split at howed
    · exact howed
    · cases event with
      | stop => exact absurd rfl (hevent hphase)
      | completion | cancel | purge | flowOff =>
        simp only [consume] at howed
        split at howed <;> exact howed
      | cancelCurrent | kick | resume stopped | flowOn stopped => exact howed
  | process b =>
    simp only [Mwt.threadStep, hphase, Option.some.injEq] at h
    subst h
    have hpart := (s.sameControl_partialTransfer b).stopOwed
    have hreturn := ((s.partialTransfer b).sameControl_returnWrite cfg b).stopOwed
    have hafter : ∀ u : State, u.afterCompletion.stopOwed = true → u.stopOwed = true := by
      intro u hu
      unfold State.afterCompletion at hu
      split at hu
      · exact hu
      · split at hu
        · split at hu
          · exact hu
          · simp only [endOfDrain, goTo] at hu
            split at hu
            · cases hu
            · exact hu
            · exact hu
        · exact hu
    exact hpart.symm.trans (hreturn.symm.trans
      (hafter (((s.partialTransfer b).returnWrite cfg b).recycle b) howed))
  | exited => simp [Mwt.threadStep, hphase] at h

/-- A STOP event halts the writes. -/
theorem halted_of_stop (hphase : s.phase = .wait) (h : Mwt.threadStep cfg s wakeup .stop = some t)
    (hexited : t.phase ≠ .exited) : t.Halted := by
  simp only [Mwt.threadStep, hphase, Option.some.injEq] at h
  subst h
  unfold waitForCompletion at hexited ⊢
  split
  · rename_i hgone
    rw [if_pos hgone] at hexited
    exact absurd rfl hexited
  · apply consume_halted
    simp only [consume]
    split <;> rfl

/-- The thread exits as it is. -/
theorem eq_of_exited (hphase : s.phase = .wait) (h : Mwt.threadStep cfg s wakeup event = some t)
    (hexited : t.phase = .exited) : t = s.goTo .exited := by
  simp only [Mwt.threadStep, hphase, Option.some.injEq] at h
  subst h
  unfold waitForCompletion at hexited ⊢
  split
  · rfl
  · rename_i hgoes
    rw [if_neg hgoes] at hexited
    obtain hnext | hnext | ⟨b, hnext⟩ := s.consume_next cfg event <;>
      exact absurd (hnext.symm.trans hexited) Phase.noConfusion

end State

namespace BurstState

/-! ## What is asked -/

/-- The remove lock is released as often as it was acquired once the timer is done, and never more
often, and nothing was sent behind an acknowledged STOP. -/
structure Respects (s : BurstState) : Prop where
  released_le : s.released ≤ s.acquired
  released_eq : s.armed = false → s.dpcQueued = false → s.dpcRunning = 0 → s.released = s.acquired
  sentStopped : s.sentStopped = false

/-- The timer is started with the lock and while it is idle, it expires when its DPC is off the
queue, and the DPC does not run while a STOP is in force, which is not lifted before it is
acknowledged. -/
def Locked (cfg : BurstCfg) (s : BurstState) : BurstOp → Prop
  | .expire => s.dpcQueued = false
  | .dpcStart => s.stopInForce = false
  | .dpcEnd => True
  | .mwt (.thread _ event) acquires =>
    match s.mwt.phase with
    | .send _ _ =>
      cfg.enabled = true → cfg.burstFashion = .equalInterval → s.burstTimerLaunched = true
    | .process b =>
      (burstStep cfg.burstSize s.burstCount (UInt32.ofNat (s.mwt.pMwtBuffer b).length)).2 = true →
        acquires = true → s.armed = false
    | .wait => event.starts = true → s.mwt.stopOwed = false
    | _ => True
  | .mwt _ _ => True

instance (cfg : BurstCfg) (s : BurstState) (op : BurstOp) : Decidable (s.Locked cfg op) := by
  unfold Locked
  split
  · infer_instance
  · infer_instance
  · infer_instance
  · split <;> infer_instance
  · infer_instance

/-- Each arming and each DPC holds the lock once. -/
def Balanced (s : BurstState) : Prop :=
  s.acquired = s.released + s.armed.toNat + s.dpcQueued.toNat + s.dpcRunning

/-- A STOP that is owed or acknowledged is in force, and halts the writes. -/
structure Stopped (s : BurstState) : Prop where
  owed : s.mwt.stopOwed = true → s.stopInForce = true
  acked : s.stopAcked = true → s.stopInForce = true
  halted : s.stopInForce = true → s.mwt.Halted
  sentStopped : s.sentStopped = false

variable {cfg : BurstCfg} {s s' : BurstState} {t : State} {wakeup acquires : Bool}
  {event : State.Event}

theorem initial_balanced (cfg : BurstCfg) : (initial cfg).Balanced := rfl

theorem initial_stopped (cfg : BurstCfg) : (initial cfg).Stopped where
  owed := Bool.noConfusion
  acked := Bool.noConfusion
  halted := Bool.noConfusion
  sentStopped := rfl

theorem respects (hbalance : s.Balanced) (hstops : s.Stopped) : s.Respects where
  released_le := by
    rw [Balanced] at hbalance
    omega
  released_eq := by
    intro harmed hqueued hrunning
    rw [Balanced, harmed, hqueued, hrunning] at hbalance
    exact hbalance.symm
  sentStopped := hstops.sentStopped

/-! ## The balance -/

theorem Balanced.burstCheckSend (hs : s.Balanced) (len : UInt32)
    (hop : cfg.enabled = true → cfg.burstFashion = .equalInterval → s.burstTimerLaunched = true) :
    (s.burstCheckSend cfg len).Balanced := by
  unfold BurstState.burstCheckSend
  split
  · exact hs
  · rename_i hon
    dsimp only
    split
    · rename_i hstart
      have henabled : cfg.enabled = true := by simpa using hon
      have hlaunched := hop henabled hstart.1
      rw [hlaunched] at hstart
      cases hstart.2
    · exact hs

theorem Balanced.burstCheckCompletion (hs : s.Balanced) (len : UInt32)
    (hop : (burstStep cfg.burstSize s.burstCount len).2 = true → acquires = true → s.armed = false) :
    (s.burstCheckCompletion cfg acquires len).Balanced := by
  unfold BurstState.burstCheckCompletion
  split
  · exact hs
  · dsimp only
    split
    · rename_i hfull
      split
      · rename_i hacquires
        have harmed := hop hfull hacquires
        rw [Balanced, harmed] at hs
        simp only [Balanced, hs, Bool.toNat_true, Bool.toNat_false]
        omega
      · exact hs
    · exact hs

theorem Balanced.cancelBurstTimer (hs : s.Balanced) : (s.cancelBurstTimer cfg).Balanced := by
  unfold BurstState.cancelBurstTimer
  split
  · exact hs
  · split
    · rename_i harmed
      rw [Balanced, harmed] at hs
      simp only [Balanced, hs, Bool.toNat_true, Bool.toNat_false, add_zero]
    · exact hs

theorem Balanced.observe (hs : s.Balanced) (event : State.Event) : (s.observe event).Balanced := by
  cases event <;> exact hs

theorem Balanced.threadStep (hs : s.Balanced)
    (hop : s.Locked cfg (.mwt (.thread wakeup event) acquires)) :
    (s.threadStep cfg acquires event t).Balanced := by
  have hmwt : { s with mwt := t }.Balanced := hs
  unfold Locked at hop
  unfold BurstState.threadStep
  cases hphase : s.mwt.phase with
  | loopHead | dequeue | exited => exact hmwt
  | send b irp =>
    rw [hphase] at hop
    dsimp only
    split
    · exact hmwt
    · exact hmwt.burstCheckSend (UInt32.ofNat (s.mwt.reqBytes irp)) hop
  | process b =>
    rw [hphase] at hop
    exact hmwt.burstCheckCompletion (UInt32.ofNat (s.mwt.pMwtBuffer b).length) hop
  | wait =>
    dsimp only
    split
    · exact hmwt.cancelBurstTimer
    · exact hmwt.observe event

theorem Balanced.step (hs : s.Balanced) {op : BurstOp} (hop : s.Locked cfg op)
    (h : s.step cfg op = some s') : s'.Balanced := by
  cases op with
  | expire =>
    obtain ⟨harmed, heq⟩ := Option.ite_none_right_eq_some.mp h
    obtain rfl := Option.some.inj heq
    have hqueued : s.dpcQueued = false := hop
    simpa [Balanced, harmed, hqueued] using hs
  | dpcStart =>
    obtain ⟨hqueued, heq⟩ := Option.ite_none_right_eq_some.mp h
    obtain rfl := Option.some.inj heq
    rw [Balanced, hqueued] at hs
    simp only [Balanced, BurstState.dpcStart, hs, Bool.toNat_true, Bool.toNat_false]
    omega
  | dpcEnd =>
    obtain ⟨hrunning, heq⟩ := Option.ite_none_right_eq_some.mp h
    obtain rfl := Option.some.inj heq
    rw [Balanced] at hs
    simp only [Balanced, BurstState.dpcEnd, hs]
    omega
  | mwt op acquires =>
    obtain ⟨t, -, heq⟩ := Option.map_eq_some_iff.mp h
    cases op with
    | thread wakeup event =>
      obtain rfl : s.threadStep cfg acquires event t = s' := heq
      exact hs.threadStep hop
    | enqueue irp | ioCancelIrp irp | cancelWriteRoutine irp | purgeQueue | qcEmptyCompletionQueue
    | usbCompletes b n status | devState presentAndStarted =>
      subst heq
      exact hs

/-! ## The stops -/

/-- The stops are as they were. -/
structure SameStops (s s' : BurstState) : Prop where
  stopInForce : s'.stopInForce = s.stopInForce
  stopAcked : s'.stopAcked = s.stopAcked
  sentStopped : s'.sentStopped = s.sentStopped

theorem Stopped.of_same (hs : s.Stopped) (h : s.SameStops s')
    (howed : s'.mwt.stopOwed = true → s.mwt.stopOwed = true)
    (hhalted : s.stopInForce = true → s'.mwt.Halted) : s'.Stopped where
  owed := fun h' => h.stopInForce.trans (hs.owed (howed h'))
  acked := fun h' => h.stopInForce.trans (hs.acked (h.stopAcked.symm.trans h'))
  halted := fun h' => hhalted (h.stopInForce.symm.trans h')
  sentStopped := h.sentStopped.trans hs.sentStopped

theorem sameStops_burstCheckSend (cfg : BurstCfg) (s : BurstState) (len : UInt32) :
    s.SameStops (s.burstCheckSend cfg len) ∧
      (s.burstCheckSend cfg len).mwt.stopOwed = s.mwt.stopOwed := by
  unfold burstCheckSend
  split
  · exact ⟨⟨rfl, rfl, rfl⟩, rfl⟩
  · dsimp only
    split <;> exact ⟨⟨rfl, rfl, rfl⟩, rfl⟩

theorem sameStops_burstCheckCompletion (cfg : BurstCfg) (s : BurstState) (acquires : Bool)
    (len : UInt32) :
    s.SameStops (s.burstCheckCompletion cfg acquires len) ∧
      (s.burstCheckCompletion cfg acquires len).mwt = s.mwt := by
  unfold burstCheckCompletion
  split
  · exact ⟨⟨rfl, rfl, rfl⟩, rfl⟩
  · dsimp only
    split
    · split <;> exact ⟨⟨rfl, rfl, rfl⟩, rfl⟩
    · exact ⟨⟨rfl, rfl, rfl⟩, rfl⟩

theorem sameStops_cancelBurstTimer (cfg : BurstCfg) (s : BurstState) :
    s.SameStops (s.cancelBurstTimer cfg) ∧ (s.cancelBurstTimer cfg).mwt = s.mwt := by
  unfold cancelBurstTimer
  split
  · exact ⟨⟨rfl, rfl, rfl⟩, rfl⟩
  · split <;> exact ⟨⟨rfl, rfl, rfl⟩, rfl⟩

/-- An event that the thread takes. -/
theorem Stopped.observe (hs : s.Stopped) (hphase : s.mwt.phase = .wait)
    (hop : event.starts = true → s.mwt.stopOwed = false)
    (h : Mwt.threadStep cfg.mwt s.mwt wakeup event = some t) (hexited : t.phase ≠ .exited) :
    ({ s with mwt := t }.observe event).Stopped := by
  have howed : event ≠ .stop → t.stopOwed = true → s.mwt.stopOwed = true :=
    fun hne => State.stopOwed_threadStep (fun _ => hne) h
  cases event with
  | stop =>
    have hhalted := State.halted_of_stop hphase h hexited
    exact ⟨fun _ => rfl, fun _ => rfl, fun _ => hhalted, hs.sentStopped⟩
  | resume stopped | flowOn stopped =>
    have hnone : t.stopOwed ≠ true := by
      intro hmore
      have hless := hop rfl
      rw [howed State.Event.noConfusion hmore] at hless
      cases hless
    exact ⟨fun hmore => absurd hmore hnone, Bool.noConfusion, Bool.noConfusion, hs.sentStopped⟩
  | completion | cancelCurrent | kick | cancel | purge | flowOff =>
    have hkeeps : s.stopInForce = true → t.Halted :=
      fun hforce => (hs.halted hforce).threadStep (fun _ => rfl) h
    exact hs.of_same ⟨rfl, rfl, rfl⟩ (howed State.Event.noConfusion) hkeeps

theorem Stopped.threadStep (hs : s.Stopped)
    (hop : s.Locked cfg (.mwt (.thread wakeup event) acquires))
    (h : Mwt.threadStep cfg.mwt s.mwt wakeup event = some t) :
    (s.threadStep cfg acquires event t).Stopped := by
  unfold Locked at hop
  -- outside of the wait the event does not matter
  have howed : s.mwt.phase ≠ .wait → t.stopOwed = true → s.mwt.stopOwed = true :=
    fun hne => State.stopOwed_threadStep (fun hphase => absurd hphase hne) h
  have hhalted : s.mwt.phase ≠ .wait → s.stopInForce = true → t.Halted :=
    fun hne hforce => (hs.halted hforce).threadStep (fun hphase => absurd hphase hne) h
  unfold BurstState.threadStep
  cases hphase : s.mwt.phase with
  | loopHead | dequeue | exited =>
    rw [hphase] at howed hhalted
    exact hs.of_same ⟨rfl, rfl, rfl⟩ (howed Phase.noConfusion) (hhalted Phase.noConfusion)
  | send b irp =>
    rw [hphase] at howed
    have hforce : s.stopInForce ≠ true := fun hforce => (hs.halted hforce).notSend b irp hphase
    have hacked : s.stopAcked = false := by
      have := mt hs.acked hforce
      simpa using this
    dsimp only
    split
    · exact hs.of_same ⟨rfl, rfl, rfl⟩ (howed Phase.noConfusion) (absurd · hforce)
    · obtain ⟨hstops, hmwt⟩ := sameStops_burstCheckSend cfg { s with mwt := t }
        (UInt32.ofNat (s.mwt.reqBytes irp))
      refine hs.of_same ⟨hstops.stopInForce, hstops.stopAcked, ?_⟩ ?_ (absurd · hforce)
      · rw [hacked, Bool.or_false]
      · exact fun hmore => howed Phase.noConfusion (hmwt.symm.trans hmore)
  | wait =>
    rw [hphase] at hop
    dsimp only
    split
    · obtain ⟨hstops, hmwt⟩ := sameStops_cancelBurstTimer cfg { s with mwt := t }
      have hexit := State.eq_of_exited hphase h ‹_›
      refine hs.of_same ⟨hstops.stopInForce, hstops.stopAcked, hstops.sentStopped⟩ ?_ ?_
      · rw [hmwt, hexit]
        exact id
      · intro hforce
        rw [hmwt, hexit]
        exact ⟨(hs.halted hforce).bWriteStopped, Phase.noConfusion, fun _ _ => Phase.noConfusion⟩
    · exact hs.observe hphase hop h ‹_›
  | process b =>
    rw [hphase] at howed hhalted
    obtain ⟨hstops, hmwt⟩ := sameStops_burstCheckCompletion cfg { s with mwt := t } acquires
      (UInt32.ofNat (s.mwt.pMwtBuffer b).length)
    refine ⟨fun hmore => ?_, fun hacked => ?_, fun hforce => ?_, ?_⟩
    · have hmwtOwed : t.stopOwed = true := (congrArg State.stopOwed hmwt).symm.trans hmore
      exact hstops.stopInForce.trans (hs.owed (howed Phase.noConfusion hmwtOwed))
    · have hcases : s.stopAcked = true ∨ s.mwt.stopOwed = true := by
        rcases Bool.or_eq_true_iff.mp hacked with hacked | hdone
        · exact .inl hacked
        · exact .inr (Bool.and_eq_true_iff.mp hdone).1
      exact hstops.stopInForce.trans (hcases.elim hs.acked hs.owed)
    · have hbefore : s.stopInForce = true := hstops.stopInForce.symm.trans hforce
      dsimp only
      rw [hmwt]
      exact hhalted Phase.noConfusion hbefore
    · exact hstops.sentStopped.trans hs.sentStopped

theorem Stopped.step (hs : s.Stopped) {op : BurstOp} (hop : s.Locked cfg op)
    (h : s.step cfg op = some s') : s'.Stopped := by
  cases op with
  | expire =>
    obtain ⟨-, heq⟩ := Option.ite_none_right_eq_some.mp h
    obtain rfl := Option.some.inj heq
    exact hs.of_same ⟨rfl, rfl, rfl⟩ id hs.halted
  | dpcStart =>
    obtain ⟨-, heq⟩ := Option.ite_none_right_eq_some.mp h
    obtain rfl := Option.some.inj heq
    have hnone : s.stopInForce = false := hop
    refine hs.of_same ⟨rfl, rfl, rfl⟩ id fun hforce => ?_
    rw [hnone] at hforce
    cases hforce
  | dpcEnd =>
    obtain ⟨-, heq⟩ := Option.ite_none_right_eq_some.mp h
    obtain rfl := Option.some.inj heq
    exact hs.of_same ⟨rfl, rfl, rfl⟩ id hs.halted
  | mwt op acquires =>
    obtain ⟨t, ht, heq⟩ := Option.map_eq_some_iff.mp h
    cases op with
    | thread wakeup event =>
      obtain rfl : s.threadStep cfg acquires event t = s' := heq
      exact hs.threadStep hop ht
    | enqueue irp | ioCancelIrp irp | cancelWriteRoutine irp | purgeQueue | qcEmptyCompletionQueue
    | usbCompletes b n status | devState presentAndStarted =>
      subst heq
      obtain ⟨hkeeps, hphase, howed⟩ :=
        State.step_keepsStop (fun _ _ => Op.noConfusion) ht
      exact hs.of_same ⟨rfl, rfl, rfl⟩ (fun hmore => howed.symm.trans hmore)
        fun hforce => (hs.halted hforce).keeps hkeeps hphase

end BurstState

/-- In runs in which the timer is started with the lock and while it is idle, expires when its DPC is
off the queue, and its DPC runs while no STOP is in force, the remove lock is balanced and no
transfer is sent behind an acknowledged STOP. -/
theorem respects_of_locked (cfg : BurstCfg) (ops : List BurstOp)
    (hops : ∀ p ∈ (writeBurst cfg).fires (.initial cfg) ops, p.1.Locked cfg p.2) :
    ∀ s ∈ (writeBurst cfg).visits (.initial cfg) ops, s.Respects := by
  have hstep : ∀ s op s' o, s.Balanced ∧ s.Stopped → s.Locked cfg op →
      writeBurst cfg s op = some (s', o) → s'.Balanced ∧ s'.Stopped := by
    intro s op s' o hs hop h
    exact ⟨hs.1.step hop (step_of_writeBurst h), hs.2.step hop (step_of_writeBurst h)⟩
  intro s hs
  have hinv : s.Balanced ∧ s.Stopped := by
    apply Machine.visits_all_of_fires hstep _ hops s hs
    exact ⟨BurstState.initial_balanced cfg, BurstState.initial_stopped cfg⟩
  exact BurstState.respects hinv.1 hinv.2

/-- The second write comes back, and a STOP is taken and lifted before the timer starts the writes. -/
def stopRun : List BurstOp :=
  gapRun ++
    ([Op.thread false .kick, .usbCompletes 1 3 .success, .thread false .completion,
        .thread false .kick, .thread false .kick, .thread false .stop, .thread false .kick,
        .thread false (.resume false)].map (BurstOp.mwt · true)) ++
    [.expire, .dpcStart, .dpcEnd]

theorem respects_of_locked_stopRun :
    ((writeBurst burstsOfThree).fires (.initial burstsOfThree) stopRun).length = stopRun.length ∧
      ∀ s ∈ (writeBurst burstsOfThree).visits (.initial burstsOfThree) stopRun, s.Respects :=
  ⟨by decide +kernel, respects_of_locked burstsOfThree stopRun (by decide +kernel)⟩

/-- The same bursts with equal intervals. -/
def intervalsOfThree : BurstCfg := { burstsOfThree with burstFashion := .equalInterval }

/-- The first transfer has started the timer. It comes back, a STOP is acknowledged, and the timer
starts the writes. -/
def intervalRun : List BurstOp :=
  ([Op.enqueue ⟨0, [1, 2, 3]⟩, .enqueue ⟨1, [4, 5, 6]⟩] ++ List.replicate 4 (Op.thread false .kick) ++
      [Op.usbCompletes 0 3 .success, .thread false .completion, .thread false .kick,
        .thread false .kick, .thread false .stop]).map (BurstOp.mwt · true) ++
    [.expire, .dpcStart, .dpcEnd] ++
    (List.replicate 3 (Op.thread false .kick)).map (BurstOp.mwt · true)

/-- The remove lock is released and was not acquired, and the second write is sent behind the STOP. -/
theorem not_respects_intervalRun :
    (¬ ∀ s ∈ (writeBurst intervalsOfThree).visits (.initial intervalsOfThree) intervalRun,
        s.released ≤ s.acquired) ∧
      ¬ ∀ s ∈ (writeBurst intervalsOfThree).visits (.initial intervalsOfThree) intervalRun,
        s.sentStopped = false := by
  constructor <;> decide +kernel

end Transport.Mwt
