-- SUMMARY: The completion events of the write buffers, and when they agree with the completion queue.
import QcomUsb.Transport.WriteBuffers

/-!
# Completion events

`USBMWT_WriteCompletionRoutine` puts its buffer on `MWriteCompletionQueue` under `WriteSpinLock`,
and sets `WtCompletionEvt` of the buffer when it has released the lock. The write thread wakes up
with any of these events, takes the buffer at the head of the queue, and clears the event of that
one.
-/

namespace Transport.Mwt

open Transition

/-- The write thread with the events of its buffers. `setting` are the buffers whose completion
routine has released the lock and not yet set the event. -/
structure EventState where
  mwt : State
  wtCompletionEvt : Nat → Bool
  setting : List Nat

inductive EventOp
  | mwt (op : Op)
  | keSetEvent (b : Nat)
deriving DecidableEq

namespace EventState

/-- All events are clear. -/
def initial (cfg : Cfg) : EventState := ⟨.initial cfg, fun _ => false, []⟩

/-- The wait returns with a completion only if one of the events is set. -/
def wakes (cfg : Cfg) (s : EventState) : Op → Bool
  | .thread _ .completion =>
    s.mwt.phase ≠ .wait ∨
      (s.mwt.mWritePendingQueue = [] ∧ s.mwt.mWriteCompletionQueue = [] ∧ s.mwt.bCancelled) ∨
      (List.range cfg.numberOfMultiWrites).any s.wtCompletionEvt
  | _ => true

/-- The event of the buffer that the thread peeks at is cleared. -/
def clearPeeked (s : EventState) (t : State) : Nat → Bool :=
  match s.mwt.phase, t.phase with
  | .wait, .process b => Function.update s.wtCompletionEvt b false
  | _, _ => s.wtCompletionEvt

/-- The completion routine sets the event behind the lock. -/
def released (s : EventState) : Op → List Nat
  | .usbCompletes b _ _ => s.setting ++ [b]
  | _ => s.setting

def step (cfg : Cfg) (s : EventState) : EventOp → Option EventState
  | .keSetEvent b =>
    if b ∈ s.setting then
      some
        { s with
          wtCompletionEvt := Function.update s.wtCompletionEvt b true
          setting := s.setting.erase b }
    else none
  | .mwt op =>
    if s.wakes cfg op then
      (Mwt.step cfg s.mwt op).map fun t => ⟨t, s.clearPeeked t, s.released op⟩
    else none

end EventState

/-- The write thread with its events. -/
def writeEvents (cfg : Cfg) : Machine EventState EventOp Unit := fun s op =>
  (s.step cfg op).map fun s' => (s', ())

/-! ## The completion queue in a step -/

namespace State

variable {cfg : Cfg} {s t : State}

/-- The buffer at the head of the queue that the thread peeks at. -/
structure Peeks (s t : State) (b : Nat) : Prop where
  wait : s.phase = .wait
  process : t.phase = .process b
  head : s.mWriteCompletionQueue.head? = some b
  completion : t.mWriteCompletionQueue = s.mWriteCompletionQueue

/-- The queue is the same, and the thread is not about to process another buffer. -/
structure SameQueue (s t : State) : Prop where
  completion : t.mWriteCompletionQueue = s.mWriteCompletionQueue
  process : ∀ b, t.phase = .process b ↔ s.phase = .process b

theorem sameQueue_of_phases (hcompletion : t.mWriteCompletionQueue = s.mWriteCompletionQueue)
    (hs : ∀ b, s.phase ≠ .process b) (ht : ∀ b, t.phase ≠ .process b) : s.SameQueue t :=
  ⟨hcompletion, fun b => ⟨fun h => absurd h (ht b), fun h => absurd h (hs b)⟩⟩

theorem completion_processCompletion (cfg : Cfg) (s : State) (b : Nat) :
    (s.processCompletion cfg b).mWriteCompletionQueue = s.mWriteCompletionQueue.erase b := by
  have hpart := (s.sameBuffers_partialTransfer b).completion
  have hreturn := ((s.partialTransfer b).sameControl_returnWrite cfg b).completion
  have hafter := (sameWrites_afterCompletion
    (((s.partialTransfer b).returnWrite cfg b).recycle b)).toSameBuffers.completion
  rw [processCompletion, hafter, recycle, hreturn, hpart]

theorem phase_send (cfg : Cfg) (s : State) (b c : Nat) (irp : Option Irp)
    (hphase : s.phase = .send b irp) : (s.send cfg b irp).phase ≠ .process c := by
  simp only [send]
  split
  · rw [hphase]
    exact Phase.noConfusion
  · exact Phase.noConfusion

/-- Only a completion leads to a buffer, which is the one at the head. -/
theorem peeked_of_process {event : Event} {b : Nat}
    (h : (s.waitForCompletion cfg event).phase = .process b) :
    event = .completion ∧ s.mWriteCompletionQueue.head? = some b := by
  unfold waitForCompletion at h
  split at h
  · cases h
  · refine ⟨?_, (s.consume_phase cfg event).2 b h⟩
    cases event with
    | completion => rfl
    | cancelCurrent | kick | resume stopped | flowOn stopped => cases h
    | cancel | purge | stop | flowOff =>
        simp only [consume] at h
        split at h <;> cases h

/-- What a step of the thread does to the completion queue. -/
theorem threadStep_completion {wakeup : Bool} {event : Event}
    (h : threadStep cfg s wakeup event = some t) :
    s.SameQueue t ∨ (∃ b, event = .completion ∧ s.Peeks t b) ∨
      ∃ b, s.phase = .process b ∧ t.mWriteCompletionQueue = s.mWriteCompletionQueue.erase b ∧
        ∀ c, t.phase ≠ .process c := by
  cases hphase : s.phase with
  | loopHead =>
      simp only [threadStep, hphase, Option.some.injEq] at h
      subst h
      left
      apply sameQueue_of_phases s.sameBuffers_loopHead.completion
      · simp [hphase]
      · rcases s.loopHead_phase with h | h <;> simp [h]
  | dequeue =>
      simp only [threadStep, hphase, Option.some.injEq] at h
      subst h
      left
      obtain heq | ⟨-, heq⟩ | ⟨b, idle, -, ⟨-, heq⟩ | ⟨irp, rest, -, -, heq⟩⟩ :=
        s.dequeue_cases wakeup
      · rw [heq]
        exact sameQueue_of_phases rfl (by simp [hphase]) (by simp [goTo])
      · rw [heq]
        exact sameQueue_of_phases s.sameThread_purgeQueue.completion (by simp [hphase])
          (by simp [goTo])
      · rw [heq]
        exact sameQueue_of_phases rfl (by simp [hphase]) (by simp [goTo])
      · rw [heq]
        exact sameQueue_of_phases rfl (by simp [hphase]) (by simp [goTo])
  | send b irp =>
      simp only [threadStep, hphase, Option.some.injEq] at h
      subst h
      left
      apply sameQueue_of_phases
      · simp only [send]
        split <;> rfl
      · simp [hphase]
      · exact fun c => s.phase_send cfg b c irp hphase
  | wait =>
      simp only [threadStep, hphase, Option.some.injEq] at h
      subst h
      have hsame := (s.sameWrites_waitForCompletion cfg event).toSameBuffers.completion
      rcases hcase : (s.waitForCompletion cfg event).phase with _ | _ | _ | _ | b | _
      case process =>
        right
        left
        obtain ⟨hevent, hhead⟩ := peeked_of_process hcase
        exact ⟨b, hevent, hphase, hcase, hhead, hsame⟩
      all_goals
        left
        exact sameQueue_of_phases hsame (by simp [hphase]) (by simp [hcase])
  | process b =>
      simp only [threadStep, hphase, Option.some.injEq] at h
      subst h
      refine .inr (.inr ⟨b, rfl, s.completion_processCompletion cfg b, fun c => ?_⟩)
      have hafter : (s.processCompletion cfg b).phase = .loopHead ∨
        (s.processCompletion cfg b).phase = .wait := afterCompletion_phase _
      rcases hafter with h | h <;> simp [h]
  | exited => simp [threadStep, hphase] at h

/-- What a step does to the completion queue. -/
theorem step_completion {op : Op} (h : Mwt.step cfg s op = some t) :
    ((∀ b n status, op ≠ .usbCompletes b n status) ∧ s.SameQueue t) ∨
    (∃ b n status, op = .usbCompletes b n status ∧ b ∈ s.mWritePendingQueue ∧
      t.mWriteCompletionQueue = s.mWriteCompletionQueue ++ [b] ∧ t.phase = s.phase) ∨
    (∃ b wakeup, op = .thread wakeup .completion ∧ s.Peeks t b) ∨
    ∃ b wakeup event, op = .thread wakeup event ∧ s.phase = .process b ∧
      t.mWriteCompletionQueue = s.mWriteCompletionQueue.erase b ∧ ∀ c, t.phase ≠ .process c := by
  cases op with
  | usbCompletes b n status =>
      obtain ⟨⟨hat, -, -⟩, heq⟩ := Option.ite_none_right_eq_some.mp h
      obtain rfl := Option.some.inj heq
      exact .inr (.inl ⟨b, n, status, rfl, (atUsb_iff.mp hat).1, rfl, rfl⟩)
  | thread wakeup event =>
      obtain hsame | ⟨b, rfl, hpeeks⟩ | ⟨b, hphase, hcompletion, hgone⟩ := threadStep_completion h
      · exact .inl ⟨fun _ _ _ => Op.noConfusion, hsame⟩
      · exact .inr (.inr (.inl ⟨b, wakeup, rfl, hpeeks⟩))
      · exact .inr (.inr (.inr ⟨b, wakeup, event, rfl, hphase, hcompletion, hgone⟩))
  | _ =>
      left
      obtain hsame | ⟨b, n, status, hop, -⟩ | ⟨wakeup, event, hop, -⟩ := step_cases h
      · refine ⟨fun _ _ _ => Op.noConfusion, hsame.completion, fun b => ?_⟩
        rw [hsame.phase]
      · cases hop
      · cases hop

end State

/-! ## Agreement -/

/-- A buffer that the thread takes has been notified. -/
def EventOp.Notified (s : EventState) : EventOp → Prop
  | .mwt (.thread _ .completion) =>
    s.mwt.phase = .wait → ∀ b, s.mwt.mWriteCompletionQueue.head? = some b → b ∉ s.setting
  | _ => True

instance (s : EventState) (op : EventOp) : Decidable (op.Notified s) := by
  unfold EventOp.Notified
  split
  · infer_instance
  · exact isTrue trivial

/-- The event of a buffer is set while the buffer is on the completion queue, from the end of the
completion routine up to where the thread takes the buffer. -/
structure Agrees (s : EventState) : Prop where
  tracked : s.mwt.Tracked
  nodup : s.setting.Nodup
  setting : ∀ b ∈ s.setting, b ∈ s.mwt.mWriteCompletionQueue ∧ s.mwt.phase ≠ .process b
  event : ∀ b, s.wtCompletionEvt b = true ↔
    b ∈ s.mwt.mWriteCompletionQueue ∧ s.mwt.phase ≠ .process b ∧ b ∉ s.setting

section

variable {cfg : Cfg} {s s' : EventState} {op : EventOp}

theorem Agrees.initial (cfg : Cfg) : Agrees (.initial cfg) where
  tracked := State.initial_tracked cfg
  nodup := List.nodup_nil
  setting := nofun
  event := by simp [EventState.initial, State.initial]

/-- The completion routine sets its event. -/
theorem Agrees.keSetEvent (h : Agrees s) {b : Nat} (hb : b ∈ s.setting) :
    Agrees
      { s with
        wtCompletionEvt := Function.update s.wtCompletionEvt b true
        setting := s.setting.erase b } where
  tracked := h.tracked
  nodup := h.nodup.erase b
  setting := fun c hc => h.setting c (List.mem_of_mem_erase hc)
  event := by
    intro c
    rcases eq_or_ne c b with rfl | hne
    · obtain ⟨hqueue, hphase⟩ := h.setting c hb
      simp [hqueue, hphase, h.nodup.not_mem_erase]
    · dsimp only
      rw [Function.update_of_ne hne, h.event c]
      simp only [List.mem_erase_of_ne hne]

/-- A step that leaves the queue alone leaves the events alone. -/
theorem Agrees.sameQueue (h : Agrees s) {t : State} (ht : t.Tracked) (hsame : s.mwt.SameQueue t)
    {evt : Nat → Bool} (hevt : evt = s.wtCompletionEvt) : Agrees ⟨t, evt, s.setting⟩ where
  tracked := ht
  nodup := h.nodup
  setting := by
    intro b hb
    rw [hsame.completion, ne_eq, hsame.process b]
    exact h.setting b hb
  event := by
    intro b
    rw [hevt, hsame.completion, ne_eq, hsame.process b]
    exact h.event b

/-- A buffer is put on the queue, and its event is not set yet. -/
theorem Agrees.completes (h : Agrees s) {t : State} {b : Nat} (ht : t.Tracked)
    (hb : b ∈ s.mwt.mWritePendingQueue)
    (hcompletion : t.mWriteCompletionQueue = s.mwt.mWriteCompletionQueue ++ [b])
    (hphase : t.phase = s.mwt.phase) : Agrees ⟨t, s.wtCompletionEvt, s.setting ++ [b]⟩ := by
  have hnew : b ∉ s.mwt.mWriteCompletionQueue := h.tracked.not_mem_completion hb
  have hidle : s.mwt.phase ≠ .process b := fun hp =>
    hnew (List.mem_of_mem_head? (h.tracked.processing b hp))
  have hfresh : b ∉ s.setting := fun hmem => hnew (h.setting b hmem).1
  exact {
    tracked := ht
    nodup := by simpa [List.nodup_append, h.nodup] using fun a ha => ne_of_mem_of_not_mem ha hfresh
    setting := by
      intro c hc
      rw [hcompletion, hphase]
      rcases List.mem_append.mp hc with hold | hlast
      · obtain ⟨hqueue, hne⟩ := h.setting c hold
        exact ⟨List.mem_append_left _ hqueue, hne⟩
      · obtain rfl := List.mem_singleton.mp hlast
        exact ⟨List.mem_append_right _ List.mem_cons_self, hidle⟩
    event := by
      intro c
      rw [hcompletion, hphase]
      simp only [List.mem_append, List.mem_singleton, not_or]
      rw [h.event c]
      rcases eq_or_ne c b with rfl | hne
      · simp [hnew]
      · simp [hne] }

/-- The thread takes the head of the queue, which has been notified. -/
theorem Agrees.peeks (h : Agrees s) {t : State} {b : Nat} (ht : t.Tracked)
    (hpeeks : s.mwt.Peeks t b) (hb : b ∉ s.setting) :
    Agrees ⟨t, Function.update s.wtCompletionEvt b false, s.setting⟩ where
  tracked := ht
  nodup := h.nodup
  setting := by
    intro c hc
    obtain ⟨hqueue, -⟩ := h.setting c hc
    rw [hpeeks.completion, hpeeks.process]
    refine ⟨hqueue, fun heq => ?_⟩
    obtain rfl := Phase.process.inj heq
    exact hb hc
  event := by
    intro c
    rw [hpeeks.completion, hpeeks.process]
    have hwait : s.mwt.phase ≠ .process c := by simp [hpeeks.wait]
    rcases eq_or_ne c b with rfl | hne
    · simp
    · dsimp only
      rw [Function.update_of_ne hne, h.event c]
      simp [hwait, hne.symm]

/-- The thread is done with the buffer at the head of the queue. -/
theorem Agrees.processed (h : Agrees s) {t : State} {b : Nat} (ht : t.Tracked)
    (hphase : s.mwt.phase = .process b)
    (hcompletion : t.mWriteCompletionQueue = s.mwt.mWriteCompletionQueue.erase b)
    (hgone : ∀ c, t.phase ≠ .process c) : Agrees ⟨t, s.wtCompletionEvt, s.setting⟩ where
  tracked := ht
  nodup := h.nodup
  setting := by
    intro c hc
    obtain ⟨hqueue, hne⟩ := h.setting c hc
    have hcb : c ≠ b := fun heq => hne (heq ▸ hphase)
    rw [hcompletion]
    exact ⟨(List.mem_erase_of_ne hcb).mpr hqueue, hgone c⟩
  event := by
    intro c
    rw [h.event c, hcompletion, hphase]
    rcases eq_or_ne c b with rfl | hne
    · simp [h.tracked.nodup_completion.not_mem_erase]
    · simp [List.mem_erase_of_ne hne, hne.symm, hgone c]

/-- Without a peek no event is cleared. -/
theorem clearPeeked_eq {t : State} (h : s.mwt.phase = .wait → ∀ b, t.phase ≠ .process b) :
    s.clearPeeked t = s.wtCompletionEvt := by
  unfold EventState.clearPeeked
  split
  next b hwait hprocess => exact absurd hprocess (h hwait b)
  · rfl

theorem clearPeeked_peeks {t : State} {b : Nat} (h : s.mwt.Peeks t b) :
    s.clearPeeked t = Function.update s.wtCompletionEvt b false := by
  simp only [EventState.clearPeeked, h.wait, h.process]

theorem released_of_ne {op : Op} (h : ∀ b n status, op ≠ .usbCompletes b n status) :
    s.released op = s.setting := by
  cases op with
  | usbCompletes b n status => exact absurd rfl (h b n status)
  | _ => rfl

theorem Agrees.step (h : Agrees s) (hop : op.Notified s) (hs : s.step cfg op = some s') :
    Agrees s' := by
  cases op with
  | keSetEvent b =>
      simp only [EventState.step] at hs
      split_ifs at hs with hb
      obtain rfl := Option.some.inj hs
      exact h.keSetEvent hb
  | mwt op =>
      simp only [EventState.step] at hs
      split_ifs at hs
      obtain ⟨t, ht, rfl⟩ := Option.map_eq_some_iff.mp hs
      have htracked := State.step_tracked h.tracked ht
      obtain ⟨hother, hsame⟩ | ⟨b, n, status, rfl, hb, hcompletion, hphase⟩ |
          ⟨b, wakeup, rfl, hpeeks⟩ | ⟨b, wakeup, event, rfl, hphase, hcompletion, hgone⟩ :=
        State.step_completion ht
      · rw [released_of_ne hother]
        apply h.sameQueue htracked hsame
        apply clearPeeked_eq
        intro hwait b
        rw [ne_eq, hsame.process b, hwait]
        exact Phase.noConfusion
      · rw [clearPeeked_eq (by simp +contextual [hphase])]
        exact h.completes htracked hb hcompletion hphase
      · rw [clearPeeked_peeks hpeeks]
        exact h.peeks htracked hpeeks (hop hpeeks.wait b hpeeks.head)
      · rw [clearPeeked_eq (by simp [hphase])]
        exact h.processed htracked hphase hcompletion hgone

end

/-- When no completion routine is in front of its `KeSetEvent`, the event of a buffer is set exactly
if the buffer is on the completion queue and the thread has not taken it, in runs in which the thread
takes notified buffers only. -/
theorem completionEvt_iff_of_notified (cfg : Cfg) (ops : List EventOp)
    (hops : ∀ p ∈ (writeEvents cfg).fires (.initial cfg) ops, p.2.Notified p.1) :
    ∀ s ∈ (writeEvents cfg).visits (.initial cfg) ops, s.setting = [] → ∀ b,
      s.wtCompletionEvt b = true ↔
        b ∈ s.mwt.mWriteCompletionQueue ∧ s.mwt.phase ≠ .process b := by
  have hstep : ∀ s op s' o, Agrees s → op.Notified s → writeEvents cfg s op = some (s', o) →
      Agrees s' := by
    intro s op s' o h hop hs
    obtain ⟨t, ht, heq⟩ := Option.map_eq_some_iff.mp hs
    obtain rfl : t = s' := congrArg Prod.fst heq
    exact h.step hop ht
  intro s hs hsetting b
  have h := Machine.visits_all_of_fires hstep (.initial cfg) hops s hs
  rw [h.event b, hsetting]
  simp

/-- Two writes are sent, and the thread waits. -/
def bothSent : List EventOp :=
  ([Op.enqueue ⟨0, [1]⟩, .enqueue ⟨1, [2]⟩] ++ List.replicate 6 (Op.thread false .kick)).map .mwt

/-- Both come back, and the thread takes each when it has been notified. -/
def servedRun : List EventOp :=
  bothSent ++
    [.mwt (.usbCompletes 0 1 .success), .mwt (.usbCompletes 1 1 .success), .keSetEvent 1,
      .keSetEvent 0, .mwt (.thread false .completion), .mwt (.thread false .kick),
      .mwt (.thread false .kick), .mwt (.thread false .kick), .mwt (.thread false .completion),
      .mwt (.thread false .kick)]

theorem completionEvt_iff_of_notified_served :
    ((writeEvents twoBuffers).fires (.initial twoBuffers) servedRun).length = 18 ∧
      ∀ s ∈ (writeEvents twoBuffers).visits (.initial twoBuffers) servedRun, s.setting = [] →
        ∀ b, s.wtCompletionEvt b = true ↔
          b ∈ s.mwt.mWriteCompletionQueue ∧ s.mwt.phase ≠ .process b :=
  ⟨by decide +kernel, completionEvt_iff_of_notified twoBuffers servedRun (by decide +kernel)⟩

/-- The second completion is notified first. The thread takes the first buffer, whose event is set
when the buffer is idle again. -/
def staleRun : List EventOp :=
  bothSent ++
    [.mwt (.usbCompletes 0 1 .success), .mwt (.usbCompletes 1 1 .success), .keSetEvent 1,
      .mwt (.thread false .completion), .mwt (.thread false .kick), .keSetEvent 0,
      .mwt (.thread false .kick), .mwt (.thread false .kick), .mwt (.thread false .completion),
      .mwt (.thread false .kick), .mwt (.thread false .kick), .mwt (.thread false .kick)]

/-- Behind the last buffer the thread waits with a set event and an empty queue. -/
theorem not_completionEvt_iff_stale :
    ¬ ∀ s ∈ (writeEvents twoBuffers).visits (.initial twoBuffers) staleRun, s.setting = [] →
      ∀ b, s.wtCompletionEvt b = true ↔ b ∈ s.mwt.mWriteCompletionQueue := by
  obtain ⟨s, hs, hsetting, -, hevent, hqueue⟩ :
      ∃ s ∈ (writeEvents twoBuffers).visits (.initial twoBuffers) staleRun, s.setting = [] ∧
        s.mwt.phase = .wait ∧ s.wtCompletionEvt 0 = true ∧ s.mwt.mWriteCompletionQueue = [] := by
    decide +kernel
  intro h
  have hmem := (h s hs hsetting 0).mp hevent
  rw [hqueue] at hmem
  cases hmem

end Transport.Mwt
