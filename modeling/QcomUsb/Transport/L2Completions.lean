-- SUMMARY: The event of the level-2 completion queue: when a completion can be lost, and runs in which none is.
import QcomUsb.Transport.L2LifeCycle

/-!
# Completions of the level-2 buffers

`MultiReadCompletionRoutine` puts a buffer on `L2CompletionQueue` and sets `L2USBReadCompEvent`
under `L2Lock`. The level-2 thread takes one buffer off under the lock, but looks whether the queue
is empty and clears the event without it. A completion in between is waited for with a clear event.
-/

namespace Transport.L2

open Transition

/-- The queue was empty, and its event is about to be cleared. -/
def L2Phase.isClearing : L2Phase → Bool
  | .clearing _ => true
  | _ => false

/-- No completion routine runs between the test of the queue and the clear of its event. -/
def Op.Apart (s : State) : Op → Prop
  | .usbCompletes _ _ => s.l2Phase.isClearing = false
  | _ => True

instance (s : State) (op : Op) : Decidable (op.Apart s) := by
  cases op <;> unfold Op.Apart <;> infer_instance

/-- A completion on the queue is notified, and none is there while its event is cleared. -/
structure Notified (s : State) : Prop where
  signaled : s.l2CompletionQueue ≠ [] → s.signaled .usbRead = true
  clearing : s.l2Phase.isClearing = true → s.l2CompletionQueue = []

/-- A step leaves the queue and its event alone, and does not lead up to a clear. -/
structure Unheard (s s' : State) : Prop where
  queue : s'.l2CompletionQueue = s.l2CompletionQueue
  event : s'.signaled .usbRead = s.signaled .usbRead
  phase : s'.l2Phase.isClearing = true → s.l2Phase.isClearing = true

section

variable {cfg : Settings} {s s' t : State} {op : Op}

theorem Notified.unheard (h : Notified s) (hs : Unheard s s') : Notified s' where
  signaled := by
    rw [hs.queue, hs.event]
    exact h.signaled
  clearing := by
    intro hi
    rw [hs.queue]
    exact h.clearing (hs.phase hi)

/-- Without a queue nothing is lost. -/
theorem Notified.empty (h : s.l2CompletionQueue = []) : Notified s :=
  ⟨fun hne => absurd h hne, fun _ => h⟩

theorem Unheard.refl (s : State) : Unheard s s := ⟨rfl, rfl, id⟩

theorem Unheard.trans (h : Unheard s t) (h' : Unheard t s') : Unheard s s' where
  queue := h'.queue.trans h.queue
  event := h'.event.trans h.event
  phase := fun hi => h.phase (h'.phase hi)

theorem unheard_keSetEvent {e : L2Event} (he : e ≠ .usbRead) : Unheard s (s.keSetEvent e) where
  queue := rfl
  event := Function.update_of_ne he.symm _ _
  phase := id

theorem unheard_keClearEvent {e : L2Event} (he : e ≠ .usbRead) : Unheard s (s.keClearEvent e) where
  queue := rfl
  event := Function.update_of_ne he.symm _ _
  phase := id

/-- What is done to the rest of the state is not heard of. -/
theorem Unheard.congr (h : Unheard s t) (hqueue : s'.l2CompletionQueue = t.l2CompletionQueue)
    (hsignaled : s'.signaled = t.signaled)
    (hphase : s'.l2Phase.isClearing = true → t.l2Phase.isClearing = true) : Unheard s s' :=
  h.trans ⟨hqueue, congrFun hsignaled _, hphase⟩

theorem Notified.exit (s : State) : Notified s.exit := .empty rfl

theorem unheard_l2Top (started polling : Bool) : Unheard s (s.l2Top cfg started polling) := by
  unfold State.l2Top
  split
  · simp only
    split
    · exact ⟨rfl, rfl, nofun⟩
    · exact ⟨rfl, rfl, nofun⟩
  · exact ⟨rfl, rfl, nofun⟩

theorem unheard_l2Called (ntStatus : NtStatus) : Unheard s (s.l2Called cfg ntStatus) := by
  unfold State.l2Called
  split
  · exact ⟨rfl, rfl, nofun⟩
  · simp only
    split
    · exact ⟨rfl, rfl, nofun⟩
    · unfold State.countError
      split
      · exact (unheard_keSetEvent (by decide)).congr rfl rfl nofun
      · exact ⟨rfl, rfl, nofun⟩

/-- The wait either ends the thread or is not heard of. -/
theorem Notified.l2Wait (h : Notified s) (present suspended : Bool) (e : L2Event) :
    Notified (s.l2Wait present suspended e) := by
  cases e with
  | cancel =>
      have hclear : Unheard s (s.keClearEvent .cancel) := unheard_keClearEvent (by decide)
      simp only [State.l2Wait]
      split_ifs
      · exact .exit _
      · exact h.unheard (hclear.congr rfl rfl id)
  | kick =>
      have hclear : Unheard s (s.keClearEvent .kick) := unheard_keClearEvent (by decide)
      exact h.unheard (hclear.congr rfl rfl (absurd · Bool.false_ne_true))
  | stop =>
      have hclear : Unheard s (s.keClearEvent .stop) := unheard_keClearEvent (by decide)
      simp only [State.l2Wait]
      split_ifs
      · exact h.unheard hclear
      · exact h.unheard (hclear.congr rfl rfl (absurd · Bool.false_ne_true))
      · exact h.unheard (hclear.congr rfl rfl id)
  | resume =>
      have hclear : Unheard s (s.keClearEvent .resume) := unheard_keClearEvent (by decide)
      exact h.unheard (hclear.congr rfl rfl (absurd · Bool.false_ne_true))
  | usbRead => exact h.unheard ⟨rfl, rfl, (absurd · Bool.false_ne_true)⟩

/-- A buffer is taken off the queue, whose event stays as it is. -/
theorem Notified.l2Dequeue (h : Notified s) : Notified s.l2Dequeue := by
  unfold State.l2Dequeue
  split
  next hempty => exact .empty hempty
  next i rest hqueue =>
    constructor
    · intro _
      exact h.signaled (by simp [hqueue])
    · nofun

theorem unheard_l2Process (i : Nat) : Unheard s (s.l2Process cfg i) := by
  unfold State.l2Process State.countBusy
  simp only
  split
  · exact ⟨rfl, rfl, nofun⟩
  · split
    · exact (unheard_keSetEvent (by decide)).congr rfl rfl nofun
    · exact ⟨rfl, rfl, nofun⟩

theorem unheard_checkPresent (present : Bool) : Unheard s (s.checkPresent present) := by
  unfold State.checkPresent
  split
  · exact .refl s
  · exact (unheard_keSetEvent (by decide)).congr rfl rfl id

theorem Notified.l2Finish (h : Notified s) (present : Bool) : Notified (s.l2Finish present) := by
  unfold State.l2Finish
  simp only
  split
  · exact h.unheard ⟨rfl, rfl, nofun⟩
  · split
    · exact .exit _
    · exact h.unheard ⟨(unheard_checkPresent present).queue, (unheard_checkPresent present).event,
        nofun⟩

/-- The completion is put on the queue and notified. -/
theorem Notified.multiReadCompletionRoutine (hphase : s.l2Phase.isClearing = false) (i : Nat)
    (t : Transfer) : Notified (s.multiReadCompletionRoutine i t) where
  signaled := fun _ => by simp [State.multiReadCompletionRoutine, State.keSetEvent]
  clearing := by
    intro hi
    change s.l2Phase.isClearing = true at hi
    rw [hphase] at hi
    cases hi

theorem unheard_recycle : Unheard s s.recycle := ⟨rfl, rfl, id⟩

theorem unheard_fillReadRequest (ntStatus readIrpCompletion : NtStatus) (recycled present : Bool) :
    Unheard s (s.fillReadRequest cfg ntStatus readIrpCompletion recycled present) := by
  unfold State.fillReadRequest
  simp only
  split
  · exact ⟨rfl, rfl, id⟩
  · split
    · exact unheard_recycle
    · split_ifs <;> exact ⟨rfl, rfl, id⟩

theorem unheard_advanceFillIdx : Unheard s (s.advanceFillIdx cfg) := by
  unfold State.advanceFillIdx
  simp only
  split
  · exact (unheard_keSetEvent (by decide)).congr rfl rfl id
  · exact ⟨rfl, rfl, id⟩

/-- A step keeps the completions notified, unless a completion comes in front of the clear. -/
theorem Notified.step (h : Notified s) (hop : op.Apart s) (hs : L2.step cfg s op = some s') :
    Notified s' := by
  cases op with
  | keSetEvent e =>
      simp only [L2.step] at hs
      split_ifs at hs with he
      obtain rfl := Option.some.inj hs
      exact h.unheard (unheard_keSetEvent (by rintro rfl; simp at he))
  | l2Top started polling =>
      simp only [L2.step] at hs
      split_ifs at hs
      obtain rfl := Option.some.inj hs
      exact h.unheard (unheard_l2Top started polling)
  | l2Called ntStatus =>
      simp only [L2.step] at hs
      split_ifs at hs
      obtain rfl := Option.some.inj hs
      exact h.unheard (unheard_l2Called ntStatus)
  | l2Wait e present suspended =>
      simp only [L2.step] at hs
      split_ifs at hs
      obtain rfl := Option.some.inj hs
      exact h.l2Wait present suspended e
  | l2Dequeue =>
      simp only [L2.step] at hs
      split_ifs at hs
      obtain rfl := Option.some.inj hs
      exact h.l2Dequeue
  | l2CheckEmpty =>
      simp only [L2.step] at hs
      split at hs
      · obtain rfl := Option.some.inj hs
        refine ⟨h.signaled, fun hi => ?_⟩
        dsimp only at hi ⊢
        split_ifs at hi with hempty
        · exact List.isEmpty_iff.mp hempty
        · cases hi
      · cases hs
  | l2ClearEvent =>
      simp only [L2.step] at hs
      split at hs
      next i hphase =>
        obtain rfl := Option.some.inj hs
        have hempty := h.clearing (by rw [hphase]; rfl)
        exact .empty hempty
      · cases hs
  | l2Process =>
      simp only [L2.step] at hs
      split at hs
      · obtain rfl := Option.some.inj hs
        exact h.unheard (unheard_l2Process _)
      · cases hs
  | l2Finish present =>
      simp only [L2.step] at hs
      split_ifs at hs
      obtain rfl := Option.some.inj hs
      exact h.l2Finish present
  | usbCompletes i t =>
      simp only [L2.step] at hs
      split_ifs at hs
      obtain rfl := Option.some.inj hs
      exact .multiReadCompletionRoutine hop i t
  | l1Fill =>
      simp only [L2.step] at hs
      split_ifs at hs
      obtain rfl := Option.some.inj hs
      exact h.unheard ⟨rfl, rfl, id⟩
  | l1FillReadRequest readIrpCompletion recycled present =>
      simp only [L2.step] at hs
      split at hs
      · obtain rfl := Option.some.inj hs
        exact h.unheard (unheard_fillReadRequest ..)
      · cases hs
  | l1Advance =>
      simp only [L2.step] at hs
      split_ifs at hs
      obtain rfl := Option.some.inj hs
      exact h.unheard unheard_advanceFillIdx
  | l1Stop =>
      simp only [L2.step] at hs
      split_ifs at hs
      obtain rfl := Option.some.inj hs
      exact h.unheard ((unheard_keSetEvent (by decide)).congr rfl rfl id)
  | l1StopAcked =>
      simp only [L2.step] at hs
      split_ifs at hs
      obtain rfl := Option.some.inj hs
      exact h.unheard ⟨rfl, rfl, id⟩
  | l1Resume bDeviceRemoved =>
      simp only [L2.step] at hs
      split_ifs at hs
      obtain rfl := Option.some.inj hs
      exact h.unheard ((unheard_keSetEvent (by decide)).congr rfl rfl id)
  | l1ResumeAcked =>
      simp only [L2.step] at hs
      split_ifs at hs
      obtain rfl := Option.some.inj hs
      exact h.unheard ⟨rfl, rfl, id⟩
  | l1Cancel =>
      simp only [L2.step] at hs
      split_ifs at hs
      obtain rfl := Option.some.inj hs
      exact h.unheard ((unheard_keSetEvent (by decide)).congr rfl rfl id)

end

/-- No completion is lost in runs in which none comes between the test of the queue and the clear of
its event. -/
theorem signaled_of_apart (cfg : Settings) (ops : List Op)
    (hops : ∀ p ∈ (reads cfg).fires .start ops, p.2.Apart p.1) :
    ∀ s ∈ (reads cfg).visits .start ops, s.l2Phase = .waiting → s.l2CompletionQueue ≠ [] →
      s.signaled .usbRead = true := by
  have hstep : ∀ s op s' o, Notified s → op.Apart s → reads cfg s op = some (s', o) →
      Notified s' := fun s op s' o h hop hs => h.step hop (step_of_reads hs)
  intro s hs _ hne
  exact (Machine.visits_all_of_fires hstep (.empty rfl) hops s hs).signaled hne

/-- Both buffers come back, one behind the other. -/
theorem signaled_of_apart_both :
    ((reads twoBuffers).fires .start outOfOrderRun).length = 33 ∧
      ∀ s ∈ (reads twoBuffers).visits .start outOfOrderRun, s.l2Phase = .waiting →
        s.l2CompletionQueue ≠ [] → s.signaled .usbRead = true :=
  ⟨by decide +kernel, signaled_of_apart twoBuffers outOfOrderRun (by decide +kernel)⟩

/-- Both buffers are submitted, and the second comes back while the event of the first is cleared. -/
def lostRun : List Op :=
  resumed ++
    [.l2Top true true, .l2Called statusPending, .l2Top true true, .l2Called statusPending,
      .l2Top true true, .usbCompletes 0 (transferOf statusSuccess 64), .l2Wait .usbRead true false,
      .l2Dequeue, .l2CheckEmpty, .usbCompletes 1 (transferOf statusSuccess 64), .l2ClearEvent,
      .l2Process, .l2Finish true, .l2Top true true]

/-- The thread waits, and the second buffer stays on the queue. -/
theorem not_signaled_lostRun :
    ¬ ∀ s ∈ (reads twoBuffers).visits .start lostRun, s.l2Phase = .waiting →
      s.l2CompletionQueue ≠ [] → s.signaled .usbRead = true := by
  decide +kernel

end Transport.L2
