-- SUMMARY: When STOP, PURGE and CANCEL are honoured: no request falls into the drain of another.
import QcomUsb.Transport.WriteThread

/-!
# Control requests of the write thread

A STOP or CANCEL that finds transfers pending is left in `mwtState`, and the end of the drain
answers it. A second request within the drain takes its place, and a PURGE is never answered that
way.
-/

namespace Transport.Mwt

open Transition

namespace State

/-- When nothing is with USB or on its way back and the thread is about to wait, each STOP is
acknowledged, each CANCEL has set `bCancelled`, and each PURGE has emptied the data queue. -/
def Honoured (s : State) : Prop :=
  s.phase = .wait → s.mWritePendingQueue = [] → s.mWriteCompletionQueue = [] →
    s.stopOwed = false ∧ s.purgeOwed = false ∧ s.cancelOwed = false

instance (s : State) : Decidable s.Honoured :=
  inferInstanceAs (Decidable (s.phase = .wait → s.mWritePendingQueue = [] →
    s.mWriteCompletionQueue = [] → _))

end State

/-- The event that the thread consumes does not take the place of a request that waits for the end
of a drain, and a PURGE finds no transfer pending. -/
def State.Event.Separate (cfg : Cfg) (s : State) : State.Event → Prop
  | .purge => s.mWritePendingQueue = []
  | .stop => s.mWritePendingQueue ≠ [] → s.mwtState ≠ .cancelling
  | .cancel => s.mWritePendingQueue ≠ [] → s.mwtState ≠ .stopping
  | .flowOff => cfg.highSpeed = false → s.mwtState ≠ .stopping ∧ s.mwtState ≠ .cancelling
  | _ => True

def Op.Separate (cfg : Cfg) (s : State) : Op → Prop
  | .thread _ event => s.phase = .wait → event.Separate cfg s
  | _ => True

instance (cfg : Cfg) (s : State) (event : State.Event) : Decidable (event.Separate cfg s) := by
  unfold State.Event.Separate
  split <;> infer_instance

instance (cfg : Cfg) (s : State) (op : Op) : Decidable (op.Separate cfg s) := by
  unfold Op.Separate
  split <;> infer_instance

namespace State

variable {cfg : Cfg} {s t : State}

/-! ## The invariant -/

/-- A request that is owed is the one in `mwtState`, which is drained while something is with USB
or on its way back. A purge that is owed is done at the head of the loop. -/
structure ControlInv (s : State) : Prop where
  stop : s.stopOwed = true → s.mwtState = .stopping
  cancel : s.cancelOwed = true → s.mwtState = .cancelling
  purge : s.purgeOwed = true → s.bPurged = true ∧ s.phase = .loopHead
  drain : s.mwtState = .stopping ∨ s.mwtState = .cancelling →
    s.mWritePendingQueue ≠ [] ∨ s.mWriteCompletionQueue ≠ []

theorem initial_controlInv (cfg : Cfg) : (initial cfg).ControlInv where
  stop := by simp [initial]
  cancel := by simp [initial]
  purge := by simp [initial]
  drain := by simp [initial]

/-- Only at the head of the loop a purge is owed. -/
theorem ControlInv.not_purgeOwed (hs : s.ControlInv) (hphase : s.phase ≠ .loopHead) :
    s.purgeOwed = false := by
  by_contra howed
  exact hphase (hs.purge (by simpa using howed)).2

theorem ControlInv.not_stopOwed (hs : s.ControlInv) (hstate : s.mwtState ≠ .stopping) :
    s.stopOwed = false := by
  by_contra howed
  exact hstate (hs.stop (by simpa using howed))

theorem ControlInv.not_cancelOwed (hs : s.ControlInv) (hstate : s.mwtState ≠ .cancelling) :
    s.cancelOwed = false := by
  by_contra howed
  exact hstate (hs.cancel (by simpa using howed))

theorem ControlInv.honoured (h : s.ControlInv) : s.Honoured := by
  intro hphase hpending hcompletion
  have hidle : ¬ (s.mwtState = .stopping ∨ s.mwtState = .cancelling) := by
    intro hstate
    rcases h.drain hstate with hne | hne
    · exact hne hpending
    · exact hne hcompletion
  exact ⟨h.not_stopOwed fun hstate => hidle (.inl hstate), h.not_purgeOwed (by simp [hphase]),
    h.not_cancelOwed fun hstate => hidle (.inr hstate)⟩

theorem ControlInv.of_same (hs : s.ControlInv) (h : s.SameControl t) : t.ControlInv where
  stop := by simpa only [h.stopOwed, h.mwtState] using hs.stop
  cancel := by simpa only [h.cancelOwed, h.mwtState] using hs.cancel
  purge := by simpa only [h.purgeOwed, h.bPurged, h.phase] using hs.purge
  drain := by simpa only [h.mwtState, h.pending, h.completion] using hs.drain

/-- The thread goes on while no purge is owed. -/
theorem ControlInv.goTo (hs : s.ControlInv) (hpurge : s.purgeOwed = false) (phase : Phase) :
    (s.goTo phase).ControlInv where
  stop := hs.stop
  cancel := hs.cancel
  purge := by simp [State.goTo, hpurge]
  drain := hs.drain

/-! ## The phases of the thread -/

theorem ControlInv.loopHead (hs : s.ControlInv) : s.loopHead.ControlInv := by
  have hsame := s.sameThread_purgeQueue.toSameControl
  unfold State.loopHead
  split
  · -- the purge is done
    have hpurged := hs.of_same hsame
    exact ⟨hpurged.stop, hpurged.cancel, by simp, hpurged.drain⟩
  · rename_i hpresent
    have hpurge : s.purgeOwed = false := by
      by_contra howed
      obtain ⟨hpurged, -⟩ := hs.purge (by simpa using howed)
      simp [hpurged] at hpresent
    split
    · exact hs.goTo hpurge .wait
    · split
      · exact hs.goTo hpurge .wait
      · exact hs.goTo hpurge .dequeue

theorem ControlInv.dequeue (hs : s.ControlInv) (hphase : s.phase = .dequeue) (wakeup : Bool) :
    (s.dequeue wakeup).ControlInv := by
  have hpurge : s.purgeOwed = false := hs.not_purgeOwed (by simp [hphase])
  have hwait : (s.goTo .wait).ControlInv := hs.goTo hpurge .wait
  unfold State.dequeue
  split
  · exact hwait
  · split
    · exact hwait
    · rename_i b idle _
      split
      · exact hwait
      · split
        · have hsame := s.sameThread_purgeQueue.toSameControl
          exact (hs.of_same hsame).goTo (hsame.purgeOwed.trans hpurge) .wait
        · split
          · exact hwait
          · -- one more buffer is pending
            have htaken : ∀ phase, State.ControlInv { s with
                mWriteIdleQueue := idle
                pMwtBuffer := Function.update s.pMwtBuffer b
                  { s.pMwtBuffer b with state := .pending }
                mWritePendingQueue := s.mWritePendingQueue ++ [b]
                phase := phase } :=
              fun _ => ⟨hs.stop, hs.cancel, by simp [hpurge], fun _ => .inl (by simp)⟩
            dsimp only
            split
            · exact htaken _
            · split
              · exact htaken _
              · rename_i irp rest _
                have hnext := htaken (.send b (some irp))
                exact ⟨hnext.stop, hnext.cancel, hnext.purge, hnext.drain⟩

theorem ControlInv.send (hs : s.ControlInv) {b : Nat} {irp : Option Irp}
    (hphase : s.phase = .send b irp) : (s.send cfg b irp).ControlInv := by
  have hpurge : s.purgeOwed = false := hs.not_purgeOwed (by simp [hphase])
  unfold State.send
  split
  · exact ⟨hs.stop, hs.cancel, hs.purge, hs.drain⟩
  · exact ⟨hs.stop, hs.cancel, by simp [hpurge], hs.drain⟩

/-! ## Completions -/

theorem ControlInv.writeCompletionRoutine (hs : s.ControlInv) (b transferred : Nat)
    (status : NtStatus) : (s.writeCompletionRoutine b transferred status).ControlInv where
  stop := hs.stop
  cancel := hs.cancel
  purge := hs.purge
  drain := fun _ => .inr (by simp [State.writeCompletionRoutine])

/-- Nothing is owed, and nothing is drained. -/
theorem ControlInv.of_quiet (hstop : s.stopOwed = false) (hcancel : s.cancelOwed = false)
    (hpurge : s.purgeOwed = false) (hstate : s.mwtState = .working ∨ s.mwtState = .flowOff) :
    s.ControlInv where
  stop := by simp [hstop]
  cancel := by simp [hcancel]
  purge := by simp [hpurge]
  drain := by rcases hstate with h | h <;> simp [h]

/-- The end of a drain answers the request in `mwtState`. -/
theorem endOfDrain_controlInv (hstop : s.stopOwed = true → s.mwtState = .stopping)
    (hcancel : s.cancelOwed = true → s.mwtState = .cancelling) (hpurge : s.purgeOwed = false) :
    (s.endOfDrain.goTo .loopHead).ControlInv := by
  have hworking : (s.endOfDrain.goTo .loopHead).mwtState = .working := rfl
  refine .of_quiet ?_ ?_ ?_ (.inl hworking)
  · cases hstate : s.mwtState <;> simp_all [State.goTo, endOfDrain]
  · cases hstate : s.mwtState <;> simp_all [State.goTo, endOfDrain]
  · cases hstate : s.mwtState <;> simpa [State.goTo, endOfDrain, hstate] using hpurge

theorem ControlInv.processCompletion (hs : s.ControlInv) {b : Nat} (hphase : s.phase = .process b) :
    (s.processCompletion cfg b).ControlInv := by
  have hpurge : s.purgeOwed = false := hs.not_purgeOwed (by simp [hphase])
  have hsame := (s.sameControl_partialTransfer b).trans (sameControl_returnWrite cfg _ b)
  have hreturned := hs.of_same hsame
  have hpurge' := hsame.purgeOwed.trans hpurge
  unfold State.processCompletion
  generalize (s.partialTransfer b).returnWrite cfg b = u at hreturned hpurge'
  unfold afterCompletion
  split
  · rename_i hoff
    have hoff : u.mwtState = .flowOff := hoff
    refine .of_quiet (hreturned.not_stopOwed (by simp [hoff]))
      (hreturned.not_cancelOwed (by simp [hoff])) hpurge' ?_
    rcases eq_or_ne u.mwtSentIrpQueue [] with hempty | hsent
    · exact .inl (if_pos hempty)
    · exact .inr (if_neg hsent)
  · split
    · split
      · -- the drain goes on with what is pending
        rename_i hpending
        have hnone : u.purgeOwed = true → ∀ q : Prop, q := fun howed => by simp [howed] at hpurge'
        exact ⟨hreturned.stop, hreturned.cancel, fun howed => hnone howed _, fun _ => .inl hpending⟩
      · exact endOfDrain_controlInv hreturned.stop hreturned.cancel hpurge'
    · rename_i hworking
      have hworking : u.mwtState = .working := by simpa [recycle] using hworking
      exact .of_quiet (hreturned.not_stopOwed (by simp [hworking]))
        (hreturned.not_cancelOwed (by simp [hworking])) hpurge' (.inl hworking)

/-! ## Events -/

theorem ControlInv.consume (hs : s.ControlInv) (hphase : s.phase = .wait) {event : Event}
    (hok : event.Separate cfg s) : (s.consume cfg event).ControlInv := by
  have hpurge : s.purgeOwed = false := hs.not_purgeOwed (by simp [hphase])
  have hnone : s.purgeOwed = true → ∀ q : Prop, q := fun howed => by simp [howed] at hpurge
  cases event with
  | completion =>
    simp only [State.consume]
    split
    · exact hs.goTo hpurge .loopHead
    · exact hs.goTo hpurge _
  | cancelCurrent | kick | resume stopped | flowOn stopped =>
    exact ⟨hs.stop, hs.cancel, fun howed => hnone howed _, hs.drain⟩
  | cancel =>
    simp only [State.consume]
    split
    · -- left to the drain, and no STOP was
      rename_i hpending
      have hstop : s.stopOwed = true → ∀ q : Prop, q := fun howed =>
        absurd (hs.stop howed) (hok hpending)
      exact ⟨fun howed => hstop howed _, fun _ => rfl, fun howed => hnone howed _,
        fun _ => .inl hpending⟩
    · exact ⟨hs.stop, nofun, fun howed => hnone howed _, hs.drain⟩
  | purge =>
    simp only [State.consume]
    split
    · rename_i hpending
      exact absurd hok hpending
    · exact ⟨hs.stop, hs.cancel, fun _ => ⟨rfl, rfl⟩, hs.drain⟩
  | stop =>
    simp only [State.consume]
    split
    · rename_i hpending
      have hcancel : s.cancelOwed = true → ∀ q : Prop, q := fun howed =>
        absurd (hs.cancel howed) (hok hpending)
      exact ⟨fun _ => rfl, fun howed => hcancel howed _, fun howed => hnone howed _,
        fun _ => .inl hpending⟩
    · exact ⟨nofun, hs.cancel, fun howed => hnone howed _, hs.drain⟩
  | flowOff =>
    simp only [State.consume]
    split
    · exact ⟨hs.stop, hs.cancel, fun howed => hnone howed _, hs.drain⟩
    · rename_i hspeed
      obtain ⟨hstopping, hcancelling⟩ := hok (by simpa using hspeed)
      exact .of_quiet (hs.not_stopOwed hstopping) (hs.not_cancelOwed hcancelling) hpurge (.inr rfl)

theorem threadStep_controlInv (hs : s.ControlInv) {wakeup : Bool} {event : Event}
    (hok : s.phase = .wait → event.Separate cfg s)
    (h : threadStep cfg s wakeup event = some t) : t.ControlInv := by
  cases hphase : s.phase with
  | loopHead =>
    simp only [threadStep, hphase, Option.some.injEq] at h
    exact h ▸ hs.loopHead
  | dequeue =>
    simp only [threadStep, hphase, Option.some.injEq] at h
    exact h ▸ hs.dequeue hphase wakeup
  | send b irp =>
    simp only [threadStep, hphase, Option.some.injEq] at h
    exact h ▸ hs.send hphase
  | wait =>
    simp only [threadStep, hphase, Option.some.injEq, waitForCompletion] at h
    split at h
    · exact h ▸ hs.goTo (hs.not_purgeOwed (by simp [hphase])) .exited
    · exact h ▸ hs.consume hphase (hok hphase)
  | process b =>
    simp only [threadStep, hphase, Option.some.injEq] at h
    exact h ▸ hs.processCompletion hphase
  | exited => simp [threadStep, hphase] at h

theorem step_controlInv {op : Op} (hs : s.ControlInv) (hok : op.Separate cfg s)
    (h : step cfg s op = some t) : t.ControlInv := by
  obtain hsame | ⟨b, transferred, status, rfl, -, rfl⟩ | ⟨wakeup, event, rfl, hthread⟩ :=
    step_cases h
  · exact hs.of_same hsame.toSameControl
  · exact hs.writeCompletionRoutine b transferred status
  · exact threadStep_controlInv hs hok hthread

end State

/-! ## Runs -/

/-- Every STOP, PURGE and CANCEL is honoured in every state of a run in which no request falls into
the drain of another and no PURGE finds a transfer pending. -/
theorem controls_honoured (cfg : Cfg) (ops : List Op)
    (hok : ∀ p ∈ (writeThread cfg).fires (State.initial cfg) ops, p.2.Separate cfg p.1) :
    ∀ s ∈ (writeThread cfg).visits (State.initial cfg) ops, s.Honoured := by
  have hstep : ∀ s op s' (o : Unit), s.ControlInv → op.Separate cfg s →
      writeThread cfg s op = some (s', o) → s'.ControlInv :=
    fun s op s' o hs hop h => State.step_controlInv hs hop (step_of_writeThread h)
  intro s hs
  exact (Machine.visits_all_of_fires hstep (State.initial_controlInv cfg) hok s hs).honoured

/-- The transfer is cancelled, and its buffer comes back. -/
def cancelledBack : List Op :=
  [.usbCompletes 0 0 .cancelled, .thread false .completion, .thread false .kick,
    .thread false .kick]

/-- A STOP while a write is pending, and a purge when the buffer is back. -/
theorem controls_honoured_stop :
    let ops := oneSent ++ [.thread false .stop] ++ cancelledBack ++
      [.thread false .purge, .thread false .kick]
    (∀ p ∈ (writeThread twoBuffers).fires (State.initial twoBuffers) ops,
      p.2.Separate twoBuffers p.1) ∧
    ∀ s ∈ (writeThread twoBuffers).visits (State.initial twoBuffers) ops, s.Honoured :=
  have hok : ∀ p ∈ (writeThread twoBuffers).fires (State.initial twoBuffers)
      (oneSent ++ [.thread false .stop] ++ cancelledBack ++
        [.thread false .purge, .thread false .kick]), p.2.Separate twoBuffers p.1 := by
    decide +kernel
  ⟨hok, controls_honoured twoBuffers _ hok⟩

/-- A CANCEL in the drain of a STOP, which is never acknowledged, a STOP in the drain of a CANCEL,
after which the thread does not exit, and a PURGE while a write is pending, which purges nothing. -/
theorem controls_lost :
    (∃ s ∈ (writeThread twoBuffers).visits (State.initial twoBuffers)
        (oneSent ++ [.thread false .stop, .thread false .cancel] ++ cancelledBack),
      ¬ s.Honoured ∧ s.stopOwed = true) ∧
    (∃ s ∈ (writeThread twoBuffers).visits (State.initial twoBuffers)
        (oneSent ++ [.thread false .cancel, .thread false .stop] ++ cancelledBack),
      ¬ s.Honoured ∧ s.bCancelled = false) ∧
    ∃ s ∈ (writeThread twoBuffers).visits (State.initial twoBuffers)
        (oneSent ++ [.enqueue ⟨1, [4]⟩, .thread false .purge] ++ cancelledBack ++
          [.thread true .kick]),
      ¬ s.Honoured ∧ s.purgeOwed = true ∧ s.writeDataQueue ≠ [] := by
  decide +kernel

end Transport.Mwt
