-- SUMMARY: When a read of the serial driver can be left waiting next to buffered data.
import QcomUsb.WdfSerial.OpenRun

/-!
# Reads that wait next to data

A read that waits while bytes are buffered needs an event or the timer to be served.
The interval mode can take both away: it cancels the timer of the read in the timeout
queue, drains the buffer into the read queue only, and may stop with bytes left.
-/

namespace WdfSerial

open Transition Machine

/-- The read in the timeout queue is to be looked at. The timer is armed until its DPC has run. -/
def State.Awaited (s : State) : Prop :=
  s.events .requestTimeout = true ∨ s.events .requestCompletion = true ∨
    s.readTimer = true ∨ s.readTimeoutDpc = true

/-- When the thread is about to wait with bytes buffered and a read queued, something wakes it. -/
def State.NotStuck (s : State) : Prop :=
  s.control = .wait → s.bytesUsed ≠ 0 → (s.readQueue ≠ [] ∨ s.timeoutReadQueue ≠ []) →
    s.events .requestArrive = true ∨ s.Awaited

/-- When the interval mode runs out of reads with bytes left, the read in the timeout queue
is still to be looked at. -/
def LeavesAwaited (s : State) : Op → Prop
  | .thread _ =>
    s.control = .drain true → s.readQueue = [] → s.bytesUsed ≠ 0 → s.timeoutReadQueue ≠ [] →
      s.Awaited
  | _ => True

instance (s : State) : Decidable s.Awaited := inferInstanceAs (Decidable (_ ∨ _ ∨ _ ∨ _))

instance (s : State) (op : Op) : Decidable (LeavesAwaited s op) :=
  match op with
  | .thread _ => inferInstanceAs (Decidable (_ → _ → _ → _ → _))
  | .readArrives _ | .readCancelled _ | .urbCompletes _ _ | .timerExpires | .timeoutDpc
  | .setTimeout _ | .purgeAbort | .setEvent _ | .wake _ => .isTrue trivial

/-- What keeps the reads from being stuck, at each control point. -/
structure Waiting (s : State) : Prop where
  one : s.timeoutReadQueue.length ≤ 1
  drain : ∀ b, s.control = .drain b → b = s.useReadInterval
  interval : s.control.settled = true ∨ s.control = .arrive → s.useReadInterval = true →
    s.timeoutReadQueue ≠ [] → s.bytesUsed ≠ 0 → s.Awaited
  others : s.control.settled = true → s.useReadInterval = false → s.timeoutReadQueue ≠ [] →
    s.bytesUsed ≠ 0 → s.events .requestArrive = true

variable {d : VendorConfig} {s s' : State} {ok : Bool}

namespace Waiting

theorem notStuck (h : Waiting s) (hannounced : s.Announced) : s.NotStuck := by
  intro hc hused hqueues
  have hsettled : s.control.settled = true := by simp [hc, Control.settled]
  rcases hqueues with hread | htimeout
  · exact .inl (hannounced (by simp [hc, Control.announcing, Control.settled]) hread hused)
  · cases hinterval : s.useReadInterval with
    | true => exact .inr (h.interval (.inl hsettled) hinterval htimeout hused)
    | false => exact .inl (h.others hsettled hinterval htimeout hused)

/-- Where the thread holds no promise, only the shape of the timeout queue counts. -/
theorem of_busy (hone : s.timeoutReadQueue.length ≤ 1) (hsettled : s.control.settled = false)
    (hdrain : ∀ b, s.control ≠ .drain b) (harrive : s.control ≠ .arrive) : Waiting s where
  one := hone
  drain b hb := absurd hb (hdrain b)
  interval hc := by simp [hsettled, harrive] at hc
  others hc := by simp [hsettled] at hc

theorem of_settled (hone : s.timeoutReadQueue.length ≤ 1) (hc : s.control.settled = true)
    (hinterval : s.useReadInterval = true → s.timeoutReadQueue ≠ [] → s.bytesUsed ≠ 0 → s.Awaited)
    (hothers : s.useReadInterval = false → s.timeoutReadQueue ≠ [] → s.bytesUsed ≠ 0 →
      s.events .requestArrive = true) : Waiting s where
  one := hone
  drain b hb := by simp [hb, Control.settled, Control.sending] at hc
  interval _ := hinterval
  others _ := hothers

/-- An empty buffer asks for nothing. -/
theorem of_empty (hone : s.timeoutReadQueue.length ≤ 1) (hc : s.control.settled = true)
    (hempty : s.bytesUsed = 0) : Waiting s :=
  of_settled hone hc (fun _ _ hused => absurd hempty hused) fun _ _ hused => absurd hempty hused

/-- Nothing but the control point changes, within the settled ones. -/
theorem of_same (h : Waiting s) (hc : s.control.settled = true) (hc' : s'.control.settled = true)
    (hmode : s'.useReadInterval = s.useReadInterval) (hused : s'.bytesUsed = s.bytesUsed)
    (hqueue : s'.timeoutReadQueue = s.timeoutReadQueue) (hawaited : s.Awaited → s'.Awaited)
    (harrive : s'.events .requestArrive = s.events .requestArrive) : Waiting s' :=
  of_settled (hqueue ▸ h.one) hc'
    (fun hi ht hu => hawaited (h.interval (.inl hc) (hmode ▸ hi) (hqueue ▸ ht) (hused ▸ hu)))
    fun hi ht hu => harrive.trans (h.others hc (hmode ▸ hi) (hqueue ▸ ht) (hused ▸ hu))

/-- The environment may take a read away and add wake-ups. -/
theorem of_env (h : Waiting s) (hc : s'.control = s.control)
    (hmode : s'.useReadInterval = s.useReadInterval) (hused : s'.bytesUsed = s.bytesUsed)
    (hone : s'.timeoutReadQueue.length ≤ 1)
    (htimeout : s'.timeoutReadQueue ≠ [] → s.timeoutReadQueue ≠ [])
    (hawaited : s'.timeoutReadQueue ≠ [] → s.Awaited → s'.Awaited)
    (harrive : s.events .requestArrive = true → s'.events .requestArrive = true) :
    Waiting s' where
  one := hone
  drain b hb := (h.drain b (hc ▸ hb)).trans hmode.symm
  interval hs hi ht hu :=
    hawaited ht (h.interval (hc ▸ hs) (hmode ▸ hi) (htimeout ht) (hused ▸ hu))
  others hs hi ht hu := harrive (h.others (hc ▸ hs) (hmode ▸ hi) (htimeout ht) (hused ▸ hu))

/-! ## Steps of the thread -/

theorem completionDone (h : Waiting s) (ha : s.bDeviceAwaken = true) :
    Waiting s.completionDoneStep := by
  unfold State.completionDoneStep
  dsimp only
  split
  · refine of_settled h.one rfl (fun _ _ _ => ?_) fun _ _ _ => ?_
    · exact .inr (.inr (.inl rfl))
    · simp
  · rename_i hnotimer
    refine of_settled h.one rfl (fun hi ht _ => ?_) fun _ _ _ => by simp
    -- in the interval mode the timer has been set
    have hflags : s.readTimeout.bUseReadInterval = true ∧ 0 < s.timeouts.readIntervalTimeout := by
      have hmode : s.useReadInterval = true := hi
      simp only [State.useReadInterval, Bool.and_eq_true, decide_eq_true_eq] at hmode
      exact hmode.1
    exact absurd ⟨ha, hflags.1, ht, hflags.2⟩ hnotimer

theorem arrive (h : Waiting s) (hc : s.control = .arrive) (hs : ArriveStep s ok s') :
    Waiting s' := by
  cases hs with
  | nothing hempty => exact of_empty h.one (startResend_settled _) hempty
  | forwarded timer hempty => exact of_empty (by simp [State.startResend]) (startResend_settled _) hempty
  | atOnce timer status hempty => exact of_empty h.one (startResend_settled _) hempty
  | keep hinterval hread =>
    refine of_settled h.one (startResend_settled _) (h.interval (.inr hc)) fun hi => ?_
    exact absurd (hi.symm.trans hinterval) (by simp)
  | bypass hinterval =>
    refine ⟨h.one, ?_, ?_, ?_⟩
    · intro b hb
      obtain rfl : true = b := by simpa using hb
      exact hinterval.symm
    all_goals simp [Control.settled, Control.sending]
  | drain hinterval =>
    refine ⟨h.one, ?_, ?_, ?_⟩
    · intro b hb
      obtain rfl : false = b := by simpa using hb
      exact hinterval.symm
    all_goals simp [Control.settled, Control.sending]

theorem nextRead {b : Bool} {r : ReadRequest} {t : State} (h : Waiting s)
    (hc : s.control = .drain b) (hnext : s.nextRead b = some (r, t)) :
    t.timeoutReadQueue.length ≤ 1 ∧ t.control = .drain b ∧ b = t.useReadInterval := by
  have hb : b = s.useReadInterval := h.drain b hc
  have hone := h.one
  cases nextRead_cases hnext with
  | fromTimeoutQueue hinterval htimeout =>
    rw [htimeout, List.length_cons] at hone
    exact ⟨Nat.le_trans (Nat.le_succ _) hone, hc, hb⟩
  | fromReadQueue hread htimeout => exact ⟨hone, hc, hb⟩

/-- In the drain loop only the mode is known. -/
theorem of_drain {b : Bool} (hone : s.timeoutReadQueue.length ≤ 1) (hc : s.control = .drain b)
    (hmode : b = s.useReadInterval) : Waiting s where
  one := hone
  drain b' hb' := by
    obtain rfl : b = b' := by simpa [hc] using hb'
    exact hmode
  interval hs := by simp [hc, Control.settled, Control.sending] at hs
  others hs := by simp [hc, Control.settled, Control.sending] at hs

theorem drainLoop {b : Bool} (h : Waiting s) (hc : s.control = .drain b)
    (hok : LeavesAwaited s (.thread ok)) (hs : DrainStep s b ok s') : Waiting s' := by
  cases hs with
  | empty hempty => exact of_empty h.one (startResend_settled _) hempty
  | noRead hnext hused =>
    obtain ⟨hread, htimeout⟩ := nextRead_eq_none hnext
    have hb : b = s.useReadInterval := h.drain b hc
    refine of_settled h.one (startResend_settled _) ?_ ?_
    · intro hi ht _
      obtain rfl : b = true := hb.trans hi
      exact hok hc hread hused ht
    · intro hi ht
      exact absurd (htimeout (hb.trans hi)) ht
  | notified status hnext | served status hnext =>
    obtain ⟨hone, hc', hmode⟩ := h.nextRead hc hnext
    exact of_drain hone hc' hmode

theorem timeoutCase (h : Waiting s) (hs : TimeoutStep s ok s') : Waiting s' := by
  have hone := h.one
  cases hs with
  | empty htimeout =>
    exact of_settled hone rfl (fun _ ht => absurd htimeout ht) fun _ ht => absurd htimeout ht
  | @partialRead r rest status htimeout | @timedOut r rest htimeout =>
    -- the timeout queue held one read
    obtain rfl : rest = [] := by simpa [htimeout] using hone
    exact of_settled (Nat.zero_le 1) rfl (fun _ ht => absurd rfl ht) fun _ ht => absurd rfl ht

theorem thread (h : Waiting s) (hopen : s.IsOpen) (hok : LeavesAwaited s (.thread ok))
    (hs : s.threadStep d ok = some s') : Waiting s' := by
  cases hopen.threadStep hs with
  | completion hc hstep =>
    cases hstep <;> exact of_busy h.one (by simp [hc, Control.settled, Control.sending])
      (by simp [hc]) (by simp [hc])
  | copy hc =>
    unfold State.copyStep
    dsimp only
    split <;> exact of_busy h.one rfl (by simp) (by simp)
  | completionDone hc => exact h.completionDone hopen.awaken
  | arrive hc hstep => exact h.arrive hc hstep
  | drain hc hstep => exact h.drainLoop hc hok hstep
  | timeout hc hstep => exact h.timeoutCase hstep
  | clearRing hc => exact of_empty h.one rfl rfl
  | clearLists hc => exact h.of_same (by simp [hc, Control.settled]) rfl rfl rfl rfl id rfl
  | sends hc l n c hl hc' =>
    exact h.of_same (Control.settled_of_sending hc) (Control.settled_of_sends hc') rfl rfl rfl id rfl

/-! ## Steps of the environment -/

theorem wake {e : Event} (h : Waiting s) (hopen : s.IsOpen) (hc : s.control = .wait)
    (he : s.events e = true) : Waiting (s.wake e) := by
  have hsettled : s.control.settled = true := by simp [hc, Control.settled]
  have hlife : e.lifecycle = false := hopen.lifecycle_eq_false he
  cases e with
  | deviceRemove | fileCreate | fileClose | d0Exit | d0Entry => simp [Event.lifecycle] at hlife
  | requestArrive =>
    refine ⟨h.one, by simp [State.wake], fun _ hi ht hu => ?_, ?_⟩
    · exact (h.interval (.inl hsettled) hi ht hu).imp (by simp [State.wake]) (by simp [State.wake])
    · simp [State.wake, Control.settled, Control.sending]
  | clearBuffer | scanWaitMask =>
    refine h.of_same hsettled rfl rfl rfl rfl (fun haw => ?_) (by simp [State.wake])
    exact haw.imp (by simp [State.wake]) (by simp [State.wake])
  | requestTimeout | requestCompletion =>
    exact of_busy h.one rfl (by simp [State.wake]) (by simp [State.wake])

theorem step {op : Op} (h : Waiting s) (hopen : s.IsOpen) (hkeeps : op.keepsTimeouts = true)
    (hok : LeavesAwaited s op) (hs : s.step d op = some s') : Waiting s' := by
  have hone := h.one
  cases step_cases hs with
  | arrivesFirst =>
    exact h.of_env rfl rfl rfl hone id (fun _ => .imp (by simp) (by simp)) (by simp)
  | arrivesNext => exact h.of_env rfl rfl rfl hone id (fun _ => id) id
  | @cancelled r hr =>
    have hone' : (s.timeoutReadQueue.erase r).length ≤ 1 :=
      Nat.le_trans (List.length_erase_le ..) hone
    refine h.of_env rfl rfl rfl hone' (fun ht hnil => ht ?_) (fun _ => id) id
    simp [hnil]
  | completes =>
    exact h.of_env rfl rfl rfl hone id (fun _ _ => .inr (.inl (by simp))) (by simp)
  | expires => exact h.of_env rfl rfl rfl hone id (fun _ _ => .inr (.inr (.inr rfl))) id
  | dpc => exact h.of_env rfl rfl rfl hone id (fun _ _ => .inl (by simp)) (by simp)
  | setTimeout => simp [Op.keepsTimeouts] at hkeeps
  | purgeReads htimeout =>
    exact h.of_env rfl rfl rfl hone id (fun ht => absurd htimeout ht) id
  | @purgeBoth r rest htimeout =>
    obtain rfl : rest = [] := by simpa [htimeout] using hone
    exact h.of_env rfl rfl rfl (Nat.zero_le 1) (fun ht => absurd rfl ht) (fun ht => absurd rfl ht) id
  | @setEvent e =>
    refine h.of_env rfl rfl rfl hone id (fun _ haw => ?_) ?_
    · simp only [State.Awaited, State.setEvent, Function.update_apply] at haw ⊢
      split_ifs <;> simp_all
    · simp only [State.setEvent, Function.update_apply]
      split_ifs <;> simp_all
  | wake hc he => exact h.wake hopen hc he
  | thread hstep => exact h.thread hopen hok hstep

end Waiting

/-! ## Runs -/

/-- In a run with the file open, the device in D0 and the timeouts fixed, no read is left waiting
next to buffered data, unless the interval mode leaves one. -/
theorem readThread_notStuck (d : VendorConfig) (start : State) (hstart : start.Opened)
    (ops : List Op) (hops : ∀ op ∈ ops, op.staysOpen = true ∧ op.keepsTimeouts = true)
    (hok : ∀ p ∈ (readThread d).fires start ops, LeavesAwaited p.1 p.2) :
    ∀ s ∈ (readThread d).visits start ops, s.NotStuck := by
  intro s hs
  have hwaiting : Waiting start := .of_empty (by simp [hstart.timeoutReadQueue])
    (by simp [hstart.control, Control.settled]) hstart.empty
  have hinv := visits_all_of_fires_adm (P := fun s => s.IsOpen ∧ s.Announced ∧ Waiting s) ?_
    ⟨hstart.isOpen, .of_empty hstart.empty, hwaiting⟩ hops hok s hs
  · exact hinv.2.2.notStuck hinv.2.1
  rintro s op s' o ⟨hopen, hannounced, hwaiting⟩ ⟨hstays, hkeeps⟩ hok hstep
  have hstep : s.step d op = some s' := step_of_readThread hstep
  exact ⟨hopen.step hstays hstep, hannounced.step hopen hstep,
    hwaiting.step hopen hkeeps hok hstep⟩

/-- A device with a gap of 10 ms as its only timeout. -/
def gapState : State := openState [⟨0, .success, []⟩, ⟨1, .success, []⟩] 16 ⟨10, 0, 0⟩

/-- The read of four bytes waits for a gap, and three bytes come for it. -/
def gapOps : List Op :=
  [.readArrives 4, .wake .requestArrive, .thread true, .thread true,
    .urbCompletes 0 ⟨.success, 3, some 3, fun _ => 7⟩, .wake .requestCompletion, .thread true,
    .thread true, .thread true, .thread true]

/-- A read of one byte comes before the gap has passed. It is served at once. -/
def bypassOps : List Op :=
  [.readArrives 1, .wake .requestArrive, .thread true, .thread true, .thread true, .thread true,
    .thread true, .thread true, .thread true, .thread true]

/-- No other read comes, and the arrive case leaves the timer alone. -/
def keepOps : List Op :=
  [.wake .requestArrive, .thread true, .thread true, .thread true, .thread true, .thread true,
    .thread true]

theorem readThread_notStuck_keep :
    ∃ s ∈ (readThread ⟨2000, 10, 4⟩).visits gapState (gapOps ++ keepOps),
      s.NotStuck ∧ s.control = .wait ∧ s.bytesUsed = 3 ∧ s.timeoutReadQueue = [⟨0, 4⟩] := by
  have hlast := List.getLast_mem (List.ne_nil_of_mem (Machine.start_mem_visits
    (M := readThread ⟨2000, 10, 4⟩) gapState (gapOps ++ keepOps)))
  refine ⟨_, hlast, ?_, by decide +kernel, by decide +kernel, by decide +kernel⟩
  exact readThread_notStuck _ _ (openState_opened ..) _ (by decide) (by decide +kernel) _ hlast

/-- The read that waits for the gap is left with two bytes, no event and no timer. -/
theorem readThread_notStuck_bypass :
    ¬ ∀ s ∈ (readThread ⟨2000, 10, 4⟩).visits gapState (gapOps ++ bypassOps), s.NotStuck := by
  intro hall
  have hlast := hall _ (List.getLast_mem (List.ne_nil_of_mem (Machine.start_mem_visits _ _)))
  have hstuck := hlast (by decide +kernel) (by decide +kernel) (.inr (by decide +kernel))
  revert hstuck
  decide +kernel

end WdfSerial
