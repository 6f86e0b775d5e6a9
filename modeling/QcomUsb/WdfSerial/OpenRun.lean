-- SUMMARY: Runs of the read thread while the file is open and the device in D0: the steps that are left, and what the sending of URBs leaves alone.
import QcomUsb.WdfSerial.ReadSteps

/-!
# Runs with the file open and the device in D0

Without a create, close, D0 or remove event, the thread runs the cases of reads,
completions and timeouts, and clears its buffer on request. The loops that send URBs
then change nothing the reads depend on.
-/

namespace WdfSerial

open Transition

/-- The events of the file and of the device. -/
def Event.lifecycle : Event → Bool
  | .deviceRemove | .fileCreate | .fileClose | .d0Exit | .d0Entry => true
  | _ => false

/-- The file stays open and the device in D0. -/
def Op.staysOpen : Op → Bool
  | .setEvent e => !e.lifecycle
  | _ => true

/-- The read timeouts stay as they are. -/
def Op.keepsTimeouts : Op → Bool
  | .setTimeout _ => false
  | _ => true

/-- The file is open, the device is in D0, and no event says otherwise. -/
structure State.IsOpen (s : State) : Prop where
  opened : s.bDeviceOpened = true
  awaken : s.bDeviceAwaken = true
  events : ∀ e, e.lifecycle = true → s.events e = false
  control : s.control.isOpen = true

/-- The file has been opened and the device is in D0: the thread waits, nothing is buffered, and
no read has come yet. What an earlier file or suspension left elsewhere does not matter. -/
structure State.Opened (s : State) : Prop where
  isOpen : s.IsOpen
  control : s.control = .wait
  ring : s.readRingBuffer.Inv
  empty : s.bytesUsed = 0
  readQueue : s.readQueue = []
  timeoutReadQueue : s.timeoutReadQueue = []

/-- A device that was set up, with its file opened and all URBs sent. -/
def openState (pendingList : List Urb) (capacity : Nat) (t : SerialTimeouts) : State :=
  { setupState 0 (fun _ => 0) capacity with
    urbs := ⟨⟨[], 0⟩, ⟨pendingList, pendingList.length⟩, ⟨[], 0⟩, 0⟩
    timeouts := t
    readTimeout := setTimeout t
    bDeviceOpened := true
    bDeviceAwaken := true }

theorem openState_opened (pendingList : List Urb) (capacity : Nat) (t : SerialTimeouts) :
    (openState pendingList capacity t).Opened where
  isOpen := ⟨rfl, rfl, fun _ _ => rfl, rfl⟩
  control := rfl
  ring := RingBuffer.init_inv ..
  empty := rfl
  readQueue := rfl
  timeoutReadQueue := rfl

/-! ## The steps of the thread -/

/-- The steps of the thread, in an open run. -/
inductive OpenStep (d : VendorConfig) (s : State) (ok : Bool) : State → Prop
  | completion {s' : State} (hc : s.control = .completion) (h : CompletionStep d s s') :
      OpenStep d s ok s'
  | copy {u : Urb} (hc : s.control = .copy u) : OpenStep d s ok (s.copyStep u)
  | completionDone (hc : s.control = .completionDone) : OpenStep d s ok s.completionDoneStep
  | arrive {s' : State} (hc : s.control = .arrive) (h : ArriveStep s ok s') : OpenStep d s ok s'
  | drain {s' : State} {useReadInterval : Bool} (hc : s.control = .drain useReadInterval)
      (h : DrainStep s useReadInterval ok s') : OpenStep d s ok s'
  | timeout {s' : State} (hc : s.control = .timeout) (h : TimeoutStep s ok s') : OpenStep d s ok s'
  | clearRing (hc : s.control = .clearRing .clearBuffer) :
      OpenStep d s ok { s with
        readRingBuffer := s.readRingBuffer.clear
        amountInInQueue := s.readRingBuffer.clear.bytesUsed
        control := .clearLists .clearBuffer }
  | clearLists (hc : s.control = .clearLists .clearBuffer) :
      OpenStep d s ok ({ s with urbs := s.urbs.clearCompleted }.startSendReadUrbs .clearBuffer)
  | sends (hc : s.control.sending = true) (l : UrbLists) (n : Nat) (c : Control)
      (hl : l.completionList = s.urbs.completionList)
      (hc' : c = .wait ∨ c = .emptyFreeList ∨ c.sending = true) (hopen : c.isOpen = true) :
      OpenStep d s ok { s with urbs := l, devErrCnt := n, control := c }

variable {d : VendorConfig} {s s' : State} {ok : Bool}

/-- What a step of the thread can do in an open run. -/
theorem State.IsOpen.threadStep (h : s.IsOpen) (hs : s.threadStep d ok = some s') :
    OpenStep d s ok s' := by
  have hopen := h.control
  cases threadStep_cases hs with
  | completion hc hstep => exact .completion hc hstep
  | copy hc => exact .copy hc
  | completionDone hc => exact .completionDone hc
  | arriveClosed hc hclosed => exact absurd ⟨h.opened, h.awaken⟩ hclosed
  | arrive hc hstep => exact .arrive hc hstep
  | drain hc hstep => exact .drain hc hstep
  | timeout hc hstep => exact .timeout hc hstep
  | sends hc hstep =>
    cases hstep with
    | goes l n c hl hc' hopen' => exact .sends hc l n c hl hc' (hopen' hopen)
    | @finish k hcontrol =>
      obtain rfl : k = .clearBuffer := by simpa [hcontrol, Control.isOpen] using hopen
      exact .sends hc s.urbs s.devErrCnt .wait rfl (.inl rfl) rfl
  | stopTarget hc => simp [hc, Control.isOpen] at hopen
  | @clearRing k hc =>
    obtain rfl : k = .clearBuffer := by simpa [hc, Control.isOpen] using hopen
    exact .clearRing hc
  | @cleared k hc =>
    obtain rfl : k = .clearBuffer := by simpa [hc, Control.isOpen] using hopen
    exact .clearLists hc

/-! ## An open run stays open -/

/-- The file and the device are as before, and so are their events. -/
structure SameLife (s s' : State) : Prop where
  opened : s'.bDeviceOpened = s.bDeviceOpened
  awaken : s'.bDeviceAwaken = s.bDeviceAwaken
  events : ∀ e, e.lifecycle = true → s'.events e = s.events e

theorem State.IsOpen.of_same (h : s.IsOpen) (hsame : SameLife s s')
    (hc : s'.control.isOpen = true) : s'.IsOpen where
  opened := hsame.opened.trans h.opened
  awaken := hsame.awaken.trans h.awaken
  events e he := (hsame.events e he).trans (h.events e he)
  control := hc

theorem update_of_lifecycle {events : Event → Bool} {e e' : Event} {b : Bool}
    (he : e.lifecycle = true) (he' : e'.lifecycle = false) :
    Function.update events e' b e = events e := by
  apply Function.update_of_ne
  rintro rfl
  simp [he] at he'

theorem startResend_isOpen (s : State) : s.startResend.control.isOpen = true := by
  unfold State.startResend
  split <;> rfl

theorem State.IsOpen.arrive (h : s.IsOpen) (hs : ArriveStep s ok s') : s'.IsOpen := by
  cases hs with
  | nothing | forwarded | atOnce | keep =>
    exact h.of_same ⟨rfl, rfl, fun _ _ => rfl⟩ (startResend_isOpen _)
  | bypass => exact h.of_same ⟨rfl, rfl, fun _ he => update_of_lifecycle he rfl⟩ rfl
  | drain => exact h.of_same ⟨rfl, rfl, fun _ _ => rfl⟩ rfl

theorem NextRead.sameLife {b : Bool} {r : ReadRequest} {t : State} (h : NextRead s b r t) :
    SameLife s t ∧ t.control = s.control := by
  cases h with
  | fromTimeoutQueue => exact ⟨⟨rfl, rfl, fun _ he => update_of_lifecycle he rfl⟩, rfl⟩
  | fromReadQueue => exact ⟨⟨rfl, rfl, fun _ _ => rfl⟩, rfl⟩

theorem State.IsOpen.drain {b : Bool} (h : s.IsOpen) (hs : DrainStep s b ok s') : s'.IsOpen := by
  cases hs with
  | empty | noRead => exact h.of_same ⟨rfl, rfl, fun _ _ => rfl⟩ (startResend_isOpen _)
  | @notified r t status hnext =>
    obtain ⟨hsame, hc⟩ := (nextRead_cases hnext).sameLife
    refine h.of_same ⟨hsame.opened, hsame.awaken, fun e he => ?_⟩ ((congrArg _ hc).trans h.control)
    exact (update_of_lifecycle he rfl).trans (hsame.events e he)
  | @served r t status hnext =>
    obtain ⟨hsame, hc⟩ := (nextRead_cases hnext).sameLife
    exact h.of_same ⟨hsame.opened, hsame.awaken, hsame.events⟩ ((congrArg _ hc).trans h.control)

theorem State.IsOpen.thread (h : s.IsOpen) (hs : s.threadStep d ok = some s') : s'.IsOpen := by
  cases h.threadStep hs with
  | completion hc hstep =>
    have hopen : s.control.isOpen = true := h.control
    cases hstep with
    | recycle => exact h.of_same ⟨rfl, rfl, fun _ _ => rfl⟩ hopen
    | _ => exact h.of_same ⟨rfl, rfl, fun _ _ => rfl⟩ rfl
  | copy hc =>
    unfold State.copyStep
    dsimp only
    split <;> exact h.of_same ⟨rfl, rfl, fun _ _ => rfl⟩ rfl
  | completionDone hc =>
    unfold State.completionDoneStep
    dsimp only
    split <;> exact h.of_same ⟨rfl, rfl, fun _ he => update_of_lifecycle he rfl⟩ rfl
  | arrive hc hstep => exact h.arrive hstep
  | drain hc hstep => exact h.drain hstep
  | timeout hc hstep => cases hstep <;> exact h.of_same ⟨rfl, rfl, fun _ _ => rfl⟩ rfl
  | clearRing hc | clearLists hc => exact h.of_same ⟨rfl, rfl, fun _ _ => rfl⟩ rfl
  | sends hc l n c hl hc' hopen => exact h.of_same ⟨rfl, rfl, fun _ _ => rfl⟩ hopen

theorem State.IsOpen.lifecycle_eq_false {e : Event} (h : s.IsOpen) (he : s.events e = true) :
    e.lifecycle = false := by
  cases hl : e.lifecycle with
  | false => rfl
  | true => simp [h.events e hl] at he

theorem State.IsOpen.wake {e : Event} (h : s.IsOpen) (he : s.events e = true) :
    (s.wake e).IsOpen := by
  have hlife : e.lifecycle = false := h.lifecycle_eq_false he
  cases e with
  | deviceRemove | fileCreate | fileClose | d0Exit | d0Entry => simp [Event.lifecycle] at hlife
  | _ => exact h.of_same ⟨rfl, rfl, fun _ he => update_of_lifecycle he rfl⟩ rfl

/-- While nothing closes the file and the device stays in D0, an open run stays open. -/
theorem State.IsOpen.step {op : Op} (h : s.IsOpen) (hop : op.staysOpen = true)
    (hs : s.step d op = some s') : s'.IsOpen := by
  cases step_cases hs with
  | arrivesFirst | completes | dpc =>
    exact h.of_same ⟨rfl, rfl, fun _ he => update_of_lifecycle he rfl⟩ h.control
  | arrivesNext | cancelled | expires | setTimeout | purgeReads | purgeBoth =>
    exact h.of_same ⟨rfl, rfl, fun _ _ => rfl⟩ h.control
  | @setEvent e =>
    have he : e.lifecycle = false := by simpa [Op.staysOpen] using hop
    exact h.of_same ⟨rfl, rfl, fun _ hl => update_of_lifecycle hl he⟩ h.control
  | wake hc he => exact h.wake he
  | thread hstep => exact h.thread hstep

/-! ## Reads next to data are announced -/

namespace Control

/-- The thread has looked at the read queue since its last case of reads. -/
def announcing (c : Control) : Bool := c.settled || c = .timeout

end Control

/-- While bytes are buffered, a read in the read queue has its arrive event set. -/
def State.Announced (s : State) : Prop :=
  s.control.announcing = true → s.readQueue ≠ [] → s.bytesUsed ≠ 0 →
    s.events .requestArrive = true

namespace State.Announced

theorem of_busy (hc : s.control.announcing = false) : s.Announced := fun hc' => by simp [hc] at hc'

theorem of_empty (hempty : s.bytesUsed = 0) : s.Announced := fun _ _ hused => absurd hempty hused

theorem of_noRead (hread : s.readQueue = []) : s.Announced := fun _ hr => absurd hread hr

theorem of_set (harrive : s.events .requestArrive = true) : s.Announced := fun _ _ _ => harrive

/-- Nothing but the control point changes, within the announcing ones. -/
theorem of_same (h : s.Announced) (hc : s.control.announcing = true)
    (hread : s'.readQueue = s.readQueue) (hused : s'.bytesUsed = s.bytesUsed)
    (harrive : s'.events .requestArrive = s.events .requestArrive) : s'.Announced := fun _ hr hu =>
  harrive.trans (h hc (hread ▸ hr) (hused ▸ hu))

/-- The environment keeps the control point and the buffer. -/
theorem of_env (h : s.Announced) (hc : s'.control = s.control) (hused : s'.bytesUsed = s.bytesUsed)
    (harrive : s.events .requestArrive = true → s'.events .requestArrive = true)
    (hread : s'.readQueue ≠ [] → s.readQueue ≠ [] ∨ s'.events .requestArrive = true) :
    s'.Announced := by
  intro hs hr hu
  rcases hread hr with hr | hset
  · exact harrive (h (hc ▸ hs) hr (hused ▸ hu))
  · exact hset

theorem thread (h : s.Announced) (hopen : s.IsOpen) (hs : s.threadStep d ok = some s') :
    s'.Announced := by
  cases hopen.threadStep hs with
  | completion hc hstep =>
    cases hstep <;> exact of_busy (by simp [hc, Control.announcing, Control.settled, Control.sending])
  | copy hc =>
    unfold State.copyStep
    dsimp only
    split <;> exact of_busy rfl
  | completionDone hc =>
    apply of_set
    unfold State.completionDoneStep
    dsimp only
    split <;> simp
  | arrive hc hstep =>
    cases hstep with
    | nothing hempty | forwarded _ hempty | atOnce _ _ hempty => exact of_empty hempty
    | keep hinterval hread => exact of_noRead hread
    | bypass | drain => exact of_busy rfl
  | @drain s' b hc hstep =>
    have hbusy : (Control.drain b).announcing = false := rfl
    cases hstep with
    | empty hempty => exact of_empty hempty
    | noRead hnext => exact of_noRead (nextRead_eq_none hnext).1
    | notified status hnext | served status hnext =>
      have hc' := (nextRead_cases hnext).sameLife.2.trans hc
      exact of_busy ((congrArg Control.announcing hc').trans hbusy)
  | timeout hc hstep =>
    have hannounce : s.control.announcing = true := by simp [hc, Control.announcing]
    cases hstep with
    | empty | timedOut => exact h.of_same hannounce rfl rfl rfl
    | partialRead status htimeout hflags hused =>
      exact fun _ hr _ => h hannounce hr (Nat.ne_of_gt hused)
  | clearRing hc => exact of_empty rfl
  | clearLists hc => exact h.of_same (by simp [hc, Control.announcing, Control.settled]) rfl rfl rfl
  | sends hc l n c hl hc' =>
    exact h.of_same (by simp [Control.announcing, Control.settled_of_sending hc]) rfl rfl rfl

theorem wake {e : Event} (h : s.Announced) (hopen : s.IsOpen) (hc : s.control = .wait)
    (he : s.events e = true) : (s.wake e).Announced := by
  have hannounce : s.control.announcing = true := by simp [hc, Control.announcing, Control.settled]
  have hlife : e.lifecycle = false := hopen.lifecycle_eq_false he
  cases e with
  | deviceRemove | fileCreate | fileClose | d0Exit | d0Entry => simp [Event.lifecycle] at hlife
  | requestArrive | requestCompletion => exact of_busy rfl
  | clearBuffer | scanWaitMask | requestTimeout =>
    exact h.of_same hannounce rfl rfl (by simp [State.wake])

theorem step {op : Op} (h : s.Announced) (hopen : s.IsOpen) (hs : s.step d op = some s') :
    s'.Announced := by
  cases step_cases hs with
  | arrivesFirst => exact of_set (by simp)
  | arrivesNext hread => exact h.of_env rfl rfl id fun _ => .inl hread
  | @cancelled r hr =>
    refine h.of_env rfl rfl id fun hread => .inl fun hnil => hread ?_
    simp [hnil]
  | completes => exact h.of_env rfl rfl (by simp) fun hr => .inl hr
  | expires | setTimeout => exact h.of_env rfl rfl id fun hr => .inl hr
  | dpc => exact h.of_env rfl rfl (by simp) fun hr => .inl hr
  | purgeReads | purgeBoth => exact of_noRead rfl
  | @setEvent e =>
    refine h.of_env rfl rfl (fun harrive => ?_) fun hr => .inl hr
    by_cases he : Event.requestArrive = e
    · subst he
      simp
    · simpa [Function.update_of_ne he] using harrive
  | wake hc he => exact h.wake hopen hc he
  | thread hstep => exact h.thread hopen hstep

end State.Announced

end WdfSerial
