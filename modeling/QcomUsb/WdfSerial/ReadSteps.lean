-- SUMMARY: What each step of the read thread can do, case by case.
import QcomUsb.WdfSerial.ReadThread

/-!
# The steps of the read thread, inverted

Each piece of the thread is taken apart once here. The invariants of the other modules
go through these cases and never unfold the code again.
-/

namespace WdfSerial

attribute [simp] State.setEvent State.clearEvent State.setTimer State.cancelTimer State.goto
  State.completeRead

variable {d : VendorConfig} {s s' : State} {ok : Bool}

/-! ## Control points -/

/-- The loop runs for a purge, if not for the arrive case. -/
def Sender.isOpen : Sender → Bool
  | .resend => true
  | .sendReadUrbs _ k => k = .clearBuffer

namespace Control

/-- The control points of the cases that run while the file is open and the device in D0. -/
def isOpen : Control → Bool
  | .stopTarget _ | .exited => false
  | .sendReadUrbs _ k | .clearRing k | .clearLists k => k = .clearBuffer
  | .takenFree _ k | .insertPending _ k | .send _ k | .sendFailed _ k | .putBack _ k => k.isOpen
  | _ => true

/-- The thread sends URBs. -/
def sending : Control → Bool
  | .resend | .takenFree _ _ | .insertPending _ _ | .send _ _ | .sendFailed _ _ | .putBack _ _
  | .sendReadUrbs _ _ => true
  | _ => false

/-- The thread is about to wait, sends URBs or clears its buffer. -/
def settled : Control → Bool
  | .wait | .emptyFreeList | .clearRing _ | .clearLists _ => true
  | c => c.sending

theorem settled_of_sending {c : Control} (hc : c.sending = true) : c.settled = true := by
  cases c <;> simp_all [settled, sending]

theorem settled_of_sends {c : Control} (hc : c = .wait ∨ c = .emptyFreeList ∨ c.sending = true) :
    c.settled = true := by
  rcases hc with rfl | rfl | hc
  · rfl
  · rfl
  · exact settled_of_sending hc

end Control

/-! ## The completion case -/

/-- A round of the loop over the completion list. -/
inductive CompletionStep (d : VendorConfig) (s : State) : State → Prop
  | empty (hlist : s.urbs.completionList.entries = []) : CompletionStep d s (s.goto .completionDone)
  | errorLimit (n : Nat) :
      CompletionStep d s
        { s with devErrCnt := n, errorLimitReached := true, control := .completionDone }
  | recycle {u : Urb} {rest : List Urb} (n : Nat) (gone : Bool)
      (hlist : s.urbs.completionList.entries = u :: rest) (hempty : u.availableBytes = 0) :
      CompletionStep d s
        { s with devErrCnt := n, bDeviceGone := gone, urbs := s.urbs.recycle u }
  | overflow {u : Urb} {rest : List Urb} (n : Nat) (gone : Bool)
      (hlist : s.urbs.completionList.entries = u :: rest) (hfull : s.bytesFree < u.availableBytes) :
      CompletionStep d s
        { s with
          devErrCnt := n, bDeviceGone := gone, bBufferOverflow := true, control := .completionDone }
  | take {u : Urb} {rest : List Urb} (n : Nat) (gone : Bool)
      (hlist : s.urbs.completionList.entries = u :: rest) (hfits : u.availableBytes ≤ s.bytesFree) :
      CompletionStep d s
        { s with
          devErrCnt := n, bDeviceGone := gone, urbs := s.urbs.takeCompleted u, control := .copy u }

theorem completionStep_cases (d : VendorConfig) (s : State) :
    CompletionStep d s (s.completionStep d) := by
  unfold State.completionStep
  split
  · rename_i hlist
    exact .empty hlist
  · rename_i u rest hlist
    dsimp only
    generalize (if u.status ≠ .success ∧ u.status ≠ .cancelled then s.devErrCnt + 1 else 0) = n
    split
    · exact .errorLimit n
    · split
      · rename_i hempty
        exact .recycle _ _ hlist hempty
      · split
        · rename_i hfull
          exact .overflow _ _ hlist hfull
        · rename_i hfits
          exact .take _ _ hlist (Nat.le_of_not_lt hfits)

/-! ## The arrive case -/

/-- The read at the head of the read queue does not wait: it is to return at once, or it
cannot be forwarded. -/
def State.completesAtOnce (s : State) (r : ReadRequest) (forwarded : Bool) : Prop :=
  forwarded = false ∨ (s.useReadInterval = false ∧
    startReadTimeout s.timeouts s.readTimeout.ucTimeoutType r.length = none)

/-- The arrive case up to its loops, with the file open and the device in D0. -/
inductive ArriveStep (s : State) (ok : Bool) : State → Prop
  | nothing (hempty : s.bytesUsed = 0) (hqueues : s.timeoutReadQueue ≠ [] ∨ s.readQueue = []) :
      ArriveStep s ok s.startResend
  | forwarded {r : ReadRequest} {rest : List ReadRequest} (timer : Bool) (hempty : s.bytesUsed = 0)
      (htimeout : s.timeoutReadQueue = []) (hread : s.readQueue = r :: rest) :
      ArriveStep s ok
        { s with readQueue := rest, readTimer := timer, timeoutReadQueue := [r] }.startResend
  | atOnce {r : ReadRequest} {rest : List ReadRequest} (timer : Bool) (status : ReadStatus)
      (hempty : s.bytesUsed = 0) (htimeout : s.timeoutReadQueue = [])
      (hread : s.readQueue = r :: rest) (honce : s.completesAtOnce r ok) :
      ArriveStep s ok
        ({ s with readQueue := rest, readTimer := timer }.completeRead r status []).startResend
  | keep (hinterval : s.useReadInterval = true) (hread : s.readQueue = []) :
      ArriveStep s ok s.startResend
  | bypass (hinterval : s.useReadInterval = true) (hused : s.bytesUsed ≠ 0) :
      ArriveStep s ok ((s.cancelTimer.clearEvent .requestTimeout).goto (.drain true))
  | drain (hinterval : s.useReadInterval = false) (hused : s.bytesUsed ≠ 0) :
      ArriveStep s ok (s.goto (.drain false))

theorem arriveStep_cases (hopened : s.bDeviceOpened = true) (hawaken : s.bDeviceAwaken = true)
    (ok : Bool) : ArriveStep s ok (s.arriveStep ok) := by
  unfold State.arriveStep
  rw [if_neg (by simp [hopened, hawaken])]
  split
  · rename_i hempty
    split
    · rename_i r rest htimeout hread
      dsimp only
      split
      · cases ok with
        | true =>
          have hstep : ArriveStep s true _ := .forwarded s.readTimer hempty htimeout hread
          simpa [State.forward, htimeout] using hstep
        | false => exact .atOnce s.readTimer .failed hempty htimeout hread (.inl rfl)
      · rename_i hinterval
        have hinterval : s.useReadInterval = false := Bool.eq_false_of_not_eq_true hinterval
        split
        · rename_i hnone
          exact .atOnce s.readTimer .success hempty htimeout hread (.inr ⟨hinterval, hnone⟩)
        · rename_i armed hsome
          cases ok with
          | true =>
            cases armed with
            | true =>
              have hstep : ArriveStep s true _ := .forwarded true hempty htimeout hread
              simpa [State.forward, htimeout] using hstep
            | false =>
              have hstep : ArriveStep s true _ := .forwarded s.readTimer hempty htimeout hread
              simpa [State.forward, htimeout] using hstep
          | false =>
            cases armed with
            | true => exact .atOnce true .failed hempty htimeout hread (.inl rfl)
            | false => exact .atOnce s.readTimer .failed hempty htimeout hread (.inl rfl)
    · rename_i hqueues
      refine .nothing hempty ?_
      cases htimeout : s.timeoutReadQueue with
      | cons r rest => exact .inl (List.cons_ne_nil r rest)
      | nil =>
        cases hread : s.readQueue with
        | nil => exact .inr rfl
        | cons r rest => exact absurd hread (hqueues r rest htimeout)
  · rename_i hused
    split
    · rename_i hkeep
      exact .keep hkeep.1 hkeep.2.2
    · split
      · rename_i hinterval
        exact .bypass hinterval hused
      · rename_i hinterval
        exact .drain (by simpa using hinterval) hused

theorem startResend_settled (s : State) : s.startResend.control.settled = true := by
  unfold State.startResend
  split <;> rfl

/-! ## The drain loop -/

/-- The next read of the drain loop, with the state after it left its queue. -/
inductive NextRead (s : State) (useReadInterval : Bool) (r : ReadRequest) : State → Prop
  | fromTimeoutQueue {rest : List ReadRequest} (hinterval : useReadInterval = false)
      (htimeout : s.timeoutReadQueue = r :: rest) :
      NextRead s useReadInterval r
        ({ s with timeoutReadQueue := rest }.cancelTimer.clearEvent .requestTimeout)
  | fromReadQueue {rest : List ReadRequest} (hread : s.readQueue = r :: rest)
      (htimeout : useReadInterval = false → s.timeoutReadQueue = []) :
      NextRead s useReadInterval r { s with readQueue := rest }

theorem nextRead_cases {useReadInterval : Bool} {r : ReadRequest} {t : State}
    (h : s.nextRead useReadInterval = some (r, t)) : NextRead s useReadInterval r t := by
  unfold State.nextRead at h
  cases useReadInterval with
  | true =>
    simp only [if_true] at h
    split at h
    · cases h
    · rename_i q rest hread
      simp only [Option.some.injEq, Prod.mk.injEq] at h
      obtain ⟨rfl, rfl⟩ := h
      exact .fromReadQueue hread (by simp)
  | false =>
    simp only [Bool.false_eq_true, if_false] at h
    split at h
    · rename_i q rest htimeout
      simp only [Option.some.injEq, Prod.mk.injEq] at h
      obtain ⟨rfl, rfl⟩ := h
      exact .fromTimeoutQueue rfl htimeout
    · rename_i q rest htimeout hread
      simp only [Option.some.injEq, Prod.mk.injEq] at h
      obtain ⟨rfl, rfl⟩ := h
      exact .fromReadQueue hread fun _ => htimeout
    · cases h

theorem nextRead_eq_none {useReadInterval : Bool} (h : s.nextRead useReadInterval = none) :
    s.readQueue = [] ∧ (useReadInterval = false → s.timeoutReadQueue = []) := by
  unfold State.nextRead at h
  cases useReadInterval with
  | true => cases hread : s.readQueue <;> simp_all
  | false => cases htimeout : s.timeoutReadQueue <;> cases hread : s.readQueue <;> simp_all

/-- A round of the drain loop. -/
inductive DrainStep (s : State) (useReadInterval mapped : Bool) : State → Prop
  | empty (hempty : s.bytesUsed = 0) : DrainStep s useReadInterval mapped s.startResend
  | noRead (hnext : s.nextRead useReadInterval = none) (hused : s.bytesUsed ≠ 0) :
      DrainStep s useReadInterval mapped s.startResend
  | notified {r : ReadRequest} {t : State} (status : List UInt8 → ReadStatus)
      (hnext : s.nextRead useReadInterval = some (r, t)) (hused : s.bytesUsed ≠ 0)
      (hmapped : mapped = true) :
      DrainStep s useReadInterval mapped
        ({ t.readRing r mapped status with bBufferOverflow := false }.setEvent .requestCompletion)
  | served {r : ReadRequest} {t : State} (status : List UInt8 → ReadStatus)
      (hnext : s.nextRead useReadInterval = some (r, t)) (hused : s.bytesUsed ≠ 0)
      (hoverflow : mapped = true → s.bBufferOverflow = false) :
      DrainStep s useReadInterval mapped (t.readRing r mapped status)

theorem drainStep_cases (s : State) (useReadInterval mapped : Bool) :
    DrainStep s useReadInterval mapped (s.drainStep useReadInterval mapped) := by
  unfold State.drainStep
  split
  · rename_i hempty
    exact .empty hempty
  · rename_i hused
    split
    · rename_i hnext
      exact .noRead hnext hused
    · rename_i r t hnext
      have hflag : t.bBufferOverflow = s.bBufferOverflow := by
        cases nextRead_cases hnext <;> rfl
      dsimp only
      generalize (fun _ : List UInt8 => if mapped = true then ReadStatus.success else .failed) = status
      split
      · rename_i hboth
        exact .notified status hnext hused hboth.1
      · rename_i hboth
        refine .served status hnext hused fun hmapped => ?_
        have hoff : t.bBufferOverflow ≠ true := fun hon => hboth ⟨hmapped, hon⟩
        simpa [hflag] using hoff

/-! ## The timeout case -/

/-- The timeout case. -/
inductive TimeoutStep (s : State) (mapped : Bool) : State → Prop
  | empty (htimeout : s.timeoutReadQueue = []) : TimeoutStep s mapped (s.goto .wait)
  | partialRead {r : ReadRequest} {rest : List ReadRequest} (status : List UInt8 → ReadStatus)
      (htimeout : s.timeoutReadQueue = r :: rest)
      (hflags : s.readTimeout.bUseReadInterval = true ∨ s.readTimeout.bReturnOnAnyChars = true)
      (hused : 0 < s.bytesUsed) :
      TimeoutStep s mapped (({ s with timeoutReadQueue := rest }.readRing r mapped status).goto .wait)
  | timedOut {r : ReadRequest} {rest : List ReadRequest} (htimeout : s.timeoutReadQueue = r :: rest) :
      TimeoutStep s mapped
        (({ s with timeoutReadQueue := rest }.completeRead r .timeout []).goto .wait)

theorem timeoutStep_cases (s : State) (mapped : Bool) :
    TimeoutStep s mapped (s.timeoutStep mapped) := by
  unfold State.timeoutStep
  split
  · rename_i htimeout
    exact .empty htimeout
  · rename_i r rest htimeout
    dsimp only
    split
    · rename_i hflags
      exact .partialRead _ htimeout (by simpa using hflags.1) hflags.2
    · exact .timedOut htimeout

/-! ## Sending URBs -/

/-- A step of a loop that sends URBs: it moves URBs between the free and the pending list, or
it is the end of `QCRD_SendReadUrbs`. -/
inductive SendStep (s : State) : State → Prop
  | goes (l : UrbLists) (n : Nat) (c : Control)
      (hl : l.completionList = s.urbs.completionList)
      (hc : c = .wait ∨ c = .emptyFreeList ∨ c.sending = true)
      (hopen : s.control.isOpen = true → c.isOpen = true) :
      SendStep s { s with urbs := l, devErrCnt := n, control := c }
  | finish {k : SendCase} (hc : s.control = .sendReadUrbs 0 k) : SendStep s (s.finishSend k)

theorem sendStep_cases (hc : s.control.sending = true) (hs : s.threadStep d ok = some s') :
    SendStep s s' := by
  cases hcontrol : s.control with
  | resend =>
    simp only [State.threadStep, hcontrol, Option.some.injEq, State.resendStep] at hs
    split at hs
    · subst hs
      exact .goes s.urbs s.devErrCnt .wait rfl (.inl rfl) fun _ => rfl
    · subst hs
      exact .goes _ s.devErrCnt _ rfl (.inr (.inr rfl)) fun _ => rfl
  | takenFree u k =>
    simp only [State.threadStep, hcontrol, Option.some.injEq] at hs
    cases k with
    | resend =>
      simp only [State.takenFreeStep] at hs
      split at hs
      · subst hs
        exact .goes s.urbs s.devErrCnt _ rfl (.inr (.inr rfl)) fun _ => rfl
      · subst hs
        exact .goes _ s.devErrCnt _ rfl (.inl rfl) fun _ => rfl
    | sendReadUrbs n k =>
      simp only [State.takenFreeStep] at hs
      split at hs
      · subst hs
        exact .goes s.urbs s.devErrCnt _ rfl (.inr (.inr rfl)) fun h => by rwa [hcontrol] at h
      · subst hs
        exact .goes _ s.devErrCnt _ rfl (.inr (.inr rfl)) fun h => by rwa [hcontrol] at h
  | insertPending u k =>
    simp only [State.threadStep, hcontrol, Option.some.injEq] at hs
    subst hs
    exact .goes _ s.devErrCnt _ rfl (.inr (.inr rfl)) fun h => by rwa [hcontrol] at h
  | send u k =>
    simp only [State.threadStep, hcontrol, Option.some.injEq, State.sendStep] at hs
    split at hs
    · cases k with
      | resend =>
        subst hs
        exact .goes s.urbs 0 _ rfl (.inr (.inr rfl)) fun _ => rfl
      | sendReadUrbs n k =>
        subst hs
        exact .goes s.urbs s.devErrCnt _ rfl (.inr (.inr rfl)) fun h => by rwa [hcontrol] at h
    · subst hs
      exact .goes s.urbs s.devErrCnt _ rfl (.inr (.inr rfl)) fun h => by rwa [hcontrol] at h
  | sendFailed u k =>
    simp only [State.threadStep, hcontrol, Option.some.injEq] at hs
    subst hs
    exact .goes _ s.devErrCnt _ rfl (.inr (.inr rfl)) fun h => by rwa [hcontrol] at h
  | putBack u k =>
    simp only [State.threadStep, hcontrol, Option.some.injEq, State.putBackStep] at hs
    cases k with
    | resend =>
      subst hs
      exact .goes _ _ _ rfl (by split <;> simp [Control.sending]) fun _ => by split <;> rfl
    | sendReadUrbs n k =>
      subst hs
      exact .goes _ s.devErrCnt _ rfl (.inr (.inr rfl)) fun h => by rwa [hcontrol] at h
  | sendReadUrbs n k =>
    simp only [State.threadStep, hcontrol, Option.some.injEq, State.sendReadUrbsStep] at hs
    split at hs
    · subst hs
      exact .finish hcontrol
    · subst hs
      exact .goes s.urbs s.devErrCnt _ rfl (.inr (.inl rfl)) fun _ => rfl
    · subst hs
      exact .goes _ s.devErrCnt _ rfl (.inr (.inr rfl)) fun h => by rwa [hcontrol] at h
  | _ => simp [hcontrol, Control.sending] at hc

/-! ## All steps of the thread -/

/-- The steps of the thread. -/
inductive ThreadStep (d : VendorConfig) (s : State) (ok : Bool) : State → Prop
  | completion {s' : State} (hc : s.control = .completion) (h : CompletionStep d s s') :
      ThreadStep d s ok s'
  | copy {u : Urb} (hc : s.control = .copy u) : ThreadStep d s ok (s.copyStep u)
  | completionDone (hc : s.control = .completionDone) : ThreadStep d s ok s.completionDoneStep
  | arriveClosed (hc : s.control = .arrive)
      (hclosed : ¬ (s.bDeviceOpened = true ∧ s.bDeviceAwaken = true)) :
      ThreadStep d s ok (s.goto .wait)
  | arrive {s' : State} (hc : s.control = .arrive) (h : ArriveStep s ok s') : ThreadStep d s ok s'
  | drain {s' : State} {useReadInterval : Bool} (hc : s.control = .drain useReadInterval)
      (h : DrainStep s useReadInterval ok s') : ThreadStep d s ok s'
  | timeout {s' : State} (hc : s.control = .timeout) (h : TimeoutStep s ok s') :
      ThreadStep d s ok s'
  | sends {s' : State} (hc : s.control.sending = true) (h : SendStep s s') : ThreadStep d s ok s'
  | stopTarget {k : ClearCase} (hc : s.control = .stopTarget k)
      (hpending : s.urbs.pendingList.entries = []) : ThreadStep d s ok (s.goto (.clearRing k))
  | clearRing {k : ClearCase} (hc : s.control = .clearRing k) :
      ThreadStep d s ok { s with
        readRingBuffer := s.readRingBuffer.clear
        amountInInQueue := s.readRingBuffer.clear.bytesUsed
        control := .clearLists k }
  | cleared {k : ClearCase} (hc : s.control = .clearLists k) :
      ThreadStep d s ok ({ s with urbs := s.urbs.clearCompleted }.finishClear k)

theorem threadStep_cases (hs : s.threadStep d ok = some s') : ThreadStep d s ok s' := by
  cases hsend : s.control.sending with
  | true => exact .sends hsend (sendStep_cases hsend hs)
  | false =>
    cases hc : s.control with
    | completion =>
      obtain rfl : s.completionStep d = s' := by simpa [State.threadStep, hc] using hs
      exact .completion hc (completionStep_cases d s)
    | copy u =>
      obtain rfl : s.copyStep u = s' := by simpa [State.threadStep, hc] using hs
      exact .copy hc
    | completionDone =>
      obtain rfl : s.completionDoneStep = s' := by simpa [State.threadStep, hc] using hs
      exact .completionDone hc
    | arrive =>
      obtain rfl : s.arriveStep ok = s' := by simpa [State.threadStep, hc] using hs
      by_cases hopen : s.bDeviceOpened = true ∧ s.bDeviceAwaken = true
      · exact .arrive hc (arriveStep_cases hopen.1 hopen.2 ok)
      · rw [State.arriveStep, if_pos hopen]
        exact .arriveClosed hc hopen
    | drain useReadInterval =>
      obtain rfl : s.drainStep useReadInterval ok = s' := by
        simpa [State.threadStep, hc] using hs
      exact .drain hc (drainStep_cases s useReadInterval ok)
    | timeout =>
      obtain rfl : s.timeoutStep ok = s' := by simpa [State.threadStep, hc] using hs
      exact .timeout hc (timeoutStep_cases s ok)
    | stopTarget k =>
      simp only [State.threadStep, hc] at hs
      split at hs
      · rename_i hpending
        cases hs
        exact .stopTarget hc hpending
      · cases hs
    | clearRing k =>
      simp only [State.threadStep, hc, Option.some.injEq] at hs
      subst hs
      exact .clearRing hc
    | clearLists k =>
      simp only [State.threadStep, hc, Option.some.injEq] at hs
      subst hs
      exact .cleared hc
    | wait | copyFailed | emptyFreeList | exited => simp [State.threadStep, hc] at hs
    | _ => simp [hc, Control.sending] at hsend

/-! ## All steps -/

/-- The steps of the machine. Those of the thread are taken apart above. -/
inductive StepCase (d : VendorConfig) (s : State) : Op → State → Prop
  | arrivesFirst {length : Nat} (hread : s.readQueue = []) :
      StepCase d s (.readArrives length)
        { s.setEvent .requestArrive with
          readQueue := s.readQueue ++ [⟨s.submitted, length⟩], submitted := s.submitted + 1 }
  | arrivesNext {length : Nat} (hread : s.readQueue ≠ []) :
      StepCase d s (.readArrives length)
        { s with
          readQueue := s.readQueue ++ [⟨s.submitted, length⟩], submitted := s.submitted + 1 }
  | cancelled {r : ReadRequest} (hr : r ∈ s.timeoutReadQueue ++ s.readQueue) :
      StepCase d s (.readCancelled r.seq)
        { s.completeRead r .cancelled [] with
          timeoutReadQueue := s.timeoutReadQueue.erase r
          readQueue := s.readQueue.erase r }
  | completes {u : Urb} (p : CompletionParams) (hu : u ∈ s.urbs.pendingList.entries)
      (hlocked : s.control.locked = false) (hsent : s.control.unsent ≠ some u) :
      StepCase d s (.urbCompletes u.id p)
        ({ s with
          urbs := s.urbs.complete u (p.urb u)
          received := s.received ++ (p.urb u).readBuffer }.setEvent .requestCompletion)
  | expires (htimer : s.readTimer = true) :
      StepCase d s .timerExpires { s.cancelTimer with readTimeoutDpc := true }
  | dpc (hdpc : s.readTimeoutDpc = true) :
      StepCase d s .timeoutDpc ({ s with readTimeoutDpc := false }.setEvent .requestTimeout)
  | setTimeout {t : SerialTimeouts} :
      StepCase d s (.setTimeout t) { s with timeouts := t, readTimeout := WdfSerial.setTimeout t }
  | purgeReads (htimeout : s.timeoutReadQueue = []) :
      StepCase d s .purgeAbort s.purgeReadQueue.cancelTimer
  | purgeBoth {r : ReadRequest} {rest : List ReadRequest} (htimeout : s.timeoutReadQueue = r :: rest) :
      StepCase d s .purgeAbort
        { s.purgeReadQueue.cancelTimer.completeRead r .cancelled [] with timeoutReadQueue := rest }
  | setEvent {e : Event} : StepCase d s (.setEvent e) (s.setEvent e)
  | wake {e : Event} (hc : s.control = .wait) (he : s.events e = true) :
      StepCase d s (.wake e) (s.wake e)
  | thread {ok : Bool} {s' : State} (h : s.threadStep d ok = some s') : StepCase d s (.thread ok) s'

theorem step_cases {op : Op} (h : s.step d op = some s') : StepCase d s op s' := by
  cases op with
  | readArrives length =>
    obtain rfl : s.readArrives length = s' := by simpa [State.step] using h
    unfold State.readArrives
    dsimp only
    split
    · rename_i hread
      exact .arrivesFirst hread
    · rename_i hread
      exact .arrivesNext hread
  | readCancelled seq =>
    simp only [State.step, State.readCancelled] at h
    split at h
    · cases h
    · rename_i r hfind
      cases h
      obtain rfl : r.seq = seq := by simpa using List.find?_some hfind
      exact .cancelled (List.mem_of_find?_eq_some hfind)
  | urbCompletes id p =>
    simp only [State.step, State.urbCompletes] at h
    split at h
    · cases h
    · rename_i u hfind
      obtain rfl : u.id = id := by simpa using List.find?_some hfind
      split at h
      · cases h
      · rename_i hfree
        cases h
        obtain ⟨hlocked, hsent⟩ := not_or.mp hfree
        exact .completes p (List.mem_of_find?_eq_some hfind) (by simpa using hlocked) hsent
  | timerExpires =>
    simp only [State.step] at h
    split at h
    · rename_i htimer
      cases h
      exact .expires htimer
    · cases h
  | timeoutDpc =>
    simp only [State.step] at h
    split at h
    · rename_i hdpc
      cases h
      exact .dpc hdpc
    · cases h
  | setTimeout t =>
    cases h
    exact .setTimeout
  | purgeAbort =>
    obtain rfl : s.purgeAbort = s' := by simpa [State.step] using h
    unfold State.purgeAbort
    dsimp only
    split
    · rename_i htimeout
      exact .purgeReads htimeout
    · rename_i r rest htimeout
      exact .purgeBoth htimeout
  | setEvent e =>
    cases h
    exact .setEvent
  | wake e =>
    simp only [State.step] at h
    split at h
    · rename_i hwake
      cases h
      exact .wake hwake.1 hwake.2
    · cases h
  | thread ok => exact .thread h

/-! ## Events -/

/-- The events the thread, its timer, the completion routine and the ready callback set. -/
def Event.own : Event → Bool
  | .requestArrive | .requestTimeout | .requestCompletion => true
  | _ => false

theorem update_of_own {events : Event → Bool} {e e' : Event} {b : Bool} (he : e.own = false)
    (he' : e'.own = true) : Function.update events e' b e = events e := by
  apply Function.update_of_ne
  rintro rfl
  simp [he] at he'

theorem NextRead.events {b : Bool} {r : ReadRequest} {t : State} {e : Event} (he : e.own = false)
    (h : NextRead s b r t) : t.events e = s.events e := by
  cases h with
  | fromTimeoutQueue => exact update_of_own he rfl
  | fromReadQueue => rfl

theorem thread_events {e : Event} (he : e.own = false) (hs : s.threadStep d ok = some s') :
    s'.events e = s.events e := by
  cases threadStep_cases hs with
  | completion hc hstep => cases hstep <;> rfl
  | copy hc =>
    unfold State.copyStep
    dsimp only
    split <;> rfl
  | completionDone hc =>
    unfold State.completionDoneStep
    dsimp only
    split <;> exact update_of_own he rfl
  | arrive hc hstep =>
    cases hstep with
    | bypass => exact update_of_own he rfl
    | _ => rfl
  | drain hc hstep =>
    cases hstep with
    | empty | noRead => rfl
    | @notified r t status hnext =>
      exact (update_of_own he rfl).trans (NextRead.events (t := t) he (nextRead_cases hnext))
    | @served r t status hnext =>
      have hnext := NextRead.events he (nextRead_cases hnext)
      exact hnext
  | timeout hc hstep => cases hstep <;> rfl
  | sends hc hstep =>
    cases hstep with
    | goes => rfl
    | @finish k =>
      cases k with
      | d0Entry => exact update_of_own he rfl
      | _ => rfl
  | @cleared k hc =>
    cases k with
    | d0Exit => exact update_of_own he rfl
    | _ => rfl
  | arriveClosed | stopTarget | clearRing => rfl

theorem events_of_clearEvent {e e' : Event} (h : (s.clearEvent e').events e = true) :
    s.events e = true := by
  by_cases heq : e = e'
  · simp [heq] at h
  · simpa [Function.update_of_ne heq] using h

theorem events_of_wake {e e' : Event} (he : e.own = false) (h : (s.wake e').events e = true) :
    s.events e = true := by
  cases e' with
  | deviceRemove => exact h
  | d0Entry =>
    simp only [State.wake] at h
    split at h
    · exact events_of_clearEvent h
    · exact events_of_clearEvent ((update_of_own he rfl).symm.trans h)
  | _ => exact events_of_clearEvent h

/-- The other events are set from outside only. -/
theorem step_events {op : Op} {e : Event} (he : e.own = false) (hs : s.step d op = some s')
    (hset : s'.events e = true) : s.events e = true ∨ op = .setEvent e := by
  cases step_cases hs with
  | arrivesFirst | completes | dpc => exact .inl ((update_of_own he rfl).symm.trans hset)
  | @setEvent e' =>
    by_cases heq : e = e'
    · exact .inr (congrArg _ heq.symm)
    · exact .inl (by simpa [Function.update_of_ne heq] using hset)
  | wake hc hevent => exact .inl (events_of_wake he hset)
  | thread hstep => exact .inl ((thread_events he hstep).symm.trans hset)
  | arrivesNext | cancelled | expires | setTimeout | purgeReads | purgeBoth => exact .inl hset

theorem step_of_readThread {op : Op} {o : Unit} (h : readThread d s op = some (s', o)) :
    s.step d op = some s' := by
  simpa [readThread] using h

/-! ## The ring buffer -/

/-- The bytes a read gets from the buffer. -/
def State.readBytes (s : State) (r : ReadRequest) (mapped : Bool) : List UInt8 :=
  if mapped then s.readRingBuffer.contents.take r.length else []

/-- A read takes its bytes from the front of the buffer. -/
theorem readRing_spec (h : s.readRingBuffer.Inv) (r : ReadRequest) (mapped : Bool)
    (status : List UInt8 → ReadStatus) :
    (s.readRing r mapped status).readRingBuffer.Inv ∧
      s.readBytes r mapped ++ (s.readRing r mapped status).readRingBuffer.contents =
        s.readRingBuffer.contents ∧
      (s.readRing r mapped status).completed =
        s.completed ++ [⟨r, status (s.readBytes r mapped), s.readBytes r mapped⟩] := by
  cases mapped with
  | false => exact ⟨h, rfl, rfl⟩
  | true =>
    obtain ⟨hbytes, hinv, hcontents, -⟩ := h.read_eq r.length
    refine ⟨hinv, ?_, ?_⟩
    · simp only [State.readBytes, State.readRing, if_true]
      rw [hcontents, List.take_append_drop]
    · simp only [State.readRing, State.completeRead, if_true, State.readBytes, hbytes]

theorem readRing_bytesUsed (h : s.readRingBuffer.Inv) (r : ReadRequest) (mapped : Bool)
    (status : List UInt8 → ReadStatus) :
    (s.readRing r mapped status).bytesUsed =
      if mapped then s.bytesUsed - r.length else s.bytesUsed := by
  cases mapped with
  | false => rfl
  | true =>
    obtain ⟨-, -, hcontents, -⟩ := h.read_eq r.length
    have hlength : (s.readRingBuffer.read r.length).2.bytesUsed = s.bytesUsed - r.length := by
      simpa using congrArg List.length hcontents
    exact hlength

theorem nextRead_ring {b : Bool} {r : ReadRequest} {t : State} (h : NextRead s b r t) :
    t.readRingBuffer = s.readRingBuffer := by
  cases h <;> rfl

/-- The copy into the ring buffer, when the bytes fit and when they do not. -/
theorem copyStep_cases (h : s.readRingBuffer.Inv) (u : Urb) :
    (u.availableBytes ≤ s.bytesFree ∧
      ∃ ring : RingBuffer, ring.Inv ∧ ring.contents = s.readRingBuffer.contents ++ u.readBuffer ∧
        s.copyStep u = { s with
          readRingBuffer := ring
          urbs := s.urbs.insertFree u
          amountInInQueue := ring.bytesUsed
          control := .completion }) ∨
      (s.bytesFree < u.availableBytes ∧
        s.copyStep u = { s with urbs := s.urbs.insertFree u, control := .copyFailed }) := by
  rcases Nat.lt_or_ge s.bytesFree u.availableBytes with hfull | hfits
  · right
    refine ⟨hfull, ?_⟩
    simp [State.copyStep, RingBuffer.write_eq_false hfull]
  · left
    obtain ⟨htrue, hinv, hcontents, -⟩ := h.write_eq hfits
    refine ⟨hfits, _, hinv, hcontents, ?_⟩
    simp [State.copyStep, htrue]

theorem finishSend_ring (s : State) (k : SendCase) :
    (s.finishSend k).readRingBuffer = s.readRingBuffer := by
  cases k <;> rfl

theorem finishClear_ring (s : State) (k : ClearCase) :
    (s.finishClear k).readRingBuffer = s.readRingBuffer := by
  cases k <;> rfl

theorem ringInv_thread (h : s.readRingBuffer.Inv) (hs : s.threadStep d ok = some s') :
    s'.readRingBuffer.Inv := by
  cases threadStep_cases hs with
  | completion hc hstep => cases hstep <;> exact h
  | @copy u hc =>
    rcases copyStep_cases h u with ⟨-, ring, hring, -, heq⟩ | ⟨-, heq⟩
    · rw [heq]
      exact hring
    · rw [heq]
      exact h
  | completionDone hc =>
    unfold State.completionDoneStep
    dsimp only
    split <;> exact h
  | arrive hc hstep => cases hstep <;> exact h
  | drain hc hstep =>
    cases hstep with
    | empty | noRead => exact h
    | @notified r t status hnext | @served r t status hnext =>
      have hring : t.readRingBuffer.Inv := (nextRead_ring (nextRead_cases hnext)).symm ▸ h
      exact (readRing_spec hring r ok status).1
  | timeout hc hstep =>
    cases hstep with
    | empty | timedOut => exact h
    | @partialRead r rest status =>
      exact (readRing_spec (s := { s with timeoutReadQueue := rest }) h r ok status).1
  | sends hc hstep =>
    cases hstep with
    | goes => exact h
    | @finish k hc => exact finishSend_ring s k ▸ h
  | clearRing hc => exact h.clear
  | @cleared k hc => exact (finishClear_ring { s with urbs := s.urbs.clearCompleted } k).symm ▸ h
  | arriveClosed | stopTarget => exact h

theorem wake_ring (s : State) (e : Event) : (s.wake e).readRingBuffer = s.readRingBuffer := by
  cases e with
  | d0Entry =>
    simp only [State.wake]
    split <;> rfl
  | _ => rfl

/-- The ring buffer stays well formed. -/
theorem ringInv_step {op : Op} (h : s.readRingBuffer.Inv) (hs : s.step d op = some s') :
    s'.readRingBuffer.Inv := by
  cases step_cases hs with
  | wake hc he => exact wake_ring s _ ▸ h
  | thread hstep => exact ringInv_thread h hstep
  | _ => exact h

end WdfSerial
