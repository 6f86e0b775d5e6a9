-- SUMMARY: Runs of the level-1 read thread: when each flow control command is obeyed, answered and not left behind.
import QcomUsb.Transport.FlowCommands

/-!
# Runs with flow control commands

Two invariants carry the runs. One keeps an account of the requests: those that were received are
the ones that were obeyed and those in the unread frames. The other says that a command that is next
has been announced to the thread, unless the thread is about to take it.
-/

namespace Transport.FlowCommands

open Transition

variable {dev : ReadDev} {s t u : State} {x : L2Transfer} {rest : List L2Transfer} {f g : Frame}
  {frames : List Frame} {device : Nat} {allocated : Bool} {answers : Answers}

/-! ## Branches -/

/-- What a branch says about the frame that it is for. -/
def Branch.For (dev : ReadDev) (x : L2Transfer) : Branch → Prop
  | .command device f =>
    (∃ rest, x.frames = f :: rest) ∧ f.isCommand = true ∧ dev.target f.muxId = some device
  | .strayCommand f => ∃ rest, x.frames = f :: rest
  | .waits | .filled _ | .skipped | .bufferTooSmall _ =>
    ∃ f rest, x.frames = f :: rest ∧ f.isCommand = false
  | .failed | .badBundle _ | .wild | .endOfBuf | .frameDropped | .bundleError => True

theorem State.frameBranch_for (hframes : x.frames = f :: frames) :
    (s.frameBranch dev x f frames).For dev x := by
  unfold State.frameBranch
  by_cases hshort : ((f :: frames).flatMap (·.bytes dev.mode)).length ≤ 4 + dev.mode.trailer
  · rw [if_pos hshort]
    trivial
  rw [if_neg hshort]
  cases htarget : dev.target f.muxId with
  | none =>
    dsimp only
    split_ifs
    · exact ⟨frames, hframes⟩
    · trivial
  | some device =>
    cases hcommand : f.isCommand with
    | true =>
      dsimp only
      rw [if_pos rfl]
      split_ifs
      · exact ⟨⟨frames, hframes⟩, hcommand, htarget⟩
      · trivial
    | false =>
      have hdata : ∃ f rest, x.frames = f :: rest ∧ f.isCommand = false :=
        ⟨f, frames, hframes, hcommand⟩
      dsimp only
      rw [if_neg Bool.false_ne_true]
      cases s.readDataQueue device with
      | nil =>
        dsimp only
        split_ifs
        · exact hdata
        · trivial
      | cons irp irps =>
        dsimp only
        split_ifs
        any_goals exact hdata
        all_goals trivial

theorem State.branch_for (dev : ReadDev) (s : State) (x : L2Transfer) :
    (s.branch dev x).For dev x := by
  unfold State.branch
  cases x.success with
  | false => trivial
  | true =>
    rw [if_neg Bool.false_ne_true.symm]
    cases s.tlpBufferState with
    | error => trivial
    | idle =>
      cases s.dataPtrInside with
      | false => trivial
      | true =>
        dsimp only
        rw [if_neg Bool.false_ne_true.symm]
        cases hframes : x.frames with
        | nil => trivial
        | cons f frames => exact frameBranch_for hframes

namespace State

theorem advance_last (htransfers : s.transfers = x :: rest) (hframes : x.frames = [f])
    (setsEvent : Bool) : s.advance setsEvent = s.recycleL2FillBuffer := by
  simp [advance, htransfers, hframes]

theorem advance_cons (htransfers : s.transfers = x :: rest) (hframes : x.frames = f :: g :: frames)
    (setsEvent : Bool) :
    s.advance setsEvent =
      { if setsEvent then s.keSetEvent .completion else s with
        transfers := { x with frames := g :: frames } :: rest } := by
  simp [advance, htransfers, hframes]

/-! ## The requests -/

/-- The unread frames. -/
def unread (s : State) : List Frame := s.transfers.flatMap (·.frames)

/-- The requests that were received are those that were obeyed and those in the unread frames. -/
structure Ledger (dev : ReadDev) (s : State) : Prop where
  requests : ∃ obeyed, dev.requests s.received = obeyed ++ dev.requests s.unread ∧
    s.calls = obeyed.map callFor ∧ s.sent.map SentFrame.answer = obeyed.map answerTo
  flags : ∀ device, s.qmapFlowControl device = s.lastCall device
  inside : s.dataPtrInside = true

/-- What a command does, if it is the request `r`. -/
structure Obeyed (s t : State) (r : Option (Nat × FlowControl)) : Prop where
  transfers : t.transfers = s.transfers
  received : t.received = s.received
  calls : t.calls = s.calls ++ r.toList.map callFor
  sent : t.sent.map SentFrame.answer = s.sent.map SentFrame.answer ++ r.toList.map answerTo
  flags : (∀ device, s.qmapFlowControl device = s.lastCall device) →
    ∀ device, t.qmapFlowControl device = t.lastCall device
  events : t.events = s.events
  readDataQueue : t.readDataQueue = s.readDataQueue
  bL1Stopped : t.bL1Stopped = s.bL1Stopped
  dataPtrInside : t.dataPtrInside = s.dataPtrInside

end State

@[simp] theorem ReadDev.requests_append (dev : ReadDev) (fs gs : List Frame) :
    dev.requests (fs ++ gs) = dev.requests fs ++ dev.requests gs :=
  List.filterMap_append

theorem ReadDev.requests_cons (dev : ReadDev) (f : Frame) (fs : List Frame) :
    dev.requests (f :: fs) = (dev.request f).toList ++ dev.requests fs := by
  unfold ReadDev.requests
  cases hrequest : dev.request f with
  | none => rw [List.filterMap_cons_none hrequest, Option.toList_none, List.nil_append]
  | some r => rw [List.filterMap_cons_some hrequest, Option.toList_some, List.singleton_append]

theorem ReadDev.request_data (dev : ReadDev) (hdata : f.isCommand = false) :
    dev.request f = none := by
  simp [ReadDev.request, hdata]

theorem ReadDev.request_of_asks (dev : ReadDev)
    (hasks : (FlowControl.ofBuffer (dev.message f)).bind FlowControl.asks = none) :
    dev.request f = none := by
  unfold ReadDev.request
  cases dev.target f.muxId with
  | none => exact ite_self none
  | some device =>
    cases hbuffer : FlowControl.ofBuffer (dev.message f) with
    | none => exact ite_self none
    | some c =>
      rw [hbuffer, Option.bind_some] at hasks
      simp [hasks]

namespace State

theorem lastCall_call (s : State) (device other : Nat) (flowControlled : Bool) :
    (s.qmapFlowControlCall device flowControlled).lastCall other =
      if other = device then flowControlled else s.lastCall other := by
  unfold lastCall qmapFlowControlCall
  rw [List.filter_append]
  split_ifs with hother
  · subst hother
    simp
  · have hne : device ≠ other := fun heq => hother heq.symm
    simp [hne]

theorem flags_call (h : ∀ device, s.qmapFlowControl device = s.lastCall device) (device : Nat)
    (flowControlled : Bool) (other : Nat) :
    (s.qmapFlowControlCall device flowControlled).qmapFlowControl other =
      (s.qmapFlowControlCall device flowControlled).lastCall other := by
  rw [lastCall_call]
  unfold qmapFlowControlCall
  dsimp only
  rw [Function.update_apply, h]

/-- The reply to a request whose transaction id is not zero. -/
theorem qmapSendFlowControlCommand_eq {usbDo : Nat} {transactionId : UInt32} (qmapCommand : UInt8)
    (input : FlowControl) (hid : transactionId ≠ 0)
    (hstack : dev.findStackDeviceObject device = some usbDo) :
    s.qmapSendFlowControlCommand dev device transactionId qmapCommand input true =
      { s with
        sent := s.sent ++
          [⟨device, (dev.adapter device).muxId, usbDo,
            ⟨qmapCommand, 0x01, 0, transactionId, input.flowCtrlSeqNumIp, 0xffffffff⟩⟩] } := by
  simp [qmapSendFlowControlCommand, send, hid, hstack]

/-- A message that is no request is left alone. -/
theorem qmapProcessControlMessage_of_asks {buffer : List UInt8}
    (hasks : (FlowControl.ofBuffer buffer).bind FlowControl.asks = none) :
    s.qmapProcessControlMessage dev device buffer allocated = s := by
  unfold qmapProcessControlMessage
  cases hbuffer : FlowControl.ofBuffer buffer with
  | none => rfl
  | some c =>
    rw [hbuffer, Option.bind_some, FlowControl.asks] at hasks
    dsimp only
    split_ifs at hasks ⊢
    rfl

theorem Obeyed.refl (s : State) : s.Obeyed s none where
  transfers := rfl
  received := rfl
  calls := (List.append_nil _).symm
  sent := (List.append_nil _).symm
  flags h := h
  events := rfl
  readDataQueue := rfl
  bL1Stopped := rfl
  dataPtrInside := rfl

theorem answer_reply (device usbDo : Nat) (muxId : UInt8) (c : FlowControl) :
    SentFrame.answer
        ⟨device, muxId, usbDo,
          ⟨c.commandName, 0x01, 0, c.transactionId, c.flowCtrlSeqNumIp, 0xffffffff⟩⟩ =
      answerTo (device, c) := by
  have htype : (0x01 : UInt8) &&& 0x03 = 1 := by decide
  rw [SentFrame.answer, answerTo, FlowControl.cmdType, htype]

/-- A request is obeyed and answered. -/
theorem obeyed_of_asks {buffer : List UInt8} {c : FlowControl} {flowControlled : Bool}
    (hbuffer : FlowControl.ofBuffer buffer = some c) (hasks : c.asks = some flowControlled)
    (hid : c.transactionId ≠ 0) (hstack : (dev.findStackDeviceObject device).isSome = true) :
    s.Obeyed (s.qmapProcessControlMessage dev device buffer true) (some (device, c)) := by
  obtain ⟨usbDo, hstack⟩ := Option.isSome_iff_exists.mp hstack
  have hcall : callFor (device, c) = (device, flowControlled) := by
    cases flowControlled <;> simp [callFor, hasks]
  have hflags (v : State) (hv : ∀ other, v.qmapFlowControl other = v.lastCall other) :=
    flags_call hv device flowControlled
  unfold qmapProcessControlMessage
  rw [hbuffer]
  dsimp only
  unfold FlowControl.asks at hasks
  -- a pause is answered after the call, a resume before it
  split_ifs at hasks ⊢ with hpause hresume
  · obtain rfl : true = flowControlled := Option.some.inj hasks
    rw [qmapSendFlowControlCommand_eq _ _ hid hstack]
    refine ⟨rfl, rfl, ?_, ?_, fun h => hflags s h, rfl, rfl, rfl, rfl⟩
    · rw [Option.toList_some, List.map_singleton, hcall]
      rfl
    · rw [List.map_append, List.map_singleton, answer_reply]
      rfl
  · obtain rfl : false = flowControlled := Option.some.inj hasks
    rw [qmapSendFlowControlCommand_eq _ _ hid hstack]
    refine ⟨rfl, rfl, ?_, ?_, fun h => hflags _ h, rfl, rfl, rfl, rfl⟩
    · rw [Option.toList_some, List.map_singleton, hcall]
      rfl
    · unfold qmapFlowControlCall
      rw [List.map_append, List.map_singleton, answer_reply]
      rfl

theorem obeyed_command (hcommand : f.isCommand = true)
    (htarget : dev.target f.muxId = some device)
    (hkeeps : (Branch.command device f).KeepsRequests dev x allocated) :
    s.Obeyed (s.qmapProcessControlMessage dev device (dev.message f) allocated)
      (dev.request f) := by
  cases hasks : (FlowControl.ofBuffer (dev.message f)).bind FlowControl.asks with
  | none =>
    rw [dev.request_of_asks hasks, qmapProcessControlMessage_of_asks hasks]
    exact .refl s
  | some flowControlled =>
    obtain ⟨c, hbuffer, hasks⟩ := Option.bind_eq_some_iff.mp hasks
    have hsome : dev.request f = some (device, c) := by
      simp [ReadDev.request, hcommand, htarget, hbuffer, hasks]
    obtain ⟨hid, rfl, hstack⟩ := hkeeps (device, c) hsome
    rw [hsome]
    exact obeyed_of_asks hbuffer hasks hid hstack

namespace Ledger

theorem of_same (h : s.Ledger dev) (hreceived : t.received = s.received)
    (hunread : dev.requests t.unread = dev.requests s.unread) (hcalls : t.calls = s.calls)
    (hsent : t.sent = s.sent) (hflags : t.qmapFlowControl = s.qmapFlowControl)
    (hinside : t.dataPtrInside = true) : t.Ledger dev where
  requests := by
    rw [hreceived, hunread, hcalls, hsent]
    exact h.requests
  flags device := by
    unfold lastCall
    rw [hflags, hcalls]
    exact h.flags device
  inside := hinside

/-- A buffer without a request in it is dropped. -/
theorem recycle (h : s.Ledger dev) (htransfers : s.transfers = x :: rest)
    (hnone : dev.requests x.frames = []) : s.recycleL2FillBuffer.Ledger dev := by
  refine h.of_same rfl ?_ rfl rfl rfl rfl
  unfold unread recycleL2FillBuffer
  rw [htransfers, List.tail_cons, List.flatMap_cons, dev.requests_append, hnone, List.nil_append]

theorem unread_advance (htransfers : s.transfers = x :: rest) (hframes : x.frames = f :: frames)
    (setsEvent : Bool) : s.unread = f :: (s.advance setsEvent).unread := by
  cases frames with
  | nil =>
    rw [advance_last htransfers hframes]
    simp [unread, recycleL2FillBuffer, htransfers, hframes]
  | cons g gs =>
    rw [advance_cons htransfers hframes]
    simp [unread, htransfers, hframes]

/-- The frame at the head is done with, after what a command in it asks for. -/
theorem advance (h : s.Ledger dev) (htransfers : s.transfers = x :: rest)
    (hframes : x.frames = f :: frames) (ht : s.Obeyed t (dev.request f)) (setsEvent : Bool) :
    (t.advance setsEvent).Ledger dev := by
  obtain ⟨obeyed, hrequests, hcalls, hsent⟩ := h.requests
  have htransfers' : t.transfers = x :: rest := ht.transfers.trans htransfers
  have hunread : s.unread = f :: (t.advance setsEvent).unread := by
    rw [← unread_advance htransfers' hframes, unread, unread, ht.transfers]
  have hsame : (t.advance setsEvent).received = t.received ∧
      (t.advance setsEvent).calls = t.calls ∧ (t.advance setsEvent).sent = t.sent ∧
      (t.advance setsEvent).qmapFlowControl = t.qmapFlowControl ∧
      (t.advance setsEvent).dataPtrInside = true := by
    cases frames with
    | nil =>
      rw [advance_last htransfers' hframes]
      exact ⟨rfl, rfl, rfl, rfl, rfl⟩
    | cons g gs =>
      rw [advance_cons htransfers' hframes]
      cases setsEvent <;> exact ⟨rfl, rfl, rfl, rfl, ht.dataPtrInside.trans h.inside⟩
  obtain ⟨hreceived, hcalls', hsent', hflags', hinside⟩ := hsame
  refine ⟨⟨obeyed ++ (dev.request f).toList, ?_, ?_, ?_⟩, fun device => ?_, hinside⟩
  · rw [hreceived, ht.received, hrequests, hunread, dev.requests_cons, List.append_assoc]
  · rw [hcalls', ht.calls, hcalls, List.map_append]
  · rw [hsent', ht.sent, hsent, List.map_append]
  · unfold lastCall
    rw [hflags', hcalls']
    exact ht.flags h.flags device

end Ledger

/-! ## The announcement of a command -/

/-- Reads for which the thread goes on are queued. -/
def Reads (dev : ReadDev) (s : State) : Prop := s.bL1Stopped = false ∧ ¬ s.NoReads dev

/-- A command that is next has been announced before the thread waits. -/
structure Watched (dev : ReadDev) (s : State) : Prop where
  running : s.phase = .fill → s.bL1Stopped = false
  awake : s.phase = .wait → s.CommandNext → s.Signalled
  announced : s.phase = .check → s.CommandNext → s.Signalled ∨ s.Reads dev

theorem mem_pL1ReadEvents (e : L1Event) : e ∈ pL1ReadEvents := by
  cases e <;> decide

theorem signalled_of_set {e : L1Event} (h : s.events e = true) : s.Signalled :=
  ⟨e, mem_pL1ReadEvents e, h⟩

theorem Signalled.mono (h : s.Signalled) (hevents : ∀ e, s.events e = true → t.events e = true) :
    t.Signalled := by
  obtain ⟨e, he, hset⟩ := h
  exact ⟨e, he, hevents e hset⟩

theorem events_keSetEvent (e e' : L1Event) (h : s.events e' = true) :
    (s.keSetEvent e).events e' = true := by
  unfold keSetEvent
  dsimp only
  rw [Function.update_apply]
  split_ifs
  · rfl
  · exact h

/-- An event but for the one that is cleared is set. -/
theorem SignalledBut.clear {e : L1Event} (h : s.SignalledBut e) : (s.keClearEvent e).Signalled := by
  obtain ⟨e', he', hne, hset⟩ := h
  exact ⟨e', he', (Function.update_of_ne hne ..).trans hset⟩

theorem next_recycle (htransfers : s.transfers = x :: rest)
    (hnext : s.recycleL2FillBuffer.CommandNext) :
    (nextFrame rest).any Frame.isCommand = true := by
  unfold CommandNext recycleL2FillBuffer at hnext
  rwa [htransfers, List.tail_cons] at hnext

/-- The end of a command does not set the event. -/
theorem next_advance_command (htransfers : s.transfers = x :: rest)
    (hframes : x.frames = f :: frames) (hnext : (s.advance false).CommandNext) :
    ((Branch.command device f).silentlyNext x rest).any Frame.isCommand = true := by
  unfold Branch.silentlyNext
  dsimp only
  cases frames with
  | nil =>
    rw [advance_last htransfers hframes] at hnext
    rw [hframes, if_pos (by simp)]
    exact next_recycle htransfers hnext
  | cons g gs =>
    rw [advance_cons htransfers hframes] at hnext
    rw [hframes, if_neg (by simp)]
    exact hnext

/-- The end of a data frame sets the event, or is that of the buffer. -/
theorem next_advance_data (htransfers : s.transfers = x :: rest)
    (hframes : x.frames = f :: frames) (hnext : (s.advance true).CommandNext) :
    (s.advance true).Signalled ∨
      (Branch.skipped.silentlyNext x rest).any Frame.isCommand = true := by
  unfold Branch.silentlyNext
  dsimp only
  cases frames with
  | nil =>
    rw [advance_last htransfers hframes] at hnext
    rw [hframes, if_pos (by simp)]
    exact .inr (next_recycle htransfers hnext)
  | cons g gs =>
    have hset : (s.advance true).events .completion = true := by
      rw [advance_cons htransfers hframes]
      exact Function.update_self L1Event.completion true s.events
    exact .inl (signalled_of_set hset)

theorem not_commandNext_of_data (htransfers : s.transfers = x :: rest)
    (hframes : x.frames = f :: frames) (hdata : f.isCommand = false) : ¬ s.CommandNext := by
  simp [CommandNext, nextFrame, htransfers, hframes, hdata]

/-- What `USBMRD_ReadIrpCompletion` leaves of the rest of the state. -/
structure Keeps (s t : State) : Prop where
  bL1Stopped : t.bL1Stopped = s.bL1Stopped
  events : ∀ e, s.events e = true → t.events e = true

theorem keeps_advance (s : State) (setsEvent : Bool) : s.Keeps (s.advance setsEvent) := by
  unfold advance
  cases s.transfers with
  | nil => exact ⟨rfl, fun e he => he⟩
  | cons x rest =>
    dsimp only
    cases x.frames with
    | nil => exact ⟨rfl, fun e he => he⟩
    | cons f frames =>
      cases frames with
      | nil => exact ⟨rfl, fun e he => he⟩
      | cons g gs =>
        cases setsEvent with
        | false => exact ⟨rfl, fun e he => he⟩
        | true => exact ⟨rfl, fun e he => events_keSetEvent .completion e he⟩

theorem readDataQueue_advance (s : State) (setsEvent : Bool) :
    (s.advance setsEvent).readDataQueue = s.readDataQueue := by
  unfold advance
  cases s.transfers with
  | nil => rfl
  | cons x rest =>
    dsimp only
    cases x.frames with
    | nil => rfl
    | cons f frames =>
      cases frames with
      | nil => rfl
      | cons g gs => cases setsEvent <;> rfl

theorem readDataQueue_completeIrp (s : State) (device other : Nat) :
    (s.completeIrp device).readDataQueue other =
      if other = device then (s.readDataQueue other).tail else s.readDataQueue other := by
  unfold completeIrp
  dsimp only
  rw [Function.update_apply]
  split_ifs with hother
  · rw [hother]
  · rfl

/-- The frame at `L2FillIdx`, or its buffer, is done with, or waits. -/
structure Filled (dev : ReadDev) (s : State) (x : L2Transfer) (rest : List L2Transfer) (t : State) :
    Prop where
  ledger : t.Ledger dev
  keeps : s.Keeps t
  reads : ∀ device, t.readDataQueue device = (s.branch dev x).readsLeft dev s device
  next : t.CommandNext →
    t.Signalled ∨ ((s.branch dev x).silentlyNext x rest).any Frame.isCommand = true

/-- The buffer is dropped, or done with. -/
theorem Filled.of_dropped {b : Branch} (hbranch : s.branch dev x = b)
    (hsilent : b.silentlyNext x rest = nextFrame rest) (hledger : t.Ledger dev)
    (htransfers : t.transfers = rest) (hstopped : t.bL1Stopped = s.bL1Stopped)
    (hevents : t.events = s.events)
    (hreads : ∀ device, t.readDataQueue device = b.readsLeft dev s device) :
    s.Filled dev x rest t where
  ledger := hledger
  keeps := ⟨hstopped, fun e he => by rwa [hevents]⟩
  reads device := by rw [hbranch, hreads]
  next hnext := by
    rw [hbranch, hsilent, ← htransfers]
    exact .inr hnext

/-- The frame waits for a read. -/
theorem Filled.of_data (hledger : t.Ledger dev) (htransfers : t.transfers = x :: rest)
    (hframes : x.frames = f :: frames) (hdata : f.isCommand = false)
    (hstopped : t.bL1Stopped = s.bL1Stopped) (hevents : t.events = s.events)
    (hreads : ∀ device, t.readDataQueue device = (s.branch dev x).readsLeft dev s device) :
    s.Filled dev x rest t where
  ledger := hledger
  keeps := ⟨hstopped, fun e he => by rwa [hevents]⟩
  reads := hreads
  next hnext := absurd hnext (not_commandNext_of_data htransfers hframes hdata)

theorem Ledger.readIrpCompletion (h : s.Ledger dev) (htransfers : s.transfers = x :: rest)
    (hkeeps : (s.branch dev x).KeepsRequests dev x allocated)
    (hread : s.readIrpCompletion dev x allocated = some t) : s.Filled dev x rest t := by
  have hfor := s.branch_for dev x
  have htail : s.transfers.tail = rest := congrArg List.tail htransfers
  unfold State.readIrpCompletion at hread
  cases hbranch : s.branch dev x with
  | failed =>
    rw [hbranch] at hread hkeeps
    obtain rfl := Option.some.inj hread
    have hdropped := h.recycle htransfers hkeeps
    exact .of_dropped hbranch rfl (hdropped.of_same rfl rfl rfl rfl rfl hdropped.inside) htail rfl
      rfl (readDataQueue_completeIrp s dev.self)
  | badBundle isEnd =>
    rw [hbranch] at hread hkeeps
    obtain rfl := Option.some.inj hread
    have hledger : { s with tlpBufferState := if isEnd then .idle else .error }.Ledger dev :=
      h.of_same rfl rfl rfl rfl rfl h.inside
    exact .of_dropped hbranch rfl (hledger.recycle htransfers hkeeps) htail rfl rfl fun _ => rfl
  | wild =>
    rw [hbranch] at hread
    cases hread
  | endOfBuf | frameDropped =>
    rw [hbranch] at hread hkeeps
    obtain rfl := Option.some.inj hread
    exact .of_dropped hbranch rfl (h.recycle htransfers hkeeps) htail rfl rfl fun _ => rfl
  | strayCommand f =>
    rw [hbranch] at hread hkeeps hfor
    obtain rfl := Option.some.inj hread
    obtain ⟨hasks, hlast⟩ := hkeeps
    have hnone : dev.requests x.frames = [] := by
      obtain ⟨frames, hframes⟩ := hfor
      rw [hframes, List.length_cons, Nat.succ_inj] at hlast
      rw [hframes, List.length_eq_zero_iff.mp hlast, dev.requests_cons, dev.request_of_asks hasks]
      rfl
    have hdropped := h.recycle htransfers hnone
    have hledger : { s.recycleL2FillBuffer with
        dataPtrInside := decide (x.frames.length = 1) }.Ledger dev :=
      hdropped.of_same rfl rfl rfl rfl rfl (decide_eq_true hlast)
    rw [qmapProcessControlMessage_of_asks hasks]
    exact .of_dropped hbranch rfl hledger htail rfl rfl fun _ => rfl
  | command device f =>
    rw [hbranch] at hread hkeeps hfor
    obtain rfl := Option.some.inj hread
    obtain ⟨⟨frames, hframes⟩, hcommand, htarget⟩ := hfor
    have hobeyed := obeyed_command (s := s) hcommand htarget hkeeps
    generalize s.qmapProcessControlMessage dev device (dev.message f) allocated = u at hobeyed
    have hkept := u.keeps_advance false
    refine ⟨h.advance htransfers hframes hobeyed false, ⟨hkept.bL1Stopped.trans hobeyed.bL1Stopped,
      fun e he => hkept.events e (by rwa [hobeyed.events])⟩, fun other => ?_, fun hnext => .inr ?_⟩
    · rw [hbranch, readDataQueue_advance, hobeyed.readDataQueue]
      rfl
    · rw [hbranch]
      exact next_advance_command (hobeyed.transfers.trans htransfers) hframes hnext
  | waits =>
    rw [hbranch] at hread hfor
    obtain rfl := Option.some.inj hread
    obtain ⟨f, frames, hframes, hdata⟩ := hfor
    exact .of_data h htransfers hframes hdata rfl rfl fun device => by rw [hbranch]; rfl
  | filled device =>
    rw [hbranch] at hread hfor
    obtain rfl := Option.some.inj hread
    obtain ⟨f, frames, hframes, hdata⟩ := hfor
    have hledger := h.of_same (t := s.completeIrp device) rfl rfl rfl rfl rfl h.inside
    have hnone : (s.completeIrp device).Obeyed (s.completeIrp device) (dev.request f) := by
      rw [dev.request_data hdata]
      exact .refl _
    have hkept := (s.completeIrp device).keeps_advance true
    refine ⟨hledger.advance htransfers hframes hnone true, ⟨hkept.bL1Stopped, hkept.events⟩,
      fun other => ?_, fun hnext => ?_⟩
    · rw [hbranch, readDataQueue_advance]
      exact readDataQueue_completeIrp ..
    · rw [hbranch]
      exact next_advance_data htransfers hframes hnext
  | skipped =>
    rw [hbranch] at hread hfor
    obtain rfl := Option.some.inj hread
    obtain ⟨f, frames, hframes, hdata⟩ := hfor
    have hnone : s.Obeyed s (dev.request f) := by
      rw [dev.request_data hdata]
      exact .refl _
    refine ⟨h.advance htransfers hframes hnone true, s.keeps_advance true, fun other => ?_,
      fun hnext => ?_⟩
    · rw [hbranch, readDataQueue_advance]
      rfl
    · rw [hbranch]
      exact next_advance_data htransfers hframes hnext
  | bundleError =>
    rw [hbranch] at hread hkeeps
    obtain rfl := Option.some.inj hread
    have hledger : { s with tlpBufferState := .error }.Ledger dev :=
      h.of_same rfl rfl rfl rfl rfl h.inside
    exact .of_dropped hbranch rfl (hledger.recycle htransfers hkeeps) htail rfl rfl fun _ => rfl
  | bufferTooSmall device =>
    rw [hbranch] at hread hfor
    obtain rfl := Option.some.inj hread
    obtain ⟨f, frames, hframes, hdata⟩ := hfor
    have hledger := h.of_same (t := s.completeIrp device) rfl rfl rfl rfl rfl h.inside
    exact .of_data hledger htransfers hframes hdata rfl rfl fun other => by
      rw [hbranch]
      exact readDataQueue_completeIrp ..

/-! ## Steps -/

/-- Both invariants. -/
structure Inv (dev : ReadDev) (s : State) : Prop where
  ledger : s.Ledger dev
  watched : s.Watched dev

theorem noReads_iff : ¬ s.NoReads dev ↔ ∃ device ∈ dev.polled, s.readDataQueue device ≠ [] := by
  simp [NoReads]

theorem Inv.fill (h : s.Inv dev) (hphase : s.phase = .fill) (hguard : s.FillGuarded dev answers)
    (hs : s.fillReadRequest dev answers = some t) : { t with phase := .check }.Inv dev := by
  have hrunning := h.watched.running hphase
  unfold fillReadRequest at hs
  cases htransfers : s.transfers with
  | nil =>
    rw [htransfers] at hs
    obtain rfl := Option.some.inj hs
    refine ⟨h.ledger.of_same rfl rfl rfl rfl rfl h.ledger.inside, nofun, nofun, fun _ hnext => ?_⟩
    simp [CommandNext, nextFrame, htransfers] at hnext
  | cons x rest =>
    have hguard := hguard x (by rw [htransfers]; rfl)
    rw [htransfers] at hs hguard
    dsimp only [List.tail_cons] at hs hguard
    by_cases hempty : x.success ∧ x.length = 0
    · rw [if_pos hempty] at hs hguard
      obtain rfl := Option.some.inj hs
      obtain ⟨hnone, hannounced⟩ := hguard
      have hledger := h.ledger.recycle htransfers hnone
      refine ⟨hledger.of_same rfl rfl rfl rfl rfl hledger.inside, nofun, nofun, fun _ hnext => ?_⟩
      obtain hsignal | hreads := hannounced (next_recycle htransfers hnext)
      · exact .inl hsignal
      · exact .inr ⟨hrunning, hreads⟩
    · rw [if_neg hempty] at hs hguard
      obtain ⟨u, hu, rfl⟩ := Option.map_eq_some_iff.mp hs
      have hfilled := h.ledger.readIrpCompletion htransfers hguard.1 hu
      refine ⟨hfilled.ledger.of_same rfl rfl rfl rfl rfl hfilled.ledger.inside, nofun, nofun,
        fun _ hnext => ?_⟩
      obtain hsignal | hsilent := hfilled.next hnext
      · exact .inl hsignal
      obtain hsignal | ⟨hpresent, device, hpolled, hleft⟩ := hguard.2 hsilent
      · exact .inl (hsignal.mono hfilled.keeps.events)
      · refine .inr ⟨?_, noReads_iff.mpr ⟨device, hpolled, ?_⟩⟩
        · dsimp only
          rw [hfilled.keeps.bL1Stopped, hrunning, hpresent]
          rfl
        · dsimp only
          rwa [hfilled.reads]

theorem transfers_ne_nil (h : s.CommandNext) : s.transfers ≠ [] := by
  intro hnil
  simp [CommandNext, nextFrame, hnil] at h

theorem Inv.check (h : s.Inv dev) (hphase : s.phase = .check) : (s.check dev).Inv dev := by
  unfold State.check
  split_ifs with hgoes
  · exact ⟨h.ledger.of_same rfl rfl rfl rfl rfl h.ledger.inside, fun _ => hgoes.2.1, nofun, nofun⟩
  · refine ⟨h.ledger.of_same rfl rfl rfl rfl rfl h.ledger.inside, nofun, fun _ hnext => ?_, nofun⟩
    obtain hsignal | ⟨hrunning, hreads⟩ := h.watched.announced hphase hnext
    · exact hsignal
    · exact absurd ⟨transfers_ne_nil hnext, hrunning, hreads⟩ hgoes

theorem Inv.wake {e : L1Event} (h : s.Inv dev) (hguard : s.WakeGuarded dev answers e) :
    (s.wake dev answers e).Inv dev := by
  have hfills (hguard : s.bL1Stopped = true → s.CommandNext → s.SignalledBut e) :
      State.Inv dev { s.keClearEvent e with phase := if s.bL1Stopped then .check else .fill } := by
    refine ⟨h.ledger.of_same rfl rfl rfl rfl rfl h.ledger.inside, ?_, ?_, ?_⟩
    · cases hstopped : s.bL1Stopped with
      | false => exact fun _ => hstopped
      | true => exact nofun
    · cases s.bL1Stopped <;> exact nofun
    · cases hstopped : s.bL1Stopped with
      | false => exact nofun
      | true => exact fun _ hnext => .inl (hguard hstopped hnext).clear
  cases e with
  | cancel =>
    exact ⟨h.ledger.of_same rfl rfl rfl rfl rfl h.ledger.inside, nofun, nofun, nofun⟩
  | kick => exact hfills hguard
  | completion => exact hfills hguard
  | purge =>
    refine ⟨h.ledger.of_same rfl rfl rfl rfl rfl h.ledger.inside, nofun, nofun, fun _ hnext => ?_⟩
    obtain hsignal | ⟨hrunning, device, hpolled, hother, hreads⟩ := hguard hnext
    · exact .inl hsignal.clear
    · refine .inr ⟨hrunning, noReads_iff.mpr ⟨device, hpolled, ?_⟩⟩
      exact (Function.update_of_ne hother ..).trans_ne hreads
  | stop =>
    refine ⟨h.ledger.of_same rfl rfl rfl rfl rfl h.ledger.inside, nofun, nofun, fun _ hnext => ?_⟩
    exact .inl (hguard hnext).clear
  | resume =>
    refine ⟨h.ledger.of_same rfl rfl rfl rfl rfl h.ledger.inside, nofun, nofun, fun _ hnext => ?_⟩
    obtain hsignal | ⟨hpresent, hreads⟩ := hguard hnext
    · exact .inl hsignal.clear
    · exact .inr ⟨hpresent, hreads⟩

/-- More reads and more events announce no less. -/
theorem Watched.mono (h : s.Watched dev) (htransfers : t.transfers = s.transfers)
    (hphase : t.phase = s.phase) (hstopped : t.bL1Stopped = s.bL1Stopped)
    (hevents : ∀ e, s.events e = true → t.events e = true)
    (hreads : s.phase = .check → s.CommandNext → s.Reads dev → t.Signalled ∨ t.Reads dev) :
    t.Watched dev where
  running hfill := hstopped.trans (h.running (hphase.symm.trans hfill))
  awake hwait hnext := by
    unfold CommandNext at hnext
    rw [htransfers] at hnext
    exact (h.awake (hphase.symm.trans hwait) hnext).mono hevents
  announced hcheck hnext := by
    unfold CommandNext at hnext
    rw [htransfers] at hnext
    have hcheck : s.phase = .check := hphase.symm.trans hcheck
    obtain hsignal | hqueued := h.announced hcheck hnext
    · exact .inl (hsignal.mono hevents)
    · exact hreads hcheck hnext hqueued

theorem Inv.enqueue (h : s.Inv dev) (device : Nat) (irp : ReadIrp) :
    (s.enqueue dev device irp).Inv dev := by
  have hmore (other : Nat) (hreads : s.readDataQueue other ≠ []) :
      Function.update s.readDataQueue device (s.readDataQueue device ++ [irp]) other ≠ [] := by
    rw [Function.update_apply]
    split_ifs
    · simp
    · exact hreads
  have hkept (hqueued : s.Reads dev) : ∃ other ∈ dev.polled,
      Function.update s.readDataQueue device (s.readDataQueue device ++ [irp]) other ≠ [] := by
    obtain ⟨other, hpolled, hreads⟩ := noReads_iff.mp hqueued.2
    exact ⟨other, hpolled, hmore other hreads⟩
  unfold State.enqueue
  split_ifs
  · refine ⟨h.ledger.of_same rfl rfl rfl rfl rfl h.ledger.inside,
      h.watched.mono rfl rfl rfl (events_keSetEvent .kick) fun _ _ hqueued => .inr ?_⟩
    exact ⟨hqueued.1, noReads_iff.mpr (hkept hqueued)⟩
  · refine ⟨h.ledger.of_same rfl rfl rfl rfl rfl h.ledger.inside,
      h.watched.mono rfl rfl rfl (fun _ he => he) fun _ _ hqueued => .inr ?_⟩
    exact ⟨hqueued.1, noReads_iff.mpr (hkept hqueued)⟩

theorem Ledger.complete (h : s.Ledger dev) (success : Bool) (frames : List Frame) :
    (s.complete dev success frames).Ledger dev := by
  obtain ⟨obeyed, hrequests, hcalls, hsent⟩ := h.requests
  have hunread : (s.complete dev success frames).unread =
      s.unread ++ if success then frames else [] := by
    simp [unread, State.complete, List.flatMap_append]
  refine ⟨⟨obeyed, ?_, hcalls, hsent⟩, h.flags, h.inside⟩
  rw [hunread, dev.requests_append, ← List.append_assoc, ← hrequests]
  exact dev.requests_append ..

theorem Inv.complete (h : s.Inv dev) (success : Bool) (frames : List Frame) :
    (s.complete dev success frames).Inv dev := by
  have hset : (s.complete dev success frames).events .completion = true := by
    unfold State.complete keSetEvent
    exact Function.update_self L1Event.completion true s.events
  exact ⟨h.ledger.complete success frames, h.watched.running, fun _ _ => signalled_of_set hset,
    fun _ _ => .inl (signalled_of_set hset)⟩

theorem Inv.step (h : s.Inv dev) {op : Op} (hguard : s.Guarded dev op)
    (hs : s.step dev op = some t) : t.Inv dev := by
  cases op with
  | complete success frames =>
    obtain rfl := Option.some.inj hs
    exact h.complete success frames
  | enqueue device irp =>
    obtain rfl := Option.some.inj hs
    exact h.enqueue device irp
  | remove device irp =>
    obtain rfl := Option.some.inj hs
    refine ⟨h.ledger.of_same rfl rfl rfl rfl rfl h.ledger.inside,
      h.watched.mono rfl rfl rfl (fun _ he => he) fun hcheck hnext _ => ?_⟩
    obtain hsignal | ⟨hrunning, other, hpolled, hreads⟩ := hguard hcheck hnext
    · exact .inl hsignal
    · refine .inr ⟨hrunning, noReads_iff.mpr ⟨other, hpolled, ?_⟩⟩
      dsimp only
      rw [Function.update_apply]
      split_ifs at hreads ⊢ with hother
      · rwa [← hother]
      · exact hreads
  | keSetEvent e =>
    obtain ⟨-, heq⟩ := Option.ite_none_left_eq_some.mp hs
    obtain rfl := Option.some.inj heq
    exact ⟨h.ledger.of_same rfl rfl rfl rfl rfl h.ledger.inside,
      h.watched.mono rfl rfl rfl (events_keSetEvent e) fun _ _ hqueued => .inr hqueued⟩
  | thread e answers =>
    unfold State.step threadStep at hs
    cases hphase : s.phase with
    | check =>
      rw [hphase] at hs
      obtain rfl := Option.some.inj hs
      exact h.check hphase
    | wait =>
      rw [hphase] at hs
      obtain ⟨-, heq⟩ := Option.ite_none_right_eq_some.mp hs
      obtain rfl := Option.some.inj heq
      exact h.wake (hguard.2 hphase)
    | fill =>
      rw [hphase] at hs
      obtain ⟨u, hu, rfl⟩ := Option.map_eq_some_iff.mp hs
      exact h.fill hphase (hguard.1 hphase) hu
    | exited =>
      rw [hphase] at hs
      cases hs

theorem Inv.obeys (h : s.Inv dev) : s.Obeys dev := by
  obtain ⟨obeyed, hrequests, hcalls, hsent⟩ := h.ledger.requests
  have htake : (dev.requests s.received).take s.calls.length = obeyed := by
    rw [hrequests, hcalls, List.length_map, List.take_left]
  refine ⟨?_, ?_, h.ledger.flags, fun hnone => ?_, h.watched.awake⟩
  · rw [htake]
    exact hcalls
  · rw [htake]
    exact hsent
  · have hunread : s.unread = [] := by simp [unread, hnone]
    rw [hrequests, hcalls, hunread, List.length_map]
    simp [ReadDev.requests]

end State

theorem initial_inv (dev : ReadDev) : initial.Inv dev :=
  ⟨⟨⟨[], rfl, rfl, rfl⟩, fun _ => rfl, rfl⟩, nofun, nofun, nofun⟩

theorem step_of_l1MultiReadThread {op : Op} {o : Unit}
    (h : l1MultiReadThread dev s op = some (t, o)) : s.step dev op = some t := by
  obtain ⟨u, hu, heq⟩ := Option.map_eq_some_iff.mp h
  obtain rfl : u = t := congrArg Prod.fst heq
  exact hu

/-! ## Runs -/

/-- In a run whose steps meet the condition the commands are obeyed, answered and announced. -/
theorem obeys_of_guarded (dev : ReadDev) (ops : List Op)
    (h : ∀ p ∈ (l1MultiReadThread dev).fires initial ops, p.1.Guarded dev p.2) :
    ∀ s ∈ (l1MultiReadThread dev).visits initial ops, s.Obeys dev := by
  have hinv : ∀ s ∈ (l1MultiReadThread dev).visits initial ops, s.Inv dev := by
    apply Machine.visits_all_of_fires _ (initial_inv dev) h
    intro s op s' o hs hguard hstep
    exact hs.step hguard (step_of_l1MultiReadThread hstep)
  exact fun s hs => (hinv s hs).obeys

/-- Two adapters with mux ids 1 and 2. The first reads from USB. -/
def twoAdapters : ReadDev :=
  { mode := .v1
    muxEnabled := true
    self := 0
    physicalInterfaceNumber := 0
    filterDeviceObj := 0
    adapterList := [⟨1, 0, 0⟩, ⟨2, 0, 0⟩]
    ipOnlyMode := true
    ethHdr := []
    qmapDLMinPadding := 0
    maxPipeXferSize := 16384
    muxInterface := fun device => ⟨true, .ofNat device⟩ }

/-- A request in a command frame. -/
def requestFrame (muxId commandName transactionId : UInt8) : Frame where
  padCD := 0x80
  muxId := muxId
  body := [commandName, 0, 0, 0, transactionId, 0, 0, 0, 0, 0, 0, 0, 0, 0, 0, 0]
  dlChecksum := List.replicate 8 0
  pos := by simp
  length_lt := by simp
  pad_lt := by
    rw [List.length_cons]
    exact Nat.succ_pos _
  dlChecksum_length := List.length_replicate

def calm : Answers := ⟨true, true, false⟩

/-- The thread looks, wakes up for a transfer, and takes a frame from it. -/
def takeFrame : List Op :=
  [.thread .completion calm, .thread .completion calm, .thread .completion calm]

/-- A pause and a resume in two transfers, each before the thread looks. -/
def pauseAndResume : List Op :=
  [.complete true [requestFrame 1 1 7]] ++ takeFrame ++ [.complete true [requestFrame 2 2 8]] ++
    takeFrame

/-- Both requests are obeyed in turn. -/
theorem obeys_pauseAndResume :
    (∃ s ∈ (l1MultiReadThread twoAdapters).visits initial pauseAndResume,
      s.calls.map Prod.snd = [true, false]) ∧
    ∀ s ∈ (l1MultiReadThread twoAdapters).visits initial pauseAndResume, s.Obeys twoAdapters :=
  ⟨by decide +kernel, obeys_of_guarded twoAdapters pauseAndResume (by decide +kernel)⟩

/-! ## Commands that are left behind, go astray, or are not answered -/

/-- A pause and a resume in one transfer. No read is queued. -/
def oneTransfer : List Op :=
  [.complete true [requestFrame 1 1 7, requestFrame 1 2 8]] ++ takeFrame ++
    [.thread .completion calm]

/-- A pause with a mux id of no adapter. -/
def unknownMuxId : List Op := [.complete true [requestFrame 9 1 7]] ++ takeFrame

/-- A pause with transaction id zero. -/
def zeroTransactionId : List Op := [.complete true [requestFrame 2 1 0]] ++ takeFrame

/-- The resume waits behind the pause with no event set, the adapter that reads from USB is paused
for a mux id of no adapter, and the answer to a request is a request. -/
theorem not_obeys_commandRuns :
    (¬ ∀ s ∈ (l1MultiReadThread twoAdapters).visits initial oneTransfer, s.Obeys twoAdapters) ∧
      (¬ ∀ s ∈ (l1MultiReadThread twoAdapters).visits initial unknownMuxId,
        s.Obeys twoAdapters) ∧
      ¬ ∀ s ∈ (l1MultiReadThread twoAdapters).visits initial zeroTransactionId,
        s.Obeys twoAdapters := by
  refine ⟨?_, ?_, ?_⟩
  · obtain ⟨s, hs, hphase, hnext, hsilent⟩ :
        ∃ s ∈ (l1MultiReadThread twoAdapters).visits initial oneTransfer,
          s.phase = .wait ∧ s.CommandNext ∧ ¬ s.Signalled := by
      decide +kernel
    exact fun h => hsilent ((h s hs).awake hphase hnext)
  · obtain ⟨s, hs, hcalls⟩ :
        ∃ s ∈ (l1MultiReadThread twoAdapters).visits initial unknownMuxId,
          s.calls ≠ ((twoAdapters.requests s.received).take s.calls.length).map callFor := by
      decide +kernel
    exact fun h => hcalls (h s hs).calls
  · obtain ⟨s, hs, hsent⟩ :
        ∃ s ∈ (l1MultiReadThread twoAdapters).visits initial zeroTransactionId,
          s.sent.map SentFrame.answer ≠
            ((twoAdapters.requests s.received).take s.calls.length).map answerTo := by
      decide +kernel
    exact fun h => hsent (h s hs).sent

end Transport.FlowCommands
