-- SUMMARY: The write thread of the USB transport: write buffers, sent records, control events, completions and cancellation.
import QcomUsb.Library.CancelRoutine
import QcomUsb.Library.Transition

/-!
# The write thread

`USBMWT_WriteThread` takes writes off `WriteDataQueue` and sends each with a write buffer of its
own. A sent write has a record on `MWTSentIrpQueue` until its buffer comes back. While the flow is
off, a write that comes back unsent keeps its record, and when all buffers are back the records
are put in front of `WriteDataQueue` again. Each step is one phase of the thread, one hold of
`WriteSpinLock` by another party, or a completion by USB.
-/

namespace Transport.Mwt

open CancelRoutine Transition

/-- A write IRP with the data of its buffer. -/
structure Irp where
  id : Nat
  payload : List UInt8
deriving DecidableEq

inductive NtStatus
  | success
  | cancelled
  | unsuccessful
deriving DecidableEq

/-- `MWT_BUF_STATE`. -/
inductive BufState
  | idle
  | pending
  | completed
deriving DecidableEq

/-- A `QCMWT_BUFFER` with its URB: where in the write's buffer the transfer begins, and
`TransferBufferLength` and the status when it is back. -/
structure Buffer where
  state : BufState
  callingIrp : Option Irp
  length : Nat
  offset : Nat
  transferBufferLength : Nat
  status : NtStatus
deriving DecidableEq

def Buffer.unused : Buffer := ⟨.idle, none, 0, 0, 0, .success⟩

/-- A `QCUSB_MWT_SENT_IRP` on the queue. A zero-length packet has no IRP. -/
structure SentIrp where
  sentIrp : Option Irp
  totalLength : Nat
  mwtBuf : Nat
  irpReturned : Bool
deriving DecidableEq

/-- `MWT_STATE`. -/
inductive MwtState
  | working
  | stopping
  | purging
  | cancelling
  | flowOff
deriving DecidableEq

/-- Where the write thread is: at the head of its loop, before it takes the lock to de-queue, with
a buffer and a write de-queued, at `wait_for_completion`, with a completed buffer peeked, or gone. -/
inductive Phase
  | loopHead
  | dequeue
  | send (buf : Nat) (irp : Option Irp)
  | wait
  | process (buf : Nat)
  | exited
deriving DecidableEq

/-- What USB took of a buffer: bytes of a write, of a transfer of `length` bytes that succeeded or
not, or a zero-length packet. -/
inductive Taken
  | data (bytes : List UInt8) (length : Nat) (success : Bool)
  | zeroLength
deriving DecidableEq

/-- `wMaxPktSize`, `USBUTL_IsHighSpeedDevice`, `NumberOfMultiWrites`, and when errors remove the
device. -/
structure Cfg where
  wMaxPktSize : Nat
  highSpeed : Bool
  numberOfMultiWrites : Nat
  numOfRetriesOnError : Nat
  continueOnDataError : Bool

/-- `QCUSB_MAX_MWT_BUF_COUNT`. -/
def maxMwtBufCount : Nat := 52

/-- The fields of the device extension and the locals of the thread. Observers keep the writes that
were submitted and accepted, the writes completed off `WtCompletionQueue`, what USB took, which
control requests the thread has consumed and not yet answered, and whether the driver has linked an
entry that is on a list, or unlinked one from an empty list. -/
structure State where
  writeDataQueue : List Irp
  wtCompletionQueue : List Irp
  mWriteIdleQueue : List Nat
  mWritePendingQueue : List Nat
  mWriteCompletionQueue : List Nat
  mWriteCancellingQueue : List Nat
  pMwtBuffer : Nat → Buffer
  mwtSentIrpQueue : List SentIrp
  mwtSentIrpRecordPool : Nat
  bWriteStopped : Bool
  presentAndStarted : Bool
  wtErrorCount : Nat
  phase : Phase
  mwtState : MwtState
  bCancelled : Bool
  bPurged : Bool
  bSendZeroLength : Bool
  bFlowOn : Bool
  information : Irp → Nat
  status : Irp → NtStatus
  io : CancelState Irp
  submitted : List Irp
  accepted : List Irp
  completed : List Irp
  taken : List Taken
  stopOwed : Bool
  purgeOwed : Bool
  cancelOwed : Bool
  wild : Bool

namespace State

/-- The thread has started, and all buffers are idle. -/
def initial (cfg : Cfg) : State where
  writeDataQueue := []
  wtCompletionQueue := []
  mWriteIdleQueue := List.range cfg.numberOfMultiWrites
  mWritePendingQueue := []
  mWriteCompletionQueue := []
  mWriteCancellingQueue := []
  pMwtBuffer := fun _ => .unused
  mwtSentIrpQueue := []
  mwtSentIrpRecordPool := maxMwtBufCount
  bWriteStopped := false
  presentAndStarted := true
  wtErrorCount := 0
  phase := .loopHead
  mwtState := .working
  bCancelled := false
  bPurged := false
  bSendZeroLength := false
  bFlowOn := true
  information := fun _ => 0
  status := fun _ => .success
  io := .initial
  submitted := []
  accepted := []
  completed := []
  taken := []
  stopOwed := false
  purgeOwed := false
  cancelOwed := false
  wild := false

def goTo (s : State) (phase : Phase) : State := { s with phase := phase }

/-! ## Writes -/

/-- A write goes to `WtCompletionQueue`. -/
def insertWtCompletionQueue (s : State) (irp : Irp) (status : NtStatus) (information : Nat) :
    State :=
  { s with
    status := Function.update s.status irp status
    information := Function.update s.information irp information
    wtCompletionQueue := s.wtCompletionQueue ++ [irp] }

def ioSetCancelRoutine (s : State) (irp : Irp) (routine : Bool) : State :=
  { s with io := s.io.ioSetCancelRoutine irp routine }

/-- `USBWT_Enqueue`. -/
def enqueue (s : State) (irp : Irp) : State :=
  let s := { s with submitted := s.submitted ++ [irp] }
  if s.io.cancel irp then
    { s.ioSetCancelRoutine irp false with
      status := Function.update s.status irp .cancelled
      information := Function.update s.information irp 0 }
  else
    { s.ioSetCancelRoutine irp true with
      information := Function.update s.information irp 0
      writeDataQueue := s.writeDataQueue ++ [irp]
      accepted := s.accepted ++ [irp] }

/-- A turn of the purge's loop, behind `RemoveHeadList`. -/
def purgeIrp (s : State) (irp : Irp) : State :=
  if s.io.installed irp then
    (s.ioSetCancelRoutine irp false).insertWtCompletionQueue irp .cancelled 0
  else s

/-- `USBUTL_PurgeQueue` on `WriteDataQueue`. -/
def purgeQueue (s : State) : State :=
  s.writeDataQueue.foldl purgeIrp { s with writeDataQueue := [] }

/-- `USBMWT_IsIrpPending`. -/
def isIrpPending (s : State) (irp : Irp) : Option Nat :=
  s.mWritePendingQueue.find? fun b =>
    (s.pMwtBuffer b).callingIrp == some irp && (s.pMwtBuffer b).state == .pending

/-- `USBMWT_CancelWriteRoutine`. It goes wrong if the cancel request of the buffer is on its queue
already. -/
def cancelWriteRoutine (s : State) (irp : Irp) : State :=
  let returns := fun s : State => { s with io := s.io.routineReturns irp }
  if irp ∈ s.writeDataQueue then
    returns ({ s with writeDataQueue := s.writeDataQueue.erase irp }.insertWtCompletionQueue
      irp .cancelled 0)
  else
    match s.isIrpPending irp with
    | none => returns (s.insertWtCompletionQueue irp .cancelled 0)
    | some b =>
      if b ∈ s.mWriteCancellingQueue then { s with wild := true }
      else
        { returns s with
          mWriteCancellingQueue := s.mWriteCancellingQueue ++ [b] }.ioSetCancelRoutine irp true

/-- A turn of `QcEmptyCompletionQueue`. -/
def qcEmptyCompletionQueue (s : State) : State :=
  match s.wtCompletionQueue with
  | [] => s
  | irp :: rest => { s with wtCompletionQueue := rest, completed := s.completed ++ [irp] }

/-! ## Sending -/

/-- The head of the thread's loop. -/
def loopHead (s : State) : State :=
  if !s.presentAndStarted || s.bPurged then
    -- check to see if we need to complete the purge IRP
    { s.purgeQueue with bPurged := false, purgeOwed := false, phase := .wait }
  else if s.bWriteStopped then s.goTo .wait
  else if !s.bFlowOn then s.goTo .wait
  else s.goTo .dequeue

/-- A turn of the inner loop. `wakeup` is what `QCPWR_CheckToWakeup` answers. -/
def dequeue (s : State) (wakeup : Bool) : State :=
  if s.writeDataQueue = [] ∧ s.bSendZeroLength = false then s.goTo .wait
  else
    match s.mWriteIdleQueue with
    | [] => s.goTo .wait
    | b :: idle =>
      if !s.presentAndStarted then s.goTo .wait
      else if s.bCancelled then s.purgeQueue.goTo .wait
      else if wakeup || s.bWriteStopped then s.goTo .wait
      else
        let s :=
          { s with
            mWriteIdleQueue := idle
            pMwtBuffer := Function.update s.pMwtBuffer b { s.pMwtBuffer b with state := .pending }
            mWritePendingQueue := s.mWritePendingQueue ++ [b] }
        if s.bSendZeroLength then s.goTo (.send b none)
        else
          match s.writeDataQueue with
          | [] => s.goTo .wait
          | irp :: rest => { s with writeDataQueue := rest }.goTo (.send b (some irp))

/-- The bytes of a write that are still to be sent, `ulReqBytes`. -/
def reqBytes (s : State) : Option Irp → Nat
  | none => 0
  | some irp =>
    if irp.payload.length ≥ s.information irp then irp.payload.length - s.information irp
    else irp.payload.length

/-- Where the write's bytes that are still to be sent begin. -/
def sendOffset (s : State) : Option Irp → Nat
  | none => 0
  | some irp => s.information irp

/-- The buffer is attached to the write, the write is recorded, and the URB goes to USB. It goes
wrong if there is no record left. -/
def send (cfg : Cfg) (s : State) (b : Nat) (irp : Option Irp) : State :=
  if s.mwtSentIrpRecordPool = 0 then { s with wild := true }
  else
    let ulReqBytes := s.reqBytes irp
    { s with
      pMwtBuffer := Function.update s.pMwtBuffer b
        { s.pMwtBuffer b with
          callingIrp := irp
          length := ulReqBytes
          offset := s.sendOffset irp
          transferBufferLength := ulReqBytes }
      mwtSentIrpQueue :=
        s.mwtSentIrpQueue ++ [⟨irp, ulReqBytes + s.sendOffset irp, b, false⟩]
      mwtSentIrpRecordPool := s.mwtSentIrpRecordPool - 1
      bSendZeroLength := 0 < ulReqBytes && ulReqBytes % cfg.wMaxPktSize == 0
      phase := .dequeue }

/-! ## Completion -/

/-- What USB took of the buffer's transfer. -/
def takenOf (b : Buffer) (transferred : Nat) (status : NtStatus) : List Taken :=
  match b.callingIrp with
  | none => if status = .success then [.zeroLength] else []
  | some irp =>
    if transferred = 0 ∧ status ≠ .success then []
    else [.data ((irp.payload.drop b.offset).take transferred) b.length (status = .success)]

/-- USB completes a transfer, and `USBMWT_WriteCompletionRoutine` runs. -/
def writeCompletionRoutine (s : State) (b transferred : Nat) (status : NtStatus) : State :=
  { s with
    pMwtBuffer := Function.update s.pMwtBuffer b
      { s.pMwtBuffer b with
        state := .completed
        transferBufferLength := transferred
        status := status }
    mWritePendingQueue := s.mWritePendingQueue.erase b
    mWriteCompletionQueue := s.mWriteCompletionQueue ++ [b]
    taken := s.taken ++ takenOf (s.pMwtBuffer b) transferred status }

/-- The error count of `USBMWT_WriteIrpCompletion`: after too many failures the device counts as
removed. -/
def countError (cfg : Cfg) (s : State) (status : NtStatus) : State :=
  if status = .success ∨ status = .cancelled then { s with wtErrorCount := 0 }
  else if s.wtErrorCount + 1 > cfg.numOfRetriesOnError ∧ cfg.continueOnDataError = false then
    { s with
      wtErrorCount := cfg.numOfRetriesOnError
      presentAndStarted := false
      bWriteStopped := true }
  else { s with wtErrorCount := s.wtErrorCount + 1 }

/-- `USBMWT_WriteIrpCompletion`. -/
def writeIrpCompletion (cfg : Cfg) (s : State) (b : Nat) (status : NtStatus) : State :=
  let s := s.countError cfg status
  match (s.pMwtBuffer b).callingIrp with
  | none => s
  | some irp =>
    if s.io.installed irp then
      (s.ioSetCancelRoutine irp false).insertWtCompletionQueue irp status
        (s.information irp + (s.pMwtBuffer b).transferBufferLength)
    else
      -- already cxled
      s

/-- The records behind the loop of `USBMWT_MarkAndCheckReturnedIrp`. -/
def markReturned (records : List SentIrp) (b : Nat) : List SentIrp :=
  records.map fun r => if r.mwtBuf = b then { r with irpReturned := true } else r

/-- All other buffers are back. -/
def allReturned (records : List SentIrp) (b : Nat) : Bool :=
  records.all fun r => r.mwtBuf == b || r.irpReturned

/-- The last record of the buffer, which is the one the loop ends with, is removed. -/
def removeReturned (records : List SentIrp) (b : Nat) : List SentIrp :=
  (records.reverse.eraseP fun r => r.mwtBuf == b).reverse

/-- `USBMWT_MarkAndCheckReturnedIrp`. -/
def markAndCheckReturnedIrp (cfg : Cfg) (s : State) (b : Nat) (removeIrp : Bool)
    (status : NtStatus) : State :=
  let records := markReturned s.mwtSentIrpQueue b
  if (records.any fun r => r.mwtBuf == b) && (removeIrp || status == .success) then
    let s :=
      { s with
        mwtSentIrpQueue := removeReturned records b
        mwtSentIrpRecordPool := s.mwtSentIrpRecordPool + 1 }
    if removeIrp then s else s.writeIrpCompletion cfg b status
  else { s with mwtSentIrpQueue := records }

/-- The zero-length flag by the head of the sent records, when all buffers are back. -/
def zeroLengthByHead (s : State) : Bool :=
  match s.mwtSentIrpQueue with
  | [] => s.bSendZeroLength
  | r :: _ =>
    match r.sentIrp with
    | none => true
    | some irp =>
      if 0 < s.information irp ∧ s.information irp < r.totalLength then false
      else s.bSendZeroLength

/-- The sent records go back to the data queue, from tail to head, and zero-length ones go. -/
def requeue (s : State) : State :=
  { s with
    bSendZeroLength := s.zeroLengthByHead
    writeDataQueue := s.mwtSentIrpQueue.filterMap SentIrp.sentIrp ++ s.writeDataQueue
    mwtSentIrpQueue := []
    mwtSentIrpRecordPool := s.mwtSentIrpRecordPool + s.mwtSentIrpQueue.length }

/-- A failed transfer sets how far its write has come. -/
def partialTransfer (s : State) (b : Nat) : State :=
  let buf := s.pMwtBuffer b
  match buf.callingIrp with
  | none => s
  | some irp =>
    if buf.status ≠ .success ∧ buf.transferBufferLength < buf.length then
      { s with information := Function.update s.information irp buf.transferBufferLength }
    else s

/-- The completed buffer's write under flow off, and otherwise. -/
def returnWrite (cfg : Cfg) (s : State) (b : Nat) : State :=
  let status := if s.presentAndStarted then (s.pMwtBuffer b).status else .cancelled
  if s.mwtState = .flowOff then
    let all := allReturned s.mwtSentIrpQueue b
    let s := s.markAndCheckReturnedIrp cfg b false status
    if all then s.requeue else s
  else (s.markAndCheckReturnedIrp cfg b true status).writeIrpCompletion cfg b status

/-- The completed buffer is idle again. -/
def recycle (s : State) (b : Nat) : State :=
  { s with
    pMwtBuffer := Function.update s.pMwtBuffer b
      { s.pMwtBuffer b with state := .idle, callingIrp := none, length := 0 }
    mWriteCompletionQueue := s.mWriteCompletionQueue.erase b
    mWriteIdleQueue := s.mWriteIdleQueue ++ [b] }

/-- The end of a drain. -/
def endOfDrain (s : State) : State :=
  let s :=
    match s.mwtState with
    | .stopping => { s with stopOwed := false }
    | .cancelling => { s with bCancelled := true, cancelOwed := false }
    -- sets WritePurgeAckEvent
    | _ => s
  { s with mwtState := .working }

/-- The end of the processing of a completed buffer. -/
def afterCompletion (s : State) : State :=
  if s.mwtState = .flowOff then
    { s with mwtState := if s.mwtSentIrpQueue = [] then .working else .flowOff, phase := .loopHead }
  else if s.mwtState ≠ .working then
    -- cancels the first outstanding IRP
    if s.mWritePendingQueue ≠ [] then s.goTo .wait else s.endOfDrain.goTo .loopHead
  else s.goTo .loopHead

/-- The thread processes the completed buffer that it has peeked at. -/
def processCompletion (cfg : Cfg) (s : State) (b : Nat) : State :=
  (((s.partialTransfer b).returnWrite cfg b).recycle b).afterCompletion

/-! ## Control events -/

/-- The events the thread waits for. -/
inductive Event
  | completion
  | cancelCurrent
  | kick
  | cancel
  | purge
  | stop
  | resume (stopped : Bool)
  | flowOn (stopped : Bool)
  | flowOff
deriving DecidableEq

/-- A STOP, PURGE or CANCEL while transfers are pending: the first one is cancelled, and the rest
is left to the drain. -/
def drain (s : State) (mwtState : MwtState) : State := { s with mwtState := mwtState, phase := .wait }

/-- The thread wakes up with an event. -/
def consume (cfg : Cfg) (s : State) : Event → State
  | .completion =>
    match s.mWriteCompletionQueue with
    | [] => s.goTo .loopHead
    | b :: _ => s.goTo (.process b)
  | .cancelCurrent => { s with mWriteCancellingQueue := [] }.goTo .loopHead
  | .kick => s.goTo .loopHead
  | .cancel =>
    let s := { s with bWriteStopped := true, cancelOwed := true }
    if s.mWritePendingQueue ≠ [] then s.drain .cancelling
    else { s with bCancelled := true, cancelOwed := false }.goTo .loopHead
  | .purge =>
    let s := { s with purgeOwed := true }
    if s.mWritePendingQueue ≠ [] then s.drain .purging
    else { s with bPurged := true }.goTo .loopHead
  | .stop =>
    let s := { s with bWriteStopped := true, stopOwed := true }
    if s.mWritePendingQueue ≠ [] then s.drain .stopping
    else { s with stopOwed := false }.goTo .loopHead
  | .resume stopped => { s with bWriteStopped := stopped }.goTo .loopHead
  | .flowOn stopped => { s with bWriteStopped := stopped, bFlowOn := true }.goTo .loopHead
  | .flowOff =>
    let s := { s with bWriteStopped := true, bFlowOn := false }
    if cfg.highSpeed then s.goTo .loopHead
    -- aborts the pipe if transfers are pending
    else { s with mwtState := .flowOff }.goTo .loopHead

/-- At `wait_for_completion` the thread exits if it is cancelled and nothing is active, and waits
otherwise. -/
def waitForCompletion (cfg : Cfg) (s : State) (event : Event) : State :=
  if s.mWritePendingQueue = [] ∧ s.mWriteCompletionQueue = [] ∧ s.bCancelled = true then
    s.goTo .exited
  else s.consume cfg event

end State

/-! ## The machine -/

inductive Op
  | enqueue (irp : Irp)
  | ioCancelIrp (irp : Irp)
  | cancelWriteRoutine (irp : Irp)
  | purgeQueue
  | qcEmptyCompletionQueue
  | usbCompletes (b transferred : Nat) (status : NtStatus)
  | devState (presentAndStarted : Bool)
  /-- The next step of the thread: what the power check answers, and the event it wakes up with. -/
  | thread (wakeup : Bool) (event : State.Event)
deriving DecidableEq

/-- A step of the write thread. -/
def threadStep (cfg : Cfg) (s : State) (wakeup : Bool) (event : State.Event) : Option State :=
  match s.phase with
  | .loopHead => some s.loopHead
  | .dequeue => some (s.dequeue wakeup)
  | .send b irp => some (s.send cfg b irp)
  | .wait => some (s.waitForCompletion cfg event)
  | .process b => some (s.processCompletion cfg b)
  | .exited => none

/-- A buffer is with USB from its `IoCallDriver` on. -/
def State.atUsb (s : State) (b : Nat) : Bool :=
  b ∈ s.mWritePendingQueue && match s.phase with
    | .send c _ => b != c
    | _ => true

/-- A step. A write is submitted once, a cancel routine runs when it was called, and USB completes
what it has, with at most the bytes of the transfer, and all of them if it succeeds. -/
def step (cfg : Cfg) (s : State) : Op → Option State
  | .enqueue irp =>
    if irp ∉ s.submitted ∧ s.presentAndStarted then some (s.enqueue irp) else none
  | .ioCancelIrp irp => some { s with io := s.io.ioCancelIrp irp }
  | .cancelWriteRoutine irp => if irp ∈ s.io.running then some (s.cancelWriteRoutine irp) else none
  | .purgeQueue => some s.purgeQueue
  | .qcEmptyCompletionQueue => some s.qcEmptyCompletionQueue
  | .usbCompletes b transferred status =>
    if s.atUsb b ∧ transferred ≤ (s.pMwtBuffer b).length ∧
        (status = .success → transferred = (s.pMwtBuffer b).length) then
      some (s.writeCompletionRoutine b transferred status)
    else none
  | .devState presentAndStarted => some { s with presentAndStarted := presentAndStarted }
  | .thread wakeup event => threadStep cfg s wakeup event

/-- The steps in any order. -/
def writeThread (cfg : Cfg) : Machine State Op Unit := fun s op =>
  (step cfg s op).map fun s' => (s', ())

theorem step_of_writeThread {cfg : Cfg} {s s' : State} {op : Op} {o : Unit}
    (h : writeThread cfg s op = some (s', o)) : step cfg s op = some s' := by
  obtain ⟨t, ht, heq⟩ := Option.map_eq_some_iff.mp h
  obtain rfl : t = s' := congrArg Prod.fst heq
  exact ht

/-! ## What a step leaves alone -/

namespace State

/-- The queues of the buffers with USB and the control state are the same. -/
structure SameControl (s t : State) : Prop where
  pending : t.mWritePendingQueue = s.mWritePendingQueue
  completion : t.mWriteCompletionQueue = s.mWriteCompletionQueue
  phase : t.phase = s.phase
  mwtState : t.mwtState = s.mwtState
  bCancelled : t.bCancelled = s.bCancelled
  bPurged : t.bPurged = s.bPurged
  stopOwed : t.stopOwed = s.stopOwed
  purgeOwed : t.purgeOwed = s.purgeOwed
  cancelOwed : t.cancelOwed = s.cancelOwed

/-- All that the thread and USB keep is the same, and only writes have moved. -/
structure SameThread (s t : State) : Prop extends SameControl s t where
  idle : t.mWriteIdleQueue = s.mWriteIdleQueue
  pMwtBuffer : t.pMwtBuffer = s.pMwtBuffer
  records : t.mwtSentIrpQueue = s.mwtSentIrpQueue
  pool : t.mwtSentIrpRecordPool = s.mwtSentIrpRecordPool
  bSendZeroLength : t.bSendZeroLength = s.bSendZeroLength
  taken : t.taken = s.taken

variable {s t u : State}

theorem SameControl.refl (s : State) :
    s.SameControl s := ⟨rfl, rfl, rfl, rfl, rfl, rfl, rfl, rfl, rfl⟩

theorem SameControl.trans (h : s.SameControl t) (h' : t.SameControl u) : s.SameControl u where
  pending := h'.pending.trans h.pending
  completion := h'.completion.trans h.completion
  phase := h'.phase.trans h.phase
  mwtState := h'.mwtState.trans h.mwtState
  bCancelled := h'.bCancelled.trans h.bCancelled
  bPurged := h'.bPurged.trans h.bPurged
  stopOwed := h'.stopOwed.trans h.stopOwed
  purgeOwed := h'.purgeOwed.trans h.purgeOwed
  cancelOwed := h'.cancelOwed.trans h.cancelOwed

theorem SameThread.refl (s : State) : s.SameThread s where
  toSameControl := .refl s
  idle := rfl
  pMwtBuffer := rfl
  records := rfl
  pool := rfl
  bSendZeroLength := rfl
  taken := rfl

theorem SameThread.trans (h : s.SameThread t) (h' : t.SameThread u) : s.SameThread u where
  toSameControl := h.toSameControl.trans h'.toSameControl
  idle := h'.idle.trans h.idle
  pMwtBuffer := h'.pMwtBuffer.trans h.pMwtBuffer
  records := h'.records.trans h.records
  pool := h'.pool.trans h.pool
  bSendZeroLength := h'.bSendZeroLength.trans h.bSendZeroLength
  taken := h'.taken.trans h.taken

theorem sameThread_enqueue (s : State) (irp : Irp) : s.SameThread (s.enqueue irp) := by
  simp only [enqueue]
  split <;> exact ⟨⟨rfl, rfl, rfl, rfl, rfl, rfl, rfl, rfl, rfl⟩, rfl, rfl, rfl, rfl, rfl, rfl⟩

theorem sameThread_purgeIrp (s : State) (irp : Irp) : s.SameThread (s.purgeIrp irp) := by
  unfold purgeIrp
  split
  · exact ⟨⟨rfl, rfl, rfl, rfl, rfl, rfl, rfl, rfl, rfl⟩, rfl, rfl, rfl, rfl, rfl, rfl⟩
  · exact .refl s

theorem sameThread_foldl_purgeIrp (irps : List Irp) (s : State) :
    s.SameThread (irps.foldl purgeIrp s) := by
  induction irps generalizing s with
  | nil => exact .refl s
  | cons irp irps ih => exact (sameThread_purgeIrp s irp).trans (ih _)

theorem sameThread_purgeQueue (s : State) : s.SameThread s.purgeQueue := by
  have hempty : s.SameThread { s with writeDataQueue := [] } :=
    ⟨⟨rfl, rfl, rfl, rfl, rfl, rfl, rfl, rfl, rfl⟩, rfl, rfl, rfl, rfl, rfl, rfl⟩
  exact hempty.trans (sameThread_foldl_purgeIrp _ _)

theorem sameThread_qcEmptyCompletionQueue (s : State) :
    s.SameThread s.qcEmptyCompletionQueue := by
  unfold qcEmptyCompletionQueue
  split
  · exact .refl s
  · exact ⟨⟨rfl, rfl, rfl, rfl, rfl, rfl, rfl, rfl, rfl⟩, rfl, rfl, rfl, rfl, rfl, rfl⟩

theorem sameThread_cancelWriteRoutine (s : State) (irp : Irp) :
    s.SameThread (s.cancelWriteRoutine irp) := by
  simp only [cancelWriteRoutine]
  split
  · exact ⟨⟨rfl, rfl, rfl, rfl, rfl, rfl, rfl, rfl, rfl⟩, rfl, rfl, rfl, rfl, rfl, rfl⟩
  · split
    · exact ⟨⟨rfl, rfl, rfl, rfl, rfl, rfl, rfl, rfl, rfl⟩, rfl, rfl, rfl, rfl, rfl, rfl⟩
    · split
      · exact ⟨⟨rfl, rfl, rfl, rfl, rfl, rfl, rfl, rfl, rfl⟩, rfl, rfl, rfl, rfl, rfl, rfl⟩
      · exact ⟨⟨rfl, rfl, rfl, rfl, rfl, rfl, rfl, rfl, rfl⟩, rfl, rfl, rfl, rfl, rfl, rfl⟩

theorem sameThread_ioCancelIrp (s : State) (irp : Irp) :
    s.SameThread { s with io := s.io.ioCancelIrp irp } :=
  ⟨⟨rfl, rfl, rfl, rfl, rfl, rfl, rfl, rfl, rfl⟩, rfl, rfl, rfl, rfl, rfl, rfl⟩

theorem sameThread_devState (s : State) (presentAndStarted : Bool) :
    s.SameThread { s with presentAndStarted := presentAndStarted } :=
  ⟨⟨rfl, rfl, rfl, rfl, rfl, rfl, rfl, rfl, rfl⟩, rfl, rfl, rfl, rfl, rfl, rfl⟩

variable {cfg : Cfg}

variable (cfg) in
theorem sameControl_countError (s : State) (status : NtStatus) :
    s.SameControl (s.countError cfg status) := by
  unfold countError
  split
  · exact ⟨rfl, rfl, rfl, rfl, rfl, rfl, rfl, rfl, rfl⟩
  · split <;> exact ⟨rfl, rfl, rfl, rfl, rfl, rfl, rfl, rfl, rfl⟩

variable (cfg) in
theorem sameControl_writeIrpCompletion (s : State) (b : Nat) (status : NtStatus) :
    s.SameControl (s.writeIrpCompletion cfg b status) := by
  have hcount := s.sameControl_countError cfg status
  simp only [writeIrpCompletion]
  split
  · exact hcount
  · split
    · exact hcount.trans ⟨rfl, rfl, rfl, rfl, rfl, rfl, rfl, rfl, rfl⟩
    · exact hcount

variable (cfg) in
theorem sameControl_markAndCheckReturnedIrp (s : State) (b : Nat) (removeIrp : Bool)
    (status : NtStatus) : s.SameControl (s.markAndCheckReturnedIrp cfg b removeIrp status) := by
  simp only [markAndCheckReturnedIrp]
  split
  · have hremoved : s.SameControl
        { s with
          mwtSentIrpQueue := removeReturned (markReturned s.mwtSentIrpQueue b) b
          mwtSentIrpRecordPool := s.mwtSentIrpRecordPool + 1 } :=
      ⟨rfl, rfl, rfl, rfl, rfl, rfl, rfl, rfl, rfl⟩
    split
    · exact hremoved
    · exact hremoved.trans (sameControl_writeIrpCompletion cfg _ b status)
  · exact ⟨rfl, rfl, rfl, rfl, rfl, rfl, rfl, rfl, rfl⟩

theorem sameControl_partialTransfer (s : State) (b : Nat) :
    s.SameControl (s.partialTransfer b) := by
  simp only [partialTransfer]
  split
  · exact .refl s
  · split
    · exact ⟨rfl, rfl, rfl, rfl, rfl, rfl, rfl, rfl, rfl⟩
    · exact .refl s

variable (cfg) in
theorem sameControl_returnWrite (s : State) (b : Nat) : s.SameControl (s.returnWrite cfg b) := by
  simp only [returnWrite]
  split
  · have hmarked := s.sameControl_markAndCheckReturnedIrp cfg b false
      (if s.presentAndStarted then (s.pMwtBuffer b).status else .cancelled)
    split
    · exact hmarked.trans ⟨rfl, rfl, rfl, rfl, rfl, rfl, rfl, rfl, rfl⟩
    · exact hmarked
  · exact (s.sameControl_markAndCheckReturnedIrp cfg b true _).trans
      (sameControl_writeIrpCompletion cfg _ b _)

end State

/-- A step moves writes only, or it is a completion by USB or a step of the thread. -/
theorem step_cases {cfg : Cfg} {s t : State} {op : Op} (h : step cfg s op = some t) :
    s.SameThread t ∨
    (∃ b transferred status, op = .usbCompletes b transferred status ∧ s.atUsb b ∧
      t = s.writeCompletionRoutine b transferred status) ∨
    ∃ wakeup event, op = .thread wakeup event ∧ threadStep cfg s wakeup event = some t := by
  cases op with
  | enqueue irp =>
    obtain ⟨-, heq⟩ := Option.ite_none_right_eq_some.mp h
    obtain rfl := Option.some.inj heq
    exact .inl (s.sameThread_enqueue irp)
  | ioCancelIrp irp =>
    obtain rfl := Option.some.inj h
    exact .inl (s.sameThread_ioCancelIrp irp)
  | cancelWriteRoutine irp =>
    obtain ⟨-, heq⟩ := Option.ite_none_right_eq_some.mp h
    obtain rfl := Option.some.inj heq
    exact .inl (s.sameThread_cancelWriteRoutine irp)
  | purgeQueue =>
    obtain rfl := Option.some.inj h
    exact .inl s.sameThread_purgeQueue
  | qcEmptyCompletionQueue =>
    obtain rfl := Option.some.inj h
    exact .inl s.sameThread_qcEmptyCompletionQueue
  | usbCompletes b transferred status =>
    obtain ⟨⟨hat, -, -⟩, heq⟩ := Option.ite_none_right_eq_some.mp h
    obtain rfl := Option.some.inj heq
    exact .inr (.inl ⟨b, transferred, status, rfl, hat, rfl⟩)
  | devState presentAndStarted =>
    obtain rfl := Option.some.inj h
    exact .inl (s.sameThread_devState presentAndStarted)
  | thread wakeup event => exact .inr (.inr ⟨wakeup, event, rfl, h⟩)

/-! ## A small device -/

/-- Two buffers on a full-speed device. -/
def twoBuffers : Cfg := ⟨64, false, 2, 3, false⟩

/-- A write of three bytes is sent, and the thread waits. -/
def oneSent : List Op :=
  [.enqueue ⟨0, [1, 2, 3]⟩, .thread false .kick, .thread false .kick, .thread false .kick,
    .thread false .kick]

end Transport.Mwt
