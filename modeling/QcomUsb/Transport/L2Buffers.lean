-- SUMMARY: The level-2 read buffers: how two threads and the completion routine submit, complete, fill and recycle them.
import QcomUsb.Library.Memory
import QcomUsb.Library.RingWindow
import QcomUsb.Library.Transition
import QcomUsb.Transport.QmapRead

/-!
# Level-2 read buffers

`USBMRD_L2MultiReadThread` submits the buffers of a ring to USB, takes those that came back from
`L2CompletionQueue` and marks them completed. The level-1 thread consumes the completed buffers and
makes them ready again. One step is what a thread or the completion routine does up to the next place
where another one may come in.
-/

namespace Transport.L2

open Transition

/-! ## Transfers -/

abbrev NtStatus := UInt32

def statusSuccess : NtStatus := 0
def statusPending : NtStatus := 0x103
def statusCancelled : NtStatus := 0xC0000120

/-- `NT_SUCCESS`. -/
def ntSuccess (status : NtStatus) : Bool := status < 0x80000000

/-- `ETH_HEADER_SIZE`. -/
def ethHeaderSize : Nat := 14

/-- What an IRP and its URB hold: `IoStatus.Status`, `TransferBufferLength` and the buffer. -/
structure Transfer where
  status : NtStatus
  transferBufferLength : Nat
  transferBuffer : Nat → UInt8

/-- The settings of a device. `bundled` says that one of the modes is on in which a transfer holds
several packets. -/
structure Settings where
  numberOfL2Buffers : Nat
  pos : 0 < numberOfL2Buffers
  maxPipeXferSize : Nat
  muxEnabled : Bool
  muxDataDLCI : Nat
  muxInterfaceEnabled : Bool
  interfaceNumber : UInt8
  physicalInterfaceNumber : UInt8
  numOfRetriesOnError : Nat
  bundled : Bool
  ipOnlyMode : Bool
  mtu : Nat

namespace Settings

/-- `USBIF_DecodeMuxFrame` for a data frame: where the payload starts, and `PayloadLength`. -/
def decodeMuxFrame (cfg : Settings) (frame : Nat → UInt8) (length : Nat) : Option Nat × Nat :=
  if frame 0 ≠ 0xF9 then (none, length)
  else
    let dlci := (frame 1 >>> 2).toNat
    if dlci = 0 then (none, 0)
    else if dlci ≠ cfg.muxDataDLCI then (none, 0)
    else
      let short := frame 3 &&& 1 ≠ 0
      let payloadLength :=
        if short then (frame 3 >>> 1).toNat else (frame 4).toNat * 128 + (frame 3 >>> 1).toNat
      if length ≤ payloadLength then (none, 0) else (some (if short then 4 else 5), payloadLength)

/-- What a transfer carries. A mux frame is replaced by its payload, and dropped if it is not one of
this device. -/
def received (cfg : Settings) (t : Transfer) : Transfer :=
  if cfg.muxEnabled && t.status == statusSuccess then
    let (payload, payloadLength) := cfg.decodeMuxFrame t.transferBuffer t.transferBufferLength
    match payload with
    | some p =>
      if payloadLength = 0 then t
      else
        { t with
          transferBufferLength := payloadLength
          transferBuffer :=
            Memory.copyIn t.transferBuffer 0 (Memory.slice t.transferBuffer p payloadLength) }
    | none => if payloadLength = 0 then { t with status := statusCancelled } else t
  else t

/-- The length above which `USBMRD_FillReadRequest` takes a packet for oversized. -/
def frameLimit (cfg : Settings) : Nat := if cfg.ipOnlyMode then cfg.mtu else cfg.mtu + ethHeaderSize

end Settings

/-! ## The state -/

/-- The fields of a `USBMRD_L2BUFFER`. An observer keeps which submission it was last used for. -/
structure L2Buffer where
  status : NtStatus
  length : Nat
  bFilled : Bool
  state : L2BufState
  irp : Transfer
  submission : Nat

/-- A buffer with what its transfer carries. -/
def Settings.filled (cfg : Settings) (b : L2Buffer) : L2Buffer :=
  let t := cfg.received b.irp
  { b with
    status := t.status
    length := t.transferBufferLength
    bFilled := b.bFilled || decide (0 < t.transferBufferLength) || t.status != statusSuccess
    irp := { t with status := b.irp.status } }

/-- The events the level-2 thread waits for. -/
inductive L2Event
  | cancel
  | kick
  | stop
  | resume
  | usbRead
deriving DecidableEq

inductive L2State
  | working
  | stopping
  | cancelling
deriving DecidableEq

/-- Where the level-2 thread is: at the head of the submission loop, inside `IoCallDriver`, in the
wait, in front of the completion queue, with a buffer it took from the queue, or behind the
notification of the level-1 thread. -/
inductive L2Phase
  | top
  | calling
  | waiting
  | dequeue
  | dequeued (i : Nat)
  | clearing (i : Nat)
  | process (i : Nat)
  | finish
  | exited
deriving DecidableEq

/-- The buffer in the hands of the level-2 thread. -/
def L2Phase.hand : L2Phase → Option Nat
  | .dequeued i => some i
  | .clearing i => some i
  | .process i => some i
  | _ => none

/-- Where the level-1 thread is. `fill` keeps the status that `USBMRD_FillReadRequest` read first. -/
inductive L1Phase
  | waiting
  | fill (status : NtStatus)
  | advance
  | awaitStop
  | awaitResume
  | left
deriving DecidableEq

/-- What an observer keeps of a submission: what USB completed it with, and the status and length of
the buffer each time `State` became `L2BUF_STATE_COMPLETED`. -/
structure Submission where
  buffer : Nat
  transfer : Option Transfer
  completions : List (NtStatus × Nat)

/-- The fields of the device extension. `inFlight` are the buffers whose IRP is with USB. An observer
keeps the submissions, and the numbers of those that were consumed. -/
structure State where
  pL2ReadBuffer : Nat → L2Buffer
  l2IrpStartIdx : Nat
  l2IrpEndIdx : Nat
  l2FillIdx : Nat
  l2CompletionQueue : List Nat
  l2PendingQueue : List Nat
  inFlight : List Nat
  signaled : L2Event → Bool
  l2StopAck : Bool
  l2ResumeAck : Bool
  bL1Stopped : Bool
  bL2Stopped : Bool
  bL2ReadActive : Bool
  l2State : L2State
  devBusyCnt : Nat
  devErrCnt : Nat
  l2Phase : L2Phase
  l1Phase : L1Phase
  submissions : List Submission
  consumed : List Nat

namespace State

/-- Behind `USBMRD_ResetL2Buffers`, where the threads start. -/
def start : State where
  pL2ReadBuffer := fun _ =>
    { status := statusPending, length := 0, bFilled := false, state := .ready,
      irp := ⟨statusSuccess, 0, fun _ => 0⟩, submission := 0 }
  l2IrpStartIdx := 0
  l2IrpEndIdx := 0
  l2FillIdx := 0
  l2CompletionQueue := []
  l2PendingQueue := []
  inFlight := []
  signaled := fun _ => false
  l2StopAck := false
  l2ResumeAck := false
  bL1Stopped := false
  bL2Stopped := true
  bL2ReadActive := false
  l2State := .working
  devBusyCnt := 0
  devErrCnt := 0
  l2Phase := .top
  l1Phase := .waiting
  submissions := []
  consumed := []

def setBuffer (s : State) (i : Nat) (b : L2Buffer) : State :=
  { s with pL2ReadBuffer := Function.update s.pL2ReadBuffer i b }

def setSubmission (s : State) (i : Nat) (f : Submission → Submission) : State :=
  { s with submissions := s.submissions.modify (s.pL2ReadBuffer i).submission f }

def keSetEvent (s : State) (e : L2Event) : State :=
  { s with signaled := Function.update s.signaled e true }

def keClearEvent (s : State) (e : L2Event) : State :=
  { s with signaled := Function.update s.signaled e false }

/-- `State = L2BUF_STATE_COMPLETED`. -/
def setCompleted (s : State) (i : Nat) : State :=
  let b := s.pL2ReadBuffer i
  (s.setSubmission i fun r => { r with completions := r.completions ++ [(b.status, b.length)] }).setBuffer
    i { b with state := .completed }

/-! ## The level-2 thread -/

/-- A buffer goes to USB. -/
def submit (cfg : Settings) (s : State) : State :=
  let i := s.l2IrpEndIdx
  let b := s.pL2ReadBuffer i
  { s.setBuffer i
      { b with
        state := .pending
        irp := ⟨statusSuccess, cfg.maxPipeXferSize, b.irp.transferBuffer⟩
        submission := s.submissions.length } with
    l2PendingQueue := s.l2PendingQueue ++ [i]
    inFlight := s.inFlight ++ [i]
    bL2ReadActive := true
    l2Phase := .calling
    submissions := s.submissions ++ [⟨i, none, []⟩] }

/-- The head of the submission loop. -/
def l2Top (cfg : Settings) (s : State) (presentAndStarted bL2Polling : Bool) : State :=
  if (s.pL2ReadBuffer s.l2IrpEndIdx).state = .ready ∧ presentAndStarted ∧ bL2Polling then
    let bL2Stopped := s.bL2Stopped ||
      cfg.muxInterfaceEnabled && cfg.interfaceNumber != cfg.physicalInterfaceNumber
    if bL2Stopped then { s with bL2Stopped := true, l2Phase := .waiting } else s.submit cfg
  else { s with l2Phase := .waiting }

/-- A failure of `IoCallDriver` is counted, and the fourth in a row stops the thread. -/
def countError (s : State) : State :=
  if 3 < s.devErrCnt + 1 then
    { s.keSetEvent .stop with
      devErrCnt := s.devErrCnt + 1
      bL2Stopped := true
      l2State := .stopping }
  else { s with devErrCnt := s.devErrCnt + 1 }

def advanceEndIdx (cfg : Settings) (s : State) : State :=
  { s with
    l2IrpEndIdx := RingWindow.next cfg.numberOfL2Buffers s.l2IrpEndIdx
    l2Phase := .top }

/-- `IoCallDriver` returns. With another status than `STATUS_PENDING` the thread takes the buffer for
completed, though the completion routine of its IRP has run or is to run. -/
def l2Called (cfg : Settings) (s : State) (ntStatus : NtStatus) : State :=
  if ntStatus = statusPending then { s with devErrCnt := 0 }.advanceEndIdx cfg
  else
    let i := s.l2IrpEndIdx
    let marked := (s.setBuffer i { s.pL2ReadBuffer i with status := ntStatus }).setCompleted i
    if ntSuccess ntStatus then { marked with devErrCnt := 0 }.advanceEndIdx cfg
    else marked.countError.advanceEndIdx cfg

/-- The end of the thread. -/
def exit (s : State) : State := { s with l2CompletionQueue := [], l2Phase := .exited }

/-- The wait returns with an event. `IoCancelIrp`, on the first pending IRP, only makes USB complete
it sooner. -/
def l2Wait (s : State) (present powerSuspended : Bool) : L2Event → State
  | .cancel =>
    let s := { s.keClearEvent .cancel with bL2Stopped := true }
    if s.l2PendingQueue.isEmpty then s.exit else { s with l2State := .cancelling }
  | .kick => { s.keClearEvent .kick with l2Phase := .top }
  | .stop =>
    let s := s.keClearEvent .stop
    if s.l2State = .cancelling then s
    else if s.l2PendingQueue.isEmpty then
      { s with bL2Stopped := true, l2StopAck := true, l2Phase := .top }
    else { s with bL2Stopped := true, l2State := .stopping }
  | .resume =>
    { s.keClearEvent .resume with
      bL2Stopped := !present || powerSuspended
      l2ResumeAck := true
      l2Phase := .top }
  | .usbRead => { s with l2Phase := .dequeue }

/-- The head of the completion queue is taken off. -/
def l2Dequeue (s : State) : State :=
  match s.l2CompletionQueue with
  | [] => { s with l2Phase := .top }
  | i :: rest => { s with l2CompletionQueue := rest, l2Phase := .dequeued i }

/-- A failed transfer is counted. One too many stops the thread, which waits for the stop event. -/
def countBusy (cfg : Settings) (s : State) (ntStatus : NtStatus) : State :=
  if ntSuccess ntStatus ∨ ntStatus = statusCancelled then { s with l2Phase := .finish }
  else if cfg.numOfRetriesOnError + 2 ≤ s.devBusyCnt + 1 then
    { s.keSetEvent .stop with devBusyCnt := 0, bL2Stopped := true, l2Phase := .waiting }
  else { s with devBusyCnt := s.devBusyCnt + 1, l2Phase := .finish }

/-- The buffer gets what its transfer carries, and is completed. -/
def l2Process (cfg : Settings) (s : State) (i : Nat) : State :=
  let filled := cfg.filled (s.pL2ReadBuffer i)
  let marked := (s.setBuffer i filled).setCompleted i
  { marked with l2IrpStartIdx := RingWindow.next cfg.numberOfL2Buffers i }.countBusy cfg filled.status

/-- Without its device the thread stops. -/
def checkPresent (s : State) (present : Bool) : State :=
  if present then s else { s.keSetEvent .stop with bL2Stopped := true }

/-- Behind the notification of the level-1 thread: while the thread stops or is cancelled, it goes on
waiting until the last pending IRP is back. -/
def l2Finish (s : State) (present : Bool) : State :=
  let s := { s with bL2ReadActive := !s.l2PendingQueue.isEmpty }
  if s.l2State ≠ .working ∧ !s.l2PendingQueue.isEmpty then { s with l2Phase := .waiting }
  else
    let acked :=
      { s with l2StopAck := s.l2StopAck || s.l2State == L2State.stopping, l2State := .working }
    let checked := acked.checkPresent present
    if s.l2State = .cancelling then checked.exit else { checked with l2Phase := .top }

/-! ## The completion routine -/

/-- `MultiReadCompletionRoutine`, with what USB completes the IRP with. -/
def multiReadCompletionRoutine (s : State) (i : Nat) (t : Transfer) : State :=
  let done := (s.setSubmission i fun r => { r with transfer := some t }).setBuffer i
    { s.pL2ReadBuffer i with irp := t }
  { done.keSetEvent .usbRead with
    inFlight := s.inFlight.erase i
    l2CompletionQueue := s.l2CompletionQueue ++ [i]
    l2PendingQueue := s.l2PendingQueue.erase i }

/-! ## The level-1 thread -/

/-- `USBMRD_RecycleL2FillBuffer`, and the reset in `USBMRD_FillReadRequest`, up to where the buffer
is ready. -/
def recycle (s : State) : State :=
  let b := s.pL2ReadBuffer s.l2FillIdx
  { s.setBuffer s.l2FillIdx
      { b with status := statusPending, length := 0, bFilled := false, state := .ready } with
    consumed := s.consumed ++ [b.submission]
    l1Phase := .advance }

/-- `USBMRD_FillReadRequest`, behind its read of `Status`. `readIrpCompletion` is the result of
`USBRD_ReadIrpCompletion`. While transfers are bundled, `recycled` says whether
`USBMRD_ReadIrpCompletion` was done with the buffer. -/
def fillReadRequest (cfg : Settings) (s : State) (ntStatus readIrpCompletion : NtStatus)
    (recycled present : Bool) : State :=
  let b := s.pL2ReadBuffer s.l2FillIdx
  if b.state ≠ .completed then { s with l1Phase := .waiting }
  else if ntStatus = statusSuccess ∧
      (b.length = 0 ∨ cfg.bundled = false ∧ cfg.frameLimit < b.length) then s.recycle
  else
    let done := if cfg.bundled then recycled else ntSuccess readIrpCompletion || !ntSuccess b.status
    let s := { s with bL1Stopped := s.bL1Stopped || !present }
    if done then s.recycle else { s with l1Phase := .waiting }

/-- The fill index moves on behind the buffer, and the level-2 thread is kicked if it was out of
buffers. -/
def advanceFillIdx (cfg : Settings) (s : State) : State :=
  let kicked := if s.l2FillIdx = s.l2IrpEndIdx then s.keSetEvent .kick else s
  { kicked with
    l2FillIdx := RingWindow.next cfg.numberOfL2Buffers s.l2FillIdx
    l1Phase := .waiting }

end State

/-! ## Steps -/

/-- A step of a thread, of USB, or of another thread that sets an event. The flags are the device
state at that moment. -/
inductive Op
  | keSetEvent (e : L2Event)
  | l2Top (presentAndStarted bL2Polling : Bool)
  | l2Called (ntStatus : NtStatus)
  | l2Wait (e : L2Event) (present powerSuspended : Bool)
  | l2Dequeue
  | l2CheckEmpty
  | l2ClearEvent
  | l2Process
  | l2Finish (present : Bool)
  | usbCompletes (i : Nat) (t : Transfer)
  | l1Fill
  | l1FillReadRequest (readIrpCompletion : NtStatus) (recycled present : Bool)
  | l1Advance
  | l1Stop
  | l1StopAcked
  | l1Resume (bDeviceRemoved : Bool)
  | l1ResumeAcked
  | l1Cancel

/-- A step that is not that thread's turn is disabled. -/
def step (cfg : Settings) (s : State) : Op → Option State
  | .keSetEvent e => if e = .kick ∨ e = .stop ∨ e = .resume then some (s.keSetEvent e) else none
  | .l2Top started polling => if s.l2Phase = .top then some (s.l2Top cfg started polling) else none
  | .l2Called ntStatus => if s.l2Phase = .calling then some (s.l2Called cfg ntStatus) else none
  | .l2Wait e present suspended =>
    if s.l2Phase = .waiting ∧ s.signaled e then some (s.l2Wait present suspended e) else none
  | .l2Dequeue => if s.l2Phase = .dequeue then some s.l2Dequeue else none
  | .l2CheckEmpty =>
    match s.l2Phase with
    | .dequeued i =>
      some { s with l2Phase := if s.l2CompletionQueue.isEmpty then .clearing i else .process i }
    | _ => none
  | .l2ClearEvent =>
    match s.l2Phase with
    | .clearing i => some { s.keClearEvent .usbRead with l2Phase := .process i }
    | _ => none
  | .l2Process =>
    match s.l2Phase with
    | .process i => some (s.l2Process cfg i)
    | _ => none
  | .l2Finish present => if s.l2Phase = .finish then some (s.l2Finish present) else none
  | .usbCompletes i t => if i ∈ s.inFlight then some (s.multiReadCompletionRoutine i t) else none
  | .l1Fill =>
    if s.l1Phase = .waiting ∧ s.bL1Stopped = false then
      some { s with l1Phase := .fill (s.pL2ReadBuffer s.l2FillIdx).status }
    else none
  | .l1FillReadRequest readIrpCompletion recycled present =>
    match s.l1Phase with
    | .fill ntStatus => some (s.fillReadRequest cfg ntStatus readIrpCompletion recycled present)
    | _ => none
  | .l1Advance => if s.l1Phase = .advance then some (s.advanceFillIdx cfg) else none
  | .l1Stop =>
    if s.l1Phase = .waiting then
      some { s.keSetEvent .stop with bL1Stopped := true, l2StopAck := false, l1Phase := .awaitStop }
    else none
  | .l1StopAcked =>
    if s.l1Phase = .awaitStop ∧ s.l2StopAck then
      some { s with l2StopAck := false, l1Phase := .waiting }
    else none
  | .l1Resume bDeviceRemoved =>
    if s.l1Phase = .waiting then
      some
        { s.keSetEvent .resume with
          bL1Stopped := bDeviceRemoved
          l2ResumeAck := false
          l1Phase := .awaitResume }
    else none
  | .l1ResumeAcked =>
    if s.l1Phase = .awaitResume ∧ s.l2ResumeAck then
      some { s with l2ResumeAck := false, l1Phase := .waiting }
    else none
  | .l1Cancel =>
    if s.l1Phase = .waiting then
      some { s.keSetEvent .cancel with bL1Stopped := true, l1Phase := .left }
    else none

/-- The machine of both threads, USB and the threads around them. -/
def reads (cfg : Settings) : Machine State Op Unit :=
  fun s op => (step cfg s op).map fun s' => (s', ())

theorem step_of_reads {cfg : Settings} {s s' : State} {op : Op} {o : Unit}
    (h : reads cfg s op = some (s', o)) : step cfg s op = some s' := by
  obtain ⟨t, ht, heq⟩ := Option.map_eq_some_iff.mp h
  rw [ht, (Prod.mk.inj heq).1]

end Transport.L2
