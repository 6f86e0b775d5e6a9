-- SUMMARY: QMAP flow control commands: the level-1 read thread that takes them from the transfers, and what it does for each.
import QcomUsb.Library.Transition
import QcomUsb.Transport.QmapDemux

/-!
# Flow control commands

The level-1 read thread takes one QMAP frame at a time. It waits for an event before each, unless a
buffer is completed and a read is queued. A command frame needs no read: it pauses or resumes the
uplink of the adapter with its `MuxId`, and is answered with a frame of its own.
-/

namespace Transport.FlowCommands

open Transition

/-! ## `QCQMAP_FLOWCONTROL_STRUCT` -/

structure FlowControl where
  commandName : UInt8
  rsvdCmdType : UInt8
  rsvd : UInt16
  transactionId : UInt32
  flowCtrlSeqNumIp : UInt32
  qosId : UInt32
deriving DecidableEq

def qmapFlowcontrolCommandPause : UInt8 := 1

def qmapFlowcontrolCommandResume : UInt8 := 2

namespace FlowControl

/-- The bit field `CmdType`. -/
def cmdType (c : FlowControl) : UInt8 := c.rsvdCmdType &&& 0x03

/-- A `ULONG` in memory. -/
def ulong (a b c d : UInt8) : UInt32 :=
  a.toUInt32 ||| b.toUInt32 <<< 8 ||| c.toUInt32 <<< 16 ||| d.toUInt32 <<< 24

/-- The structure over a buffer of its size. -/
def ofBuffer : List UInt8 → Option FlowControl
  | [name, type, r, r', t, t', t'', t''', s, s', s'', s''', q, q', q'', q'''] =>
    some
      { commandName := name
        rsvdCmdType := type
        rsvd := r.toUInt16 ||| r'.toUInt16 <<< 8
        transactionId := ulong t t' t'' t'''
        flowCtrlSeqNumIp := ulong s s' s'' s'''
        qosId := ulong q q' q'' q''' }
  | _ => none

/-- Whether the message is a request to pause, or one to resume. -/
def asks (c : FlowControl) : Option Bool :=
  if c.commandName = qmapFlowcontrolCommandPause ∧ c.cmdType = 0 then some true
  else if c.commandName = qmapFlowcontrolCommandResume ∧ c.cmdType = 0 then some false
  else none

end FlowControl

/-! ## The device -/

/-- The rest of the `MuxInterface` of a device. -/
structure MuxInterface where
  muxEnabled : Bool
  interfaceNumber : UInt8

/-- The device that reads from USB, with the `MuxInterface` of each device. -/
structure ReadDev extends DevExt where
  muxInterface : Nat → MuxInterface

namespace ReadDev

/-- The adapter of a device. -/
def adapter (dev : ReadDev) (device : Nat) : MuxAdapter :=
  dev.adapterList.getD device ⟨0, dev.physicalInterfaceNumber, dev.filterDeviceObj⟩

/-- The device that gets the frames with a mux id. -/
def target (dev : ReadDev) (muxId : UInt8) : Option Nat :=
  if dev.muxEnabled then dev.deviceOf muxId else some dev.self

/-- The devices whose queues are looked at before the thread waits: those that
`IsEmptyAllReadQueue` compares, or the own one. -/
def polled (dev : ReadDev) : List Nat :=
  if dev.muxEnabled then
    (List.range dev.adapterList.length).filter fun device =>
      (dev.muxInterface device).muxEnabled &&
        (dev.adapter device).physicalInterfaceNumber ==
          (dev.muxInterface dev.self).interfaceNumber &&
        (dev.adapter device).filterDeviceObj == dev.filterDeviceObj
  else [dev.self]

/-- `FindStackDeviceObject`. -/
def findStackDeviceObject (dev : ReadDev) (device : Nat) : Option Nat :=
  let mux := dev.muxInterface device
  let adapter := dev.adapter device
  if mux.muxEnabled = false ∨ mux.interfaceNumber = adapter.physicalInterfaceNumber then some device
  else
    (List.range dev.adapterList.length).find? fun other =>
      adapter.physicalInterfaceNumber == (dev.muxInterface other).interfaceNumber &&
        adapter.filterDeviceObj == (dev.adapter other).filterDeviceObj

/-- `padBytes`, a `UCHAR`. -/
def padBytes (dev : ReadDev) (f : Frame) : Nat :=
  ((f.padCD &&& 0x3f).toNat + dev.qmapDLMinPadding) % 256

/-- The message of a command frame. -/
def message (dev : ReadDev) (f : Frame) : List UInt8 := f.body.take (f.body.length - dev.padBytes f)

/-- The pause or resume request in a frame, with the adapter it is addressed to. -/
def request (dev : ReadDev) (f : Frame) : Option (Nat × FlowControl) :=
  if f.isCommand then
    match dev.target f.muxId, FlowControl.ofBuffer (dev.message f) with
    | some device, some c => if c.asks.isSome then some (device, c) else none
    | _, _ => none
  else none

def requests (dev : ReadDev) (frames : List Frame) : List (Nat × FlowControl) :=
  frames.filterMap dev.request

end ReadDev

/-! ## The state -/

/-- A completed level-2 buffer, with its unread frames. -/
structure L2Transfer where
  success : Bool
  length : Nat
  frames : List Frame

/-- What the level-1 thread waits for. -/
inductive L1Event
  | cancel
  | kick
  | completion
  | purge
  | stop
  | resume
deriving DecidableEq

def pL1ReadEvents : List L1Event := [.cancel, .kick, .completion, .purge, .stop, .resume]

/-- Where the level-1 thread is: before it looks whether it has to wait, at the wait, or about to
take a frame. -/
inductive Phase
  | check
  | wait
  | fill
  | exited
deriving DecidableEq

/-- A flow control frame on its way to the device: the adapter that sends it, with its mux id, and
the device whose write path it is given to. -/
structure SentFrame where
  adapter : Nat
  muxId : UInt8
  usbDo : Nat
  flowControl : FlowControl

/-- `transfers` are the completed buffers from `L2FillIdx` on, and `dataPtrInside` says that
`DataPtr` of the buffer at `L2FillIdx` points into it. Observers keep the frames of the transfers,
the calls of `MPMAIN_QMAPFlowControlCall` and the frames that were sent. -/
structure State where
  transfers : List L2Transfer
  dataPtrInside : Bool
  tlpBufferState : TlpBufferState
  readDataQueue : Nat → List ReadIrp
  events : L1Event → Bool
  bL1Stopped : Bool
  phase : Phase
  qmapFlowControl : Nat → Bool
  qmuxTransactionId : Nat → UInt16
  received : List Frame
  calls : List (Nat × Bool)
  sent : List SentFrame

def initial : State :=
  { transfers := []
    dataPtrInside := true
    tlpBufferState := .idle
    readDataQueue := fun _ => []
    events := fun _ => false
    bL1Stopped := false
    phase := .check
    qmapFlowControl := fun _ => false
    qmuxTransactionId := fun _ => 0
    received := []
    calls := []
    sent := [] }

/-- What a step meets with: whether the memory for a reply is allocated, whether the device is still
present, and whether it was removed. -/
structure Answers where
  allocated : Bool
  present : Bool
  removed : Bool

namespace State

def keSetEvent (s : State) (e : L1Event) : State := { s with events := Function.update s.events e true }

def keClearEvent (s : State) (e : L1Event) : State :=
  { s with events := Function.update s.events e false }

/-! ## Commands -/

/-- `MPMAIN_QMAPFlowControlCall`, as far as the flag of the adapter. -/
def qmapFlowControlCall (s : State) (device : Nat) (flowControlled : Bool) : State :=
  { s with
    qmapFlowControl := Function.update s.qmapFlowControl device flowControlled
    calls := s.calls ++ [(device, flowControlled)] }

/-- The next value of the counter that `GetQMUXTransactionId` increments, past zero. -/
def getQMUXTransactionId (s : State) (device : Nat) : UInt16 :=
  if s.qmuxTransactionId device + 1 = 0 then 1 else s.qmuxTransactionId device + 1

/-- `RtlUlongByteSwap`. -/
def ulongByteSwap (w : UInt32) : UInt32 :=
  (w >>> 24) ||| ((w >>> 8) &&& (0xff00 : UInt32)) ||| ((w <<< 8) &&& (0xff0000 : UInt32)) |||
    (w <<< 24)

/-- The frame is given to the write path of the physical device. -/
def send (dev : ReadDev) (s : State) (device : Nat) (flowControl : FlowControl) : State :=
  match dev.findStackDeviceObject device with
  | some usbDo =>
    { s with sent := s.sent ++ [⟨device, (dev.adapter device).muxId, usbDo, flowControl⟩] }
  | none => s

/-- `USBIF_QMAPSendFlowControlCommand`. -/
def qmapSendFlowControlCommand (dev : ReadDev) (s : State) (device : Nat) (transactionId : UInt32)
    (qmapCommand : UInt8) (input : FlowControl) (allocated : Bool) : State :=
  if allocated = false then s
  else if transactionId ≠ 0 then
    s.send dev device
      { commandName := qmapCommand
        rsvdCmdType := 0x01
        rsvd := 0
        transactionId := transactionId
        flowCtrlSeqNumIp := input.flowCtrlSeqNumIp
        qosId := 0xffffffff }
  else
    -- a command of its own
    let tid := s.getQMUXTransactionId device
    { s with qmuxTransactionId := Function.update s.qmuxTransactionId device tid }.send dev device
      { commandName := qmapCommand
        rsvdCmdType := 0x00
        rsvd := 0
        transactionId := ulongByteSwap tid.toUInt32
        flowCtrlSeqNumIp := 0
        qosId := 0xffffffff }

/-- `USBIF_QMAPProcessControlMessage`. -/
def qmapProcessControlMessage (dev : ReadDev) (s : State) (device : Nat) (buffer : List UInt8)
    (allocated : Bool) : State :=
  match FlowControl.ofBuffer buffer with
  | none => s
  | some c =>
    if c.commandName = qmapFlowcontrolCommandPause ∧ c.cmdType = 0 then
      (s.qmapFlowControlCall device true).qmapSendFlowControlCommand dev device c.transactionId
        c.commandName c allocated
    else if c.commandName = qmapFlowcontrolCommandResume ∧ c.cmdType = 0 then
      (s.qmapSendFlowControlCommand dev device c.transactionId c.commandName c
        allocated).qmapFlowControlCall device false
    else s

/-! ## Frames -/

/-- `USBMRD_RecycleL2FillBuffer` for the buffer at `L2FillIdx`. -/
def recycleL2FillBuffer (s : State) : State :=
  { s with transfers := s.transfers.tail, dataPtrInside := true }

/-- On to the next frame of the buffer. Only the end of a data frame sets the event. -/
def advance (s : State) (setsEvent : Bool) : State :=
  match s.transfers with
  | t :: rest =>
    match t.frames with
    | _ :: g :: frames =>
      let s := if setsEvent then s.keSetEvent .completion else s
      { s with transfers := { t with frames := g :: frames } :: rest }
    | _ => s.recycleL2FillBuffer
  | [] => s

/-- The read at the head of a queue is completed. -/
def completeIrp (s : State) (device : Nat) : State :=
  { s with
    readDataQueue := Function.update s.readDataQueue device (s.readDataQueue device).tail }

end State

/-- The branches of `USBMRD_ReadIrpCompletion` in the QMAP modes. -/
inductive Branch
  /-- The transfer has failed. -/
  | failed
  /-- The transfer belongs to a bundle that is dropped, perhaps as its end. -/
  | badBundle (isEnd : Bool)
  /-- `DataPtr` is not in the buffer. -/
  | wild
  /-- "invalid data - end of buf" -/
  | endOfBuf
  /-- "FRAME DROPPED" -/
  | frameDropped
  /-- A command without an adapter: the buffer is dropped, and the command is processed. -/
  | strayCommand (f : Frame)
  | command (device : Nat) (f : Frame)
  /-- The frame waits for a read. -/
  | waits
  | filled (device : Nat)
  /-- The packet is too big for any read, and skipped. -/
  | skipped
  /-- The packet is too big for any read, and the bundle is dropped from here on. -/
  | bundleError
  /-- The read is too small for the packet, which waits for another. -/
  | bufferTooSmall (device : Nat)

namespace State

/-- The branch for a frame with the frames `rest` behind it. -/
def frameBranch (dev : ReadDev) (s : State) (t : L2Transfer) (f : Frame) (rest : List Frame) :
    Branch :=
  let pktLen := f.body.length
  if ((f :: rest).flatMap (·.bytes dev.mode)).length ≤ 4 + dev.mode.trailer then .endOfBuf
  else
    match dev.target f.muxId with
    | none =>
      if f.isCommand ∧ dev.padBytes f ≤ pktLen then .strayCommand f else .frameDropped
    | some device =>
      if f.isCommand then if dev.padBytes f ≤ pktLen then .command device f else .endOfBuf
      else
        match s.readDataQueue device with
        | [] => if dev.padBytes f ≤ pktLen then .waits else .frameDropped
        | irp :: _ =>
          if pktLen < dev.padBytes f then .endOfBuf
          else if pktLen ≤ irp.length.toNat then .filled device
          else if pktLen ≥ ethMaxPacketSize then
            if t.length = dev.maxPipeXferSize then .bundleError else .skipped
          else .bufferTooSmall device

def branch (dev : ReadDev) (s : State) (t : L2Transfer) : Branch :=
  if t.success = false then .failed
  else
    match s.tlpBufferState with
    | .error => .badBundle (t.length < dev.maxPipeXferSize)
    | .idle =>
      if s.dataPtrInside = false then .wild
      else
        match t.frames with
        | [] => .endOfBuf
        | f :: rest => s.frameBranch dev t f rest

/-- `USBMRD_ReadIrpCompletion`. It goes wrong if `DataPtr` is not in the buffer. -/
def readIrpCompletion (dev : ReadDev) (s : State) (t : L2Transfer) (allocated : Bool) :
    Option State :=
  match s.branch dev t with
  | .failed => some (s.recycleL2FillBuffer.completeIrp dev.self)
  | .badBundle isEnd =>
    some { s with tlpBufferState := if isEnd then .idle else .error }.recycleL2FillBuffer
  | .wild => none
  | .endOfBuf | .frameDropped => some s.recycleL2FillBuffer
  | .strayCommand f =>
    -- DataPtr of what is now the buffer at L2FillIdx is set to the next frame of the old one
    some
      { s.recycleL2FillBuffer.qmapProcessControlMessage dev dev.self (dev.message f) allocated with
        dataPtrInside := decide (t.frames.length = 1) }
  | .command device f =>
    some ((s.qmapProcessControlMessage dev device (dev.message f) allocated).advance false)
  | .waits => some s
  | .filled device => some ((s.completeIrp device).advance true)
  | .skipped => some (s.advance true)
  | .bundleError => some { s with tlpBufferState := .error }.recycleL2FillBuffer
  | .bufferTooSmall device => some (s.completeIrp device)

/-- `USBMRD_FillReadRequest`. -/
def fillReadRequest (dev : ReadDev) (s : State) (answers : Answers) : Option State :=
  match s.transfers with
  | [] => some s
  | t :: _ =>
    if t.success ∧ t.length = 0 then some s.recycleL2FillBuffer
    else
      (s.readIrpCompletion dev t answers.allocated).map fun s =>
        { s with bL1Stopped := s.bL1Stopped || !answers.present }

/-! ## The thread -/

/-- No read is queued, as `IsEmptyAllReadQueue` sees it. -/
def NoReads (dev : ReadDev) (s : State) : Prop := ∀ device ∈ dev.polled, s.readDataQueue device = []

instance (dev : ReadDev) (s : State) : Decidable (s.NoReads dev) :=
  inferInstanceAs (Decidable (∀ device ∈ dev.polled, s.readDataQueue device = []))

/-- A completed buffer is handled at once while there are reads. -/
def check (dev : ReadDev) (s : State) : State :=
  if s.transfers ≠ [] ∧ s.bL1Stopped = false ∧ ¬ s.NoReads dev then
    { s.keClearEvent .completion with phase := .fill }
  else { s with phase := .wait }

/-- The thread wakes up for an event. -/
def wake (dev : ReadDev) (s : State) (answers : Answers) (e : L1Event) : State :=
  let s := s.keClearEvent e
  match e with
  | .cancel => { s with bL1Stopped := true, phase := .exited }
  | .kick | .completion => { s with phase := if s.bL1Stopped then .check else .fill }
  | .purge =>
    { s with readDataQueue := Function.update s.readDataQueue dev.self [], phase := .check }
  | .stop => { s with bL1Stopped := true, phase := .check }
  | .resume => { s with bL1Stopped := answers.removed, phase := .check }

def threadStep (dev : ReadDev) (s : State) (e : L1Event) (answers : Answers) : Option State :=
  match s.phase with
  | .check => some (s.check dev)
  | .wait => if s.events e = true then some (s.wake dev answers e) else none
  | .fill => (s.fillReadRequest dev answers).map fun s => { s with phase := .check }
  | .exited => none

/-- `USBRD_Enqueue`. A device has an event of its own for the reads that are queued on it. -/
def enqueue (dev : ReadDev) (s : State) (device : Nat) (irp : ReadIrp) : State :=
  let t := if device = dev.self ∧ s.readDataQueue device = [] then s.keSetEvent .kick else s
  { t with
    readDataQueue := Function.update s.readDataQueue device (s.readDataQueue device ++ [irp]) }

/-- The level-2 thread completes a buffer. -/
def complete (dev : ReadDev) (s : State) (success : Bool) (frames : List Frame) : State :=
  let frames := if success then frames else []
  { s.keSetEvent .completion with
    transfers := s.transfers ++ [⟨success, (frames.flatMap (·.bytes dev.mode)).length, frames⟩]
    received := s.received ++ frames }

end State

inductive Op
  | complete (success : Bool) (frames : List Frame)
  | enqueue (device : Nat) (irp : ReadIrp)
  /-- A read leaves its queue, cancelled or purged. -/
  | remove (device : Nat) (irp : ReadIrp)
  /-- Another thread asks the level-1 thread to stop, to resume, to purge or to exit. -/
  | keSetEvent (e : L1Event)
  | thread (e : L1Event) (answers : Answers)

def State.step (dev : ReadDev) (s : State) : Op → Option State
  | .complete success frames => some (s.complete dev success frames)
  | .enqueue device irp => some (s.enqueue dev device irp)
  | .remove device irp =>
    some
      { s with
        readDataQueue :=
          Function.update s.readDataQueue device ((s.readDataQueue device).erase irp) }
  | .keSetEvent e => if e = .kick ∨ e = .completion then none else some (s.keSetEvent e)
  | .thread e answers => s.threadStep dev e answers

/-- The level-1 read thread among the threads that give it transfers and reads. -/
def l1MultiReadThread (dev : ReadDev) : Machine State Op Unit := fun s op =>
  (s.step dev op).map fun s' => (s', ())

/-! ## What the commands are to do -/

/-- The next unread frame, of the first of the buffers. -/
def nextFrame (transfers : List L2Transfer) : Option Frame :=
  transfers.head?.bind (·.frames.head?)

namespace State

/-- The next unread frame of the buffer at `L2FillIdx` is a command. -/
def CommandNext (s : State) : Prop := (nextFrame s.transfers).any Frame.isCommand = true

instance (s : State) : Decidable s.CommandNext :=
  inferInstanceAs (Decidable ((nextFrame s.transfers).any Frame.isCommand = true))

/-- An event of the thread is set. -/
def Signalled (s : State) : Prop := ∃ e ∈ pL1ReadEvents, s.events e = true

instance (s : State) : Decidable s.Signalled :=
  inferInstanceAs (Decidable (∃ e ∈ pL1ReadEvents, s.events e = true))

/-- The flag of an adapter is that of the last call for it. -/
def lastCall (s : State) (device : Nat) : Bool :=
  ((s.calls.filter (·.1 = device)).getLast?.map Prod.snd).getD false

end State

/-- The call that obeys a request. -/
def callFor (r : Nat × FlowControl) : Nat × Bool := (r.1, r.2.asks = some true)

/-- Who answers a request, and with which `CommandName`, `CmdType` and `TransactionId`. -/
def answerTo (r : Nat × FlowControl) : Nat × UInt8 × UInt8 × UInt32 :=
  (r.1, r.2.commandName, 1, r.2.transactionId)

def SentFrame.answer (a : SentFrame) : Nat × UInt8 × UInt8 × UInt32 :=
  (a.adapter, a.flowControl.commandName, a.flowControl.cmdType, a.flowControl.transactionId)

/-- The requests that were received are obeyed and answered in order, each once, all of them when
all transfers are read, and no adapter is paused or resumed otherwise. The thread does not wait with
a command before it while no event is set. -/
structure State.Obeys (dev : ReadDev) (s : State) : Prop where
  calls : s.calls = ((dev.requests s.received).take s.calls.length).map callFor
  sent : s.sent.map SentFrame.answer =
    ((dev.requests s.received).take s.calls.length).map answerTo
  flags : ∀ device, s.qmapFlowControl device = s.lastCall device
  whole : s.transfers = [] → s.calls.length = (dev.requests s.received).length
  awake : s.phase = .wait → s.CommandNext → s.Signalled

/-! ## The condition -/

namespace Branch

/-- A buffer is dropped only without a request in it. A command without an adapter is no request,
and the last frame of its buffer. The transaction id of a request is not zero, and its answer can be
sent. -/
def KeepsRequests (dev : ReadDev) (t : L2Transfer) (allocated : Bool) : Branch → Prop
  | .failed | .badBundle _ | .endOfBuf | .frameDropped | .bundleError =>
    dev.requests t.frames = []
  | .strayCommand f =>
    (FlowControl.ofBuffer (dev.message f)).bind FlowControl.asks = none ∧ t.frames.length = 1
  | .command _ f => ∀ r ∈ dev.request f,
      r.2.transactionId ≠ 0 ∧ allocated = true ∧ (dev.findStackDeviceObject r.1).isSome = true
  | .wild | .waits | .filled _ | .skipped | .bufferTooSmall _ => True

instance (dev : ReadDev) (t : L2Transfer) (allocated : Bool) :
    (b : Branch) → Decidable (b.KeepsRequests dev t allocated)
  | .failed | .badBundle _ | .endOfBuf | .frameDropped | .bundleError =>
    inferInstanceAs (Decidable (dev.requests t.frames = []))
  | .strayCommand f =>
    inferInstanceAs (Decidable
      ((FlowControl.ofBuffer (dev.message f)).bind FlowControl.asks = none ∧ t.frames.length = 1))
  | .command _ f =>
    inferInstanceAs (Decidable (∀ r ∈ dev.request f,
      r.2.transactionId ≠ 0 ∧ allocated = true ∧ (dev.findStackDeviceObject r.1).isSome = true))
  | .wild | .waits | .filled _ | .skipped | .bufferTooSmall _ => .isTrue trivial

/-- The frame that is next after a branch that does not set the event. -/
def silentlyNext (t : L2Transfer) (rest : List L2Transfer) : Branch → Option Frame
  | .waits | .bufferTooSmall _ | .wild => none
  | .filled _ | .skipped =>
    if t.frames.length ≤ 1 then nextFrame rest else none
  | .command .. =>
    if t.frames.length ≤ 1 then nextFrame rest else t.frames[1]?
  | .failed | .badBundle _ | .endOfBuf | .frameDropped | .strayCommand _ | .bundleError =>
    nextFrame rest

/-- The reads of a device that a branch leaves. -/
def readsLeft (dev : ReadDev) (s : State) (device : Nat) : Branch → List ReadIrp
  | .filled d | .bufferTooSmall d =>
    if device = d then (s.readDataQueue device).tail else s.readDataQueue device
  | .failed => if device = dev.self then (s.readDataQueue device).tail else s.readDataQueue device
  | _ => s.readDataQueue device

end Branch

namespace State

/-- A command that is next without the event is announced by another event, or there are reads for
which the thread goes on. -/
def FillGuarded (dev : ReadDev) (s : State) (answers : Answers) : Prop :=
  ∀ t ∈ s.transfers.head?,
    if t.success ∧ t.length = 0 then
      dev.requests t.frames = [] ∧
        ((nextFrame s.transfers.tail).any Frame.isCommand = true → s.Signalled ∨ ¬ s.NoReads dev)
    else
      (s.branch dev t).KeepsRequests dev t answers.allocated ∧
        (((s.branch dev t).silentlyNext t s.transfers.tail).any Frame.isCommand = true →
          s.Signalled ∨ answers.present = true ∧
            ∃ device ∈ dev.polled, (s.branch dev t).readsLeft dev s device ≠ [])

instance (dev : ReadDev) (s : State) (answers : Answers) : Decidable (s.FillGuarded dev answers) :=
  inferInstanceAs (Decidable (∀ t ∈ s.transfers.head?,
    if t.success ∧ t.length = 0 then
      dev.requests t.frames = [] ∧
        ((nextFrame s.transfers.tail).any Frame.isCommand = true → s.Signalled ∨ ¬ s.NoReads dev)
    else
      (s.branch dev t).KeepsRequests dev t answers.allocated ∧
        (((s.branch dev t).silentlyNext t s.transfers.tail).any Frame.isCommand = true →
          s.Signalled ∨ answers.present = true ∧
            ∃ device ∈ dev.polled, (s.branch dev t).readsLeft dev s device ≠ [])))

/-- An event but for this one is set. -/
def SignalledBut (s : State) (e : L1Event) : Prop :=
  ∃ e' ∈ pL1ReadEvents, e' ≠ e ∧ s.events e' = true

instance (s : State) (e : L1Event) : Decidable (s.SignalledBut e) :=
  inferInstanceAs (Decidable (∃ e' ∈ pL1ReadEvents, e' ≠ e ∧ s.events e' = true))

/-- The event that announces a command is not taken for something else. -/
def WakeGuarded (dev : ReadDev) (s : State) (answers : Answers) : L1Event → Prop
  | .cancel => True
  | .kick => s.bL1Stopped = true → s.CommandNext → s.SignalledBut .kick
  | .completion => s.bL1Stopped = true → s.CommandNext → s.SignalledBut .completion
  | .stop => s.CommandNext → s.SignalledBut .stop
  | .purge => s.CommandNext → s.SignalledBut .purge ∨ s.bL1Stopped = false ∧
      ∃ device ∈ dev.polled, device ≠ dev.self ∧ s.readDataQueue device ≠ []
  | .resume => s.CommandNext →
      s.SignalledBut .resume ∨ answers.removed = false ∧ ¬ s.NoReads dev

instance (dev : ReadDev) (s : State) (answers : Answers) :
    (e : L1Event) → Decidable (s.WakeGuarded dev answers e)
  | .cancel => .isTrue trivial
  | .kick =>
    inferInstanceAs (Decidable (s.bL1Stopped = true → s.CommandNext → s.SignalledBut .kick))
  | .completion =>
    inferInstanceAs (Decidable (s.bL1Stopped = true → s.CommandNext → s.SignalledBut .completion))
  | .stop => inferInstanceAs (Decidable (s.CommandNext → s.SignalledBut .stop))
  | .purge =>
    inferInstanceAs (Decidable (s.CommandNext → s.SignalledBut .purge ∨ s.bL1Stopped = false ∧
      ∃ device ∈ dev.polled, device ≠ dev.self ∧ s.readDataQueue device ≠ []))
  | .resume =>
    inferInstanceAs (Decidable (s.CommandNext →
      s.SignalledBut .resume ∨ answers.removed = false ∧ ¬ s.NoReads dev))

/-- A read leaves its queue only if a command that is next stays announced. -/
def RemoveGuarded (dev : ReadDev) (s : State) (device : Nat) (irp : ReadIrp) : Prop :=
  s.phase = .check → s.CommandNext →
    s.Signalled ∨ s.bL1Stopped = false ∧ ∃ other ∈ dev.polled,
      (if other = device then (s.readDataQueue other).erase irp else s.readDataQueue other) ≠ []

instance (dev : ReadDev) (s : State) (device : Nat) (irp : ReadIrp) :
    Decidable (s.RemoveGuarded dev device irp) :=
  inferInstanceAs (Decidable (s.phase = .check → s.CommandNext →
    s.Signalled ∨ s.bL1Stopped = false ∧ ∃ other ∈ dev.polled,
      (if other = device then (s.readDataQueue other).erase irp else s.readDataQueue other) ≠ []))

/-- The condition on the steps. -/
def Guarded (dev : ReadDev) (s : State) : Op → Prop
  | .complete .. | .enqueue .. | .keSetEvent _ => True
  | .remove device irp => s.RemoveGuarded dev device irp
  | .thread e answers =>
    (s.phase = .fill → s.FillGuarded dev answers) ∧ (s.phase = .wait → s.WakeGuarded dev answers e)

instance (dev : ReadDev) (s : State) : (op : Op) → Decidable (s.Guarded dev op)
  | .complete .. | .enqueue .. | .keSetEvent _ => .isTrue trivial
  | .remove device irp => inferInstanceAs (Decidable (s.RemoveGuarded dev device irp))
  | .thread e answers =>
    inferInstanceAs (Decidable ((s.phase = .fill → s.FillGuarded dev answers) ∧
      (s.phase = .wait → s.WakeGuarded dev answers e)))

end State

end Transport.FlowCommands
