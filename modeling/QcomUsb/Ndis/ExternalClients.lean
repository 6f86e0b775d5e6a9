-- SUMMARY: QMI messages for external clients: the device list, the walk over it, and the two queues in which messages and reads meet.
import QcomUsb.Library.CancelRoutine
import QcomUsb.Library.ListWalk
import QcomUsb.Library.Places
import QcomUsb.Library.Transition

/-!
# External QMI clients

`MPQMI_SendQMUXToExternalClient` looks for the client of a message on `MP_DeviceList`, or for all
clients of a broadcast indication one after the other. Under the client's `IoLock` the message goes
to a waiting read, or to `ReadDataQueue`. `MPIOC_Read` takes a message from there, or waits on
`ReadIrpQueue` with a cancel routine. One step is what is done under one hold of a lock. A read
holds `IoLock` over two steps, since it may be cancelled in between.
-/

namespace Ndis.Ioc

open CancelRoutine ListWalk Transition

/-! ## Devices -/

/-- `QMUX_BROADCAST_CID`. -/
def broadcastCid : UInt8 := 0xFF

/-- `MuxInterface` of an adapter's USB device. -/
structure MuxInterface where
  muxEnabled : UInt8
  interfaceNumber : Nat
  physicalInterfaceNumber : Nat
  filterDeviceObj : Nat
  deriving DecidableEq

/-- An `MPIOC_DEV_INFO`. -/
structure DevInfo where
  adapter : Nat
  isControl : Bool
  qmiType : UInt8
  clientId : UInt8
  clientIdV6 : UInt8
  deriving DecidableEq

def DevInfo.hasId (dev : DevInfo) (id : UInt8) : Bool := dev.clientId == id || dev.clientIdV6 == id

/-- The adapters whose clients get the messages of adapter `a`. -/
def reaches (muxInterface : Nat → MuxInterface) (a b : Nat) : Bool :=
  if (muxInterface a).muxEnabled ≠ 1 then b == a
  else
    (muxInterface b).physicalInterfaceNumber == (muxInterface a).physicalInterfaceNumber &&
      (muxInterface b).filterDeviceObj == (muxInterface a).filterDeviceObj

/-- `MP_DeviceList` and the adapters. The filter enables the multiplexing of a physical interface
for all of its adapters, and client ids are unique for each service and physical device. -/
structure Devices where
  muxInterface : Nat → MuxInterface
  deviceList : List Nat
  dev : Nat → DevInfo
  nodup : deviceList.Nodup
  consistent : ∀ a b, reaches muxInterface a b = true →
    (muxInterface b).muxEnabled = (muxInterface a).muxEnabled
  notBroadcast : ∀ c ∈ deviceList, (dev c).hasId broadcastCid = false
  unique : ∀ c ∈ deviceList, ∀ c' ∈ deviceList, (dev c').qmiType = (dev c).qmiType →
    reaches muxInterface (dev c).adapter (dev c').adapter = true →
    ∀ id ≠ 0, (dev c).hasId id = true → (dev c').hasId id = true → c = c'

/-! ## Messages and reads -/

/-- A QMI message with what follows its `QCQMI_HDR`. -/
structure Msg where
  qmiType : UInt8
  clientId : UInt8
  qmux : List UInt8
  deriving DecidableEq

/-- `QMUX_CTL_FLAG_TYPE_IND`. -/
def Msg.isInd (msg : Msg) : Bool := msg.qmux.headD 0 &&& 0x06 == 0x04

def Msg.isBroadcast (msg : Msg) : Bool := msg.clientId == broadcastCid

/-- `QCQMUX_HDR_SIZE`. -/
def qcqmuxHdrSize : Nat := 3

/-- A message, with the thread and the adapter it arrived at. -/
structure Item where
  thread : Nat
  adapter : Nat
  msg : Msg
  deriving DecidableEq

/-- A read of a client, with the length of its buffer. -/
structure Irp where
  id : Nat
  dev : Nat
  length : Nat
  deriving DecidableEq

inductive NtStatus
  | pending
  | success
  | bufferTooSmall
  | cancelled
  | unsuccessful
  deriving DecidableEq

/-- The first match of `MPIOC_FindIoDevice`. -/
def DevInfo.isFirst (dev : DevInfo) (muxInterface : Nat → MuxInterface) (adapter : Nat)
    (msg : Msg) : Bool :=
  dev.qmiType == msg.qmiType && reaches muxInterface adapter dev.adapter &&
    (dev.hasId msg.clientId || msg.isBroadcast && dev.clientId != 0)

namespace Devices

def isFirst (d : Devices) (adapter : Nat) (msg : Msg) (c : Nat) : Bool :=
  (d.dev c).isFirst d.muxInterface adapter msg

/-- A match behind the first. -/
def isNext (d : Devices) (adapter : Nat) (msg : Msg) (c : Nat) : Bool :=
  (d.dev c).clientId != 0 && (d.dev c).qmiType == msg.qmiType &&
    reaches d.muxInterface adapter (d.dev c).adapter

/-- `MPIOC_FindIoDevice` for a message. -/
def findIoDevice (d : Devices) (adapter : Nat) (msg : Msg) : Option Nat → Option Nat
  | none => d.deviceList.find? (d.isFirst adapter msg)
  | some iocDevice => findBehind iocDevice (d.isNext adapter msg) false d.deviceList

/-- The message is for the client: it has its id, or it is a broadcast indication of its service on
its physical device. No client has the id 0, which stands for no id. -/
def addressed (d : Devices) (c : Nat) (item : Item) : Bool :=
  item.msg.qmux.length ≥ qcqmuxHdrSize && (d.dev c).qmiType == item.msg.qmiType &&
    reaches d.muxInterface item.adapter (d.dev c).adapter &&
      if item.msg.isBroadcast then item.msg.isInd && (d.dev c).clientId != 0
      else item.msg.clientId != 0 && (d.dev c).hasId item.msg.clientId

end Devices

/-- A call of `MPQMI_SendQMUXToExternalClient`: its adapter, the device it has served last, and the
one that it has found. An observer keeps all the devices that it has served. -/
structure Sending where
  item : Item
  adapter : Nat
  pIocDev : Option Nat
  found : Option Nat
  served : List Nat
  deriving DecidableEq

/-- The queues of the devices, the calls under way, and the reads. Observers keep the messages in
the order of their arrival, and which reads were filled with which. -/
structure State where
  readDataQueue : Nat → List Item
  readIrpQueue : Nat → List Irp
  irpCompletionQueue : Nat → List Irp
  pendingCtrlRequests : Nat → UInt8 → Int
  isQmiWorking : Nat → Bool
  sender : Nat → Option Sending
  waiting : List Irp
  reading : Nat → Option Irp
  io : CancelState Irp
  status : Irp → NtStatus
  systemBuffer : Irp → List UInt8
  submitted : List Irp
  completed : List Irp
  arrived : List Item
  filled : Nat → List (Irp × Item)

namespace State

def initial : State where
  readDataQueue := fun _ => []
  readIrpQueue := fun _ => []
  irpCompletionQueue := fun _ => []
  pendingCtrlRequests := fun _ _ => 0
  isQmiWorking := fun _ => true
  sender := fun _ => none
  waiting := []
  reading := fun _ => none
  io := .initial
  status := fun _ => .pending
  systemBuffer := fun _ => []
  submitted := []
  completed := []
  arrived := []
  filled := fun _ => []

def ioSetCancelRoutine (s : State) (irp : Irp) (routine : Bool) : State :=
  { s with io := s.io.ioSetCancelRoutine irp routine }

def setStatus (s : State) (irp : Irp) (status : NtStatus) : State :=
  { s with status := Function.update s.status irp status }

/-- `IoCompleteRequest`. -/
def ioCompleteRequest (s : State) (irp : Irp) : State :=
  { s with completed := s.completed ++ [irp] }

/-- A read is taken off `ReadIrpQueue`, its cancel routine is taken out, and it goes to
`IrpCompletionQueue`. -/
def dequeueIrp (s : State) (c : Nat) (irp : Irp) (rest : List Irp) : State :=
  { s with
    readIrpQueue := Function.update s.readIrpQueue c rest
    io := s.io.ioSetCancelRoutine irp false
    irpCompletionQueue :=
      Function.update s.irpCompletionQueue c (s.irpCompletionQueue c ++ [irp]) }

/-- A message is put into `ReadDataQueue`. -/
def insertReadDataQueue (s : State) (c : Nat) (item : Item) : State :=
  { s with readDataQueue := Function.update s.readDataQueue c (s.readDataQueue c ++ [item]) }

/-- The message is copied into the buffer of the read. -/
def fillRead (s : State) (c : Nat) (irp : Irp) (item : Item) : State :=
  { s with
    status := Function.update s.status irp .success
    systemBuffer := Function.update s.systemBuffer irp item.msg.qmux
    filled := Function.update s.filled c (s.filled c ++ [(irp, item)]) }

/-! ## Sending to a client -/

/-- `MPQMI_SendQMUXToExternalClient` up to its loop. -/
def arrive (s : State) (thread adapter : Nat) (msg : Msg) : Option State :=
  match s.sender thread with
  | some _ => none
  | none =>
    let item := ⟨thread, adapter, msg⟩
    let s := { s with arrived := s.arrived ++ [item] }
    if msg.isBroadcast && !msg.isInd then
      -- broadcast req/rsp not supported
      some s
    else
      let sending := ⟨item, adapter, none, none, []⟩
      some { s with sender := Function.update s.sender thread (some sending) }

/-- A turn of the loop up to `IoLock`. -/
def look (d : Devices) (s : State) (thread : Nat) : Option State :=
  match s.sender thread with
  | some ⟨item, adapter, pIocDev, none, served⟩ =>
    let sends := fun sending => some { s with sender := Function.update s.sender thread sending }
    match if s.isQmiWorking adapter then d.findIoDevice adapter item.msg pIocDev else none with
    | none => sends none
    | some c =>
      if item.msg.qmux.length < qcqmuxHdrSize then
        -- data too short
        sends none
      else sends (some ⟨item, (d.dev c).adapter, pIocDev, some c, served⟩)
  | _ => none

/-- The loop over `ReadIrpQueue`. If no read takes the message, it goes to `ReadDataQueue`. -/
def fillReadIrp (c : Nat) (item : Item) : List Irp → State → State
  | [], s => s.insertReadDataQueue c item
  | irp :: rest, s =>
    let s' := s.dequeueIrp c irp rest
    if s.io.installed irp then
      if item.msg.qmux.length ≤ irp.length then s'.fillRead c irp item
      else fillReadIrp c item rest (s'.setStatus irp .bufferTooSmall)
    else
      -- the cancel routine does not proceed when the IRP is not in the queue
      fillReadIrp c item rest (s'.setStatus irp .cancelled)

/-- A response counts one request less. -/
def countResponse (s : State) (adapter : Nat) (qmiType : UInt8) : State :=
  { s with
    pendingCtrlRequests := Function.update s.pendingCtrlRequests adapter
      (Function.update (s.pendingCtrlRequests adapter) qmiType
        (s.pendingCtrlRequests adapter qmiType - 1)) }

/-- A turn of the loop under `IoLock`. -/
def deliver (d : Devices) (s : State) (thread : Nat) : Option State :=
  match s.sender thread with
  | some ⟨item, adapter, _, some c, served⟩ =>
    if s.reading c = none then
      let s := if item.msg.isInd then s else s.countResponse adapter (d.dev c).qmiType
      let s := fillReadIrp c item (s.readIrpQueue c) s
      some { s with
        sender := Function.update s.sender thread
          (if item.msg.isBroadcast then some ⟨item, adapter, some c, none, served ++ [c]⟩
          else none) }
    else none
  | _ => none

/-! ## Reads -/

/-- `MPIOC_Read` up to `IoLock`. -/
def read (d : Devices) (s : State) (irp : Irp) (stopped : Bool) : Option State :=
  if irp ∈ s.submitted then none
  else
    let s := { s with submitted := s.submitted ++ [irp] }
    let complete := fun status => some ((s.setStatus irp status).ioCompleteRequest irp)
    if irp.dev ∉ d.deviceList ∨ (d.dev irp.dev).isControl ∨ (d.dev irp.dev).clientId = 0 then
      complete .unsuccessful
    else if irp.length = 0 then complete .success
    else if stopped then complete .unsuccessful
    else some { s with waiting := s.waiting ++ [irp] }

/-- `MPIOC_Read` takes `IoLock` and tests `Cancel`. -/
def readLock (s : State) (irp : Irp) : Option State :=
  if irp ∈ s.waiting ∧ s.reading irp.dev = none then
    let s := { s with waiting := s.waiting.erase irp }
    if s.io.cancel irp then
      some (((s.ioSetCancelRoutine irp false).setStatus irp .cancelled).ioCompleteRequest irp)
    else some { s with reading := Function.update s.reading irp.dev (some irp) }
  else none

/-- `MPIOC_Read` fills or enqueues the read, and releases `IoLock`. -/
def readFinish (s : State) (c : Nat) : Option State :=
  match s.reading c with
  | none => none
  | some irp =>
    let s := { s with reading := Function.update s.reading c none }
    match s.readDataQueue c with
    | item :: rest =>
      if item.msg.qmux.length ≤ irp.length then
        some (({ s with readDataQueue := Function.update s.readDataQueue c rest }.fillRead c irp
          item).ioCompleteRequest irp)
      else
        -- put data back to queue
        some ((s.setStatus irp .bufferTooSmall).ioCompleteRequest irp)
    | [] =>
      let s := { s with
        readIrpQueue := Function.update s.readIrpQueue c (s.readIrpQueue c ++ [irp]) }
      some (s.ioSetCancelRoutine irp true)

/-- `MPIOC_CancelReadRoutine`. -/
def cancelReadRoutine (s : State) (irp : Irp) : Option State :=
  if irp ∈ s.io.running ∧ s.reading irp.dev = none then
    let s := { s with io := s.io.routineReturns irp }
    if irp ∈ s.readIrpQueue irp.dev then
      some ({ s with
        readIrpQueue := Function.update s.readIrpQueue irp.dev
          ((s.readIrpQueue irp.dev).erase irp)
        irpCompletionQueue := Function.update s.irpCompletionQueue irp.dev
          (s.irpCompletionQueue irp.dev ++ [irp]) }.setStatus irp .cancelled)
    else
      -- IRP de-queued
      some s
  else none

/-- A turn of `MPIOC_EmptyIrpCompletionQueue`. -/
def emptyIrpCompletionQueue (s : State) (c : Nat) : Option State :=
  match s.irpCompletionQueue c with
  | [] => none
  | irp :: rest =>
    if s.reading c = none then
      some (({ s with
        irpCompletionQueue := Function.update s.irpCompletionQueue c rest }.ioSetCancelRoutine irp
          false).ioCompleteRequest irp)
    else none

end State

/-! ## The machine -/

inductive Op
  | arrive (thread adapter : Nat) (msg : Msg)
  | look (thread : Nat)
  | deliver (thread : Nat)
  | read (irp : Irp) (stopped : Bool)
  | readLock (irp : Irp)
  | readFinish (c : Nat)
  | ioCancelIrp (irp : Irp)
  | cancelReadRoutine (irp : Irp)
  | emptyIrpCompletionQueue (c : Nat)
  | qmiWorking (adapter : Nat) (working : Bool)
  deriving DecidableEq

def step (d : Devices) (s : State) : Op → Option State
  | .arrive thread adapter msg => s.arrive thread adapter msg
  | .look thread => s.look d thread
  | .deliver thread => s.deliver d thread
  | .read irp stopped => s.read d irp stopped
  | .readLock irp => s.readLock irp
  | .readFinish c => s.readFinish c
  | .ioCancelIrp irp => some { s with io := s.io.ioCancelIrp irp }
  | .cancelReadRoutine irp => s.cancelReadRoutine irp
  | .emptyIrpCompletionQueue c => s.emptyIrpCompletionQueue c
  | .qmiWorking adapter working =>
    some { s with isQmiWorking := Function.update s.isQmiWorking adapter working }

/-- The steps in any order. -/
def externalClients (d : Devices) : Machine State Op Unit := fun s op =>
  (step d s op).map fun s' => (s', ())

theorem step_of_externalClients {d : Devices} {s s' : State} {op : Op} {o : Unit}
    (h : externalClients d s op = some (s', o)) : step d s op = some s' := by
  obtain ⟨t, ht, heq⟩ := Option.map_eq_some_iff.mp h
  obtain rfl : t = s' := congrArg Prod.fst heq
  exact ht

/-! ## What the clients see -/

/-- Where a read is. -/
inductive Place
  | waiting
  | reading (c : Nat)
  | readIrpQueue (c : Nat)
  | irpCompletionQueue (c : Nat)
  | completed
  deriving DecidableEq

namespace State

/-- The reads at a place. -/
def readsAt (s : State) : Place → List Irp
  | .waiting => s.waiting
  | .reading c => (s.reading c).toList
  | .readIrpQueue c => s.readIrpQueue c
  | .irpCompletionQueue c => s.irpCompletionQueue c
  | .completed => s.completed

/-- The messages that came to a client, in the order of `IoLock`: those that its reads were filled
with, and those that it has not read yet. -/
def received (s : State) (c : Nat) : List Item := (s.filled c).map (·.2) ++ s.readDataQueue c

/-- The message that a thread still has for a client. -/
def inFlight (d : Devices) (s : State) (c thread : Nat) : List Item :=
  match s.sender thread with
  | some sending =>
    if d.addressed c sending.item = true ∧ c ∉ sending.served then [sending.item] else []
  | none => []

/-- A client gets the messages that are addressed to it, each once and in the order of their
arrival, by its reads. No message waits beside a read. Each read is at one place, is completed at
most once, and is not left on `ReadIrpQueue` by a cancellation. -/
structure Exact (d : Devices) (s : State) : Prop where
  inOrder : ∀ c ∈ d.deviceList, ∀ thread,
    (s.received c).filter (·.thread = thread) ++ s.inFlight d c thread =
      s.arrived.filter fun item => item.thread = thread ∧ d.addressed c item = true
  filled : ∀ c, ∀ f ∈ s.filled c,
    f.1.dev = c ∧ s.status f.1 = .success ∧ s.systemBuffer f.1 = f.2.msg.qmux ∧
      f.2.msg.qmux.length ≤ f.1.length
  filledOnce : ∀ c, ((s.filled c).map (·.1)).Nodup
  success : ∀ irp, s.status irp = .success → irp.length = 0 ∨ ∃ f ∈ s.filled irp.dev, f.1 = irp
  notBoth : ∀ c, s.readDataQueue c = [] ∨ s.readIrpQueue c = []
  onePlace : ∀ irp ∈ s.submitted, Places.OnePlace s.readsAt irp
  cancelled : ∀ c, ∀ irp ∈ s.readIrpQueue c, s.io.cancel irp = true → irp ∈ s.io.running

end State

/-- A call that looks for a client has an adapter that works until all clients are served, and its
message does not match a client by the id 0. -/
def Sending.Steady (d : Devices) (s : State) (sending : Sending) : Prop :=
  if s.isQmiWorking sending.adapter then
    sending.item.msg.clientId = 0 → qcqmuxHdrSize ≤ sending.item.msg.qmux.length →
      ∀ c ∈ d.deviceList, d.isFirst sending.adapter sending.item.msg c = false
  else ∀ c ∈ d.deviceList, d.addressed c sending.item = true → c ∈ sending.served

/-- The condition on a step. No read is cancelled between the test of `Cancel` and the installation
of its routine. -/
def Op.Steady (d : Devices) (s : State) : Op → Prop
  | .look thread => ∀ sending ∈ s.sender thread, sending.Steady d s
  | .ioCancelIrp irp => s.reading irp.dev = some irp → s.readDataQueue irp.dev ≠ []
  | _ => True

instance (d : Devices) (s : State) (sending : Sending) : Decidable (sending.Steady d s) :=
  inferInstanceAs (Decidable
    (if s.isQmiWorking sending.adapter then
      sending.item.msg.clientId = 0 → qcqmuxHdrSize ≤ sending.item.msg.qmux.length →
        ∀ c ∈ d.deviceList, d.isFirst sending.adapter sending.item.msg c = false
    else ∀ c ∈ d.deviceList, d.addressed c sending.item = true → c ∈ sending.served))

instance (d : Devices) (s : State) : (op : Op) → Decidable (op.Steady d s)
  | .look thread => inferInstanceAs (Decidable (∀ sending ∈ s.sender thread, sending.Steady d s))
  | .ioCancelIrp irp =>
    inferInstanceAs (Decidable (s.reading irp.dev = some irp → s.readDataQueue irp.dev ≠ []))
  | .arrive .. | .deliver _ | .read .. | .readLock _ | .readFinish _ | .cancelReadRoutine _
  | .emptyIrpCompletionQueue _ | .qmiWorking .. => .isTrue trivial

end Ndis.Ioc
