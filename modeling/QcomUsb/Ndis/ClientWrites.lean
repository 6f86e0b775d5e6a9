-- SUMMARY: The writes of an external client: the write thread of a device, its events, cancellation and its exits.
import QcomUsb.Library.CancelRoutine
import QcomUsb.Library.Transition

/-!
# Writes of a client

`MPIOC_Write` puts a write on `WriteIrpQueue`. `MPIOC_WriteThread` takes one off at a time and sends
it with an IRP of its own. A write goes back by way of `IrpCompletionQueue`. Each step is one phase
of the thread, one hold of `IoLock` by another party, or a completion by USB.
-/

namespace Ndis.ClientWrites

open CancelRoutine Transition

/-- A write IRP: how long it is, and whether its buffer can be mapped. -/
structure Irp where
  id : Nat
  length : Nat
  mapped : Bool
deriving DecidableEq

inductive NtStatus
  | success
  | pending
  | cancelled
  | noMemory
  | invalidParameter
  | unsuccessful
deriving DecidableEq

/-- What the thread waits for. -/
inductive WriteEvent
  | completion
  | cancelCurrent
  | emptyCompletionQueue
  | kick
  | cancel
  | purge
  | stop
deriving DecidableEq

/-- `pWriteEvents`. -/
def pWriteEvents : List WriteEvent :=
  [.completion, .cancelCurrent, .emptyCompletionQueue, .kick, .cancel, .purge, .stop]

/-- Where the thread is. `emptying` and `flushing` are in `MPIOC_EmptyIrpCompletionQueue`, behind a
purge and behind its event. -/
inductive Phase
  | loopHead
  | emptying
  | dequeue
  | allocate
  | send
  | wait
  | completing
  | flushing
  | exited
deriving DecidableEq

/-- What does not change of a device and its adapter. -/
structure Client where
  control : Bool
  qmiType : UInt8
  externalQctlEnabled : Bool
  numOfRetriesOnError : Nat
  ignoreQmictlErrors : Bool

/-- The fields of the device and the locals of the thread. `pActiveBuffer` says of which write it is,
`qmiBuffer` how long. Observers keep whether the thread's IRP is with USB, the writes that were
submitted, those taken off `WriteIrpQueue`, put on `IrpCompletionQueue` and completed, and how many
calls of `MPIOC_Write` have not set `KickWriteEvent` yet. -/
structure State where
  writeIrpQueue : List Irp
  irpCompletionQueue : List Irp
  pWriteCurrent : Option Irp
  pActiveBuffer : Option Irp
  ulReqBytes : Nat
  qmiBuffer : Option Nat
  bWriteActive : Bool
  bWriteStopped : Bool
  bPurged : Bool
  bCancelled : Bool
  iErrorCount : Nat
  irpCount : Int
  events : WriteEvent → Bool
  phase : Phase
  sendStatus : NtStatus
  status : Irp → NtStatus
  information : Irp → Nat
  io : CancelState Irp
  inFlight : Bool
  submitted : List Irp
  dequeued : List Irp
  returned : List Irp
  completed : List Irp
  kicksOwed : Nat

/-- What `MPIOC_Write` finds: a device for its file object, that is stopped or not, and its id. -/
structure Found where
  device : Bool
  stopped : Bool
  clientId : UInt8

/-- What the thread finds: `USBIF_IsUsbBroken`, `PendingCtrlRequests` below its limit, an allocation
that succeeds, and the event that it wakes up with, or none for a time-out. -/
structure Answers where
  broken : Bool
  quota : Bool
  allocates : Bool
  event : Option WriteEvent

/-- `sizeof(QCQMI)`. -/
def sizeofQcqmi : Nat := 7

/-- `QCQMUX_HDR_SIZE + QCQMUX_MSG_HDR_SIZE`. -/
def qcqmuxHdrSizes : Nat := 3 + 4

namespace State

def initial : State where
  writeIrpQueue := []
  irpCompletionQueue := []
  pWriteCurrent := none
  pActiveBuffer := none
  ulReqBytes := 0
  qmiBuffer := none
  bWriteActive := false
  bWriteStopped := false
  bPurged := false
  bCancelled := false
  iErrorCount := 0
  irpCount := 0
  events := fun _ => false
  phase := .loopHead
  sendStatus := .success
  status := fun _ => .pending
  information := fun _ => 0
  io := .initial
  inFlight := false
  submitted := []
  dequeued := []
  returned := []
  completed := []
  kicksOwed := 0

def keSetEvent (s : State) (e : WriteEvent) : State :=
  { s with events := Function.update s.events e true }

def keClearEvent (s : State) (e : WriteEvent) : State :=
  { s with events := Function.update s.events e false }

def setStatus (s : State) (irp : Irp) (status : NtStatus) : State :=
  { s with status := Function.update s.status irp status }

def setInformation (s : State) (irp : Irp) (information : Nat) : State :=
  { s with information := Function.update s.information irp information }

/-- A write goes on `IrpCompletionQueue`, without a cancel routine, and `EmptyCompletionQueueEvent`
is set. -/
def insertCompletion (s : State) (irp : Irp) : State :=
  { s with
    irpCompletionQueue := s.irpCompletionQueue ++ [irp]
    io := s.io.ioSetCancelRoutine irp false
    returned := s.returned ++ [irp] }.keSetEvent .emptyCompletionQueue

/-! ## Queues -/

/-- `MPIOC_Write` completes a write itself. -/
def refuse (s : State) (irp : Irp) (status : NtStatus) : State :=
  { s with
    submitted := s.submitted ++ [irp]
    completed := s.completed ++ [irp] }.setStatus irp status |>.setInformation irp 0

/-- The hold of `IoLock` of `MPIOC_Write`. -/
def enqueue (s : State) (irp : Irp) : State :=
  { s with
    irpCount := s.irpCount + 1
    writeIrpQueue := s.writeIrpQueue ++ [irp]
    io := s.io.ioSetCancelRoutine irp true
    submitted := s.submitted ++ [irp]
    kicksOwed := if s.writeIrpQueue = [] then s.kicksOwed + 1 else s.kicksOwed }

/-- `MPIOC_Write`, up to its `KeSetEvent`. -/
def write (client : Client) (s : State) (irp : Irp) (found : Found) : State :=
  if ¬ found.device then s.refuse irp .unsuccessful
  else if irp.length = 0 then s.refuse irp .success
  else if ¬ irp.mapped then s.refuse irp .invalidParameter
  else if s.io.cancel irp then s.refuse irp .cancelled
  else if found.stopped then s.refuse irp .unsuccessful
  else if client.control ∨ found.clientId = 0 then s.refuse irp .unsuccessful
  else if ¬ client.externalQctlEnabled ∧ (client.qmiType ≤ 0 ∨ irp.length < qcqmuxHdrSizes) then
    s.refuse irp .unsuccessful
  else s.enqueue irp

/-- `MPIOC_PurgeQueue` for `WriteIrpQueue`, before it empties the completion queue. -/
def purgeQueue (s : State) : State :=
  { s with
    writeIrpQueue := []
    irpCompletionQueue := s.irpCompletionQueue ++ s.writeIrpQueue
    status := fun irp => if irp ∈ s.writeIrpQueue then .cancelled else s.status irp
    information := fun irp => if irp ∈ s.writeIrpQueue then 0 else s.information irp
    io := s.writeIrpQueue.foldl (fun io irp => io.ioSetCancelRoutine irp false) s.io
    dequeued := s.dequeued ++ s.writeIrpQueue
    returned := s.returned ++ s.writeIrpQueue }

/-- One turn of `MPIOC_EmptyIrpCompletionQueue`. -/
def completeHead (s : State) : State :=
  match s.irpCompletionQueue with
  | [] => s
  | irp :: rest =>
    { s with
      irpCompletionQueue := rest
      io := s.io.ioSetCancelRoutine irp false
      completed := s.completed ++ [irp]
      irpCount := s.irpCount - 1 }

/-- `MPIOC_EmptyIrpCompletionQueue` with nobody beside it. -/
def emptyIrpCompletionQueue (s : State) : State :=
  s.irpCompletionQueue.foldl (fun s _ => s.completeHead) s

/-- What `MPIOC_CleanupQueues` does to the writes. -/
def cleanupQueues (s : State) : State := s.purgeQueue.emptyIrpCompletionQueue

/-- `MPIOC_CancelWriteRoutine`. -/
def cancelWriteRoutine (s : State) (irp : Irp) (found : Bool) : State :=
  let back := { s with io := s.io.routineReturns irp }
  if ¬ found then back
  else if s.pWriteCurrent = some irp ∧ s.bWriteActive then
    { back with io := back.io.ioSetCancelRoutine irp true }.keSetEvent .cancelCurrent
  else if irp ∈ s.writeIrpQueue then
    { back with
      writeIrpQueue := s.writeIrpQueue.erase irp
      dequeued := s.dequeued ++ [irp] }.setStatus irp .cancelled
      |>.setInformation irp 0 |>.insertCompletion irp
  else back

/-! ## The write thread -/

/-- The loop begins. A stop or a purge purges the queue. -/
def loopHead (s : State) (broken : Bool) : State :=
  if s.bWriteStopped ∨ s.bPurged ∨ broken then { s.purgeQueue with phase := .emptying }
  else { s with phase := .dequeue }

/-- The completion queue is emptied behind a purge. -/
def emptying (s : State) : State :=
  if s.irpCompletionQueue = [] then
    { s with bPurged := false, phase := if s.bCancelled then .exited else .wait }
  else s.completeHead

/-- A write is taken off `WriteIrpQueue`, and its buffer is looked up when none is active. -/
def dequeue (s : State) (quota : Bool) : State :=
  match s.writeIrpQueue with
  | [] => { s with phase := .wait }
  | irp :: rest =>
    if s.bWriteActive = false ∧ quota then
      let t :=
        { s with
          writeIrpQueue := rest
          pWriteCurrent := some irp
          dequeued := s.dequeued ++ [irp] }
      if s.pActiveBuffer = none then
        { t with pActiveBuffer := some irp, ulReqBytes := irp.length, phase := .allocate }
      else { t with phase := .wait }
    else { s with phase := .wait }

/-- The QMI buffer is as long as the write needs, or another one is allocated. -/
def allocate (s : State) (allocates : Bool) : State :=
  let needed := s.ulReqBytes + sizeofQcqmi
  if s.qmiBuffer.any (needed ≤ ·) then { s with phase := .send }
  else if allocates then { s with qmiBuffer := some needed, phase := .send }
  else
    match s.pWriteCurrent with
    | none => s
    | some irp =>
      -- out of memory, and pActiveBuffer stays
      let t := if s.io.installed irp then s.setStatus irp .noMemory
        else (s.setStatus irp .cancelled).setInformation irp 0
      { t.insertCompletion irp with pWriteCurrent := none, qmiBuffer := none, phase := .loopHead }

/-- The IRP of the thread goes to USB. -/
def send (s : State) : State := { s with bWriteActive := true, inFlight := true, phase := .wait }

/-- `MPIOC_WtIrpCompletion`. -/
def wtIrpCompletion (s : State) (status : NtStatus) : State :=
  { s with inFlight := false, sendStatus := status }.keSetEvent .completion

/-- A stop, a purge or a cancel waits for a write that is active. -/
def waitIfActive (s : State) : State :=
  { s with phase := if s.bWriteActive then .wait else .loopHead }

/-- The thread wakes up with an event, or with none for a time-out. -/
def wake (s : State) : Option WriteEvent → State
  | none => { s with phase := .loopHead }
  | some .completion =>
    { s.keClearEvent .completion with bWriteActive := false, phase := .completing }
  | some .emptyCompletionQueue => { s.keClearEvent .emptyCompletionQueue with phase := .flushing }
  -- IoCancelIrp for the thread's IRP, which may come back with any status anyway
  | some .cancelCurrent => { s.keClearEvent .cancelCurrent with phase := .loopHead }
  | some .kick => (s.keClearEvent .kick).waitIfActive
  | some .cancel =>
    { s.keClearEvent .cancel with bWriteStopped := true, bCancelled := true }.waitIfActive
  | some .purge => { s.keClearEvent .purge with bPurged := true }.waitIfActive
  | some .stop => { s.keClearEvent .stop with bWriteStopped := true, phase := .loopHead }

/-- How `MPIOC_WriteIrpCompletion` counts errors. -/
def countError (client : Client) (s : State) : State :=
  if s.sendStatus = .success ∨ s.sendStatus = .cancelled then { s with iErrorCount := 0 }
  else if s.sendStatus ≠ .invalidParameter ∧ ¬ client.ignoreQmictlErrors ∧
      client.numOfRetriesOnError < s.iErrorCount + 1 then
    { s with bWriteStopped := true, iErrorCount := client.numOfRetriesOnError }
  else { s with iErrorCount := s.iErrorCount + 1 }

/-- `MPIOC_WriteIrpCompletion`. -/
def writeIrpCompletion (client : Client) (s : State) : State :=
  let t := s.countError client
  match s.pWriteCurrent with
  | none => t
  | some irp =>
    (t.setInformation irp s.ulReqBytes |>.setStatus irp s.sendStatus).insertCompletion irp

/-- The write that has come back is completed. -/
def completing (client : Client) (s : State) : State :=
  { s.writeIrpCompletion client with
    pActiveBuffer := none
    ulReqBytes := 0
    pWriteCurrent := none
    phase := .loopHead }

def flushing (s : State) : State :=
  if s.irpCompletionQueue = [] then { s with phase := .loopHead } else s.completeHead

/-- The wait ends with an event that is set, or with a time-out while none is. -/
def MayWake (s : State) : Option WriteEvent → Prop
  | none => ∀ e ∈ pWriteEvents, s.events e = false
  | some e => s.events e = true

instance (s : State) : (event : Option WriteEvent) → Decidable (s.MayWake event)
  | none => inferInstanceAs (Decidable (∀ e ∈ pWriteEvents, s.events e = false))
  | some e => inferInstanceAs (Decidable (s.events e = true))

/-- The next step of the thread. -/
def threadStep (client : Client) (s : State) (answers : Answers) : Option State :=
  match s.phase with
  | .loopHead => some (s.loopHead answers.broken)
  | .emptying => some s.emptying
  | .dequeue => some (s.dequeue answers.quota)
  | .allocate => some (s.allocate answers.allocates)
  | .send => some s.send
  | .wait => if s.MayWake answers.event then some (s.wake answers.event) else none
  | .completing => some (s.completing client)
  | .flushing => some s.flushing
  | .exited => none

end State

inductive Op
  | write (irp : Irp) (found : Found)
  | kick
  | keSetEvent (e : WriteEvent)
  | ioCancelIrp (irp : Irp)
  | cancelWriteRoutine (irp : Irp) (found : Bool)
  | purgeQueue
  | completeHead
  | usbCompletes (status : NtStatus)
  | thread (answers : Answers)

/-- A write is submitted once, a cancel routine runs when it was called, and USB completes what it
has. The completion event is set by USB only. -/
def State.step (client : Client) (s : State) : Op → Option State
  | .write irp found => if irp ∈ s.submitted then none else some (s.write client irp found)
  | .kick =>
    if s.kicksOwed = 0 then none
    else some ({ s with kicksOwed := s.kicksOwed - 1 }.keSetEvent .kick)
  | .keSetEvent e => if e = .completion then none else some (s.keSetEvent e)
  | .ioCancelIrp irp =>
    if irp ∈ s.completed then none else some { s with io := s.io.ioCancelIrp irp }
  | .cancelWriteRoutine irp found =>
    if irp ∈ s.io.running then some (s.cancelWriteRoutine irp found) else none
  | .purgeQueue => some s.purgeQueue
  | .completeHead => some s.completeHead
  | .usbCompletes status => if s.inFlight then some (s.wtIrpCompletion status) else none
  | .thread answers => s.threadStep client answers

/-- The writes of one client. -/
def clientWrites (client : Client) : Machine State Op Unit := fun s op =>
  (s.step client op).map fun s' => (s', ())

theorem step_of_clientWrites {client : Client} {s s' : State} {op : Op} {o : Unit}
    (h : clientWrites client s op = some (s', o)) : s.step client op = some s' := by
  obtain ⟨t, ht, heq⟩ := Option.map_eq_some_iff.mp h
  obtain rfl : t = s' := congrArg Prod.fst heq
  exact ht

/-! ## What is asked -/

/-- Every write that was taken off `WriteIrpQueue` has been put on `IrpCompletionQueue`. -/
def State.Settled (s : State) : Prop := s.returned.Perm s.dequeued

/-- No write goes back twice. A thread that waits with no active write, or has exited, has given
every write back. When it has exited no send is under way, and a cleanup brings `IrpCount` to
zero. -/
structure State.KeepsWrites (s : State) : Prop where
  once : s.returned.Nodup
  waits : s.phase = .wait → s.bWriteActive = false → s.Settled
  exits : s.phase = .exited → s.inFlight = false ∧ s.Settled ∧ s.cleanupQueues.irpCount = 0

/-- A write is taken only while no buffer is active, and the thread does not exit with an active
write. -/
def State.Guarded (s : State) : Op → Prop
  | .thread answers =>
    match s.phase with
    | .dequeue => s.writeIrpQueue ≠ [] → s.bWriteActive = false → answers.quota = true →
        s.pActiveBuffer = none
    | .emptying => s.irpCompletionQueue = [] → s.bCancelled = true → s.bWriteActive = false
    | _ => True
  | _ => True

end Ndis.ClientWrites
