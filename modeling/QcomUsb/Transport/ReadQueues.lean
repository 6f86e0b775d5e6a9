-- SUMMARY: Pended reads of the USB transport: the read queues with their fills, purges and cancellations.
import QcomUsb.Library.CancelRoutine
import QcomUsb.Library.Transition

/-!
# Pended reads

Data reads wait on `ReadDataQueue` and control reads on `EncapsulatedDataQueue`. A fill or a purge
unlinks a read, takes its cancel routine out, and leaves the read alone if the routine was already
gone. The cancel routine leaves a read alone that is not on its queue. Each step is what happens
under one hold of `ReadSpinLock` or `ControlSpinLock`, and `IoCancelIrp` comes in between.
-/

namespace Transport.ReadCancel

open CancelRoutine Transition

/-- The two queues of a device: `ReadDataQueue` with `RdCompletionQueue`, and
`EncapsulatedDataQueue` with `CtlCompletionQueue`. -/
inductive ReadKind
  | data
  | control
deriving DecidableEq

/-- A read IRP: the device and the queue it is for, and the length of its buffer. -/
structure Irp (D : Type) where
  id : Nat
  device : D
  kind : ReadKind
  length : Nat
deriving DecidableEq

/-- A queue of a device. -/
abbrev Port (D : Type) := D × ReadKind

def Irp.port {D : Type} (irp : Irp D) : Port D := (irp.device, irp.kind)

inductive NtStatus
  | success
  | bufferTooSmall
  | unsuccessful
  | cancelled
deriving DecidableEq

structure IoStatus where
  status : NtStatus
  information : Nat
deriving DecidableEq

/-- What the walk over the level-2 buffer decides about the read it peeked at: `bCompleteIrp`, the
status and length to complete it with, and the packet it took out of the buffer for it. -/
structure Fill where
  bCompleteIrp : Bool
  ioStatus : IoStatus
  packet : Option (List UInt8)

/-- The queues of all devices. `peeked` is the read that the level-1 thread of a device has peeked
at on another adapter's queue; it holds the `ReadSpinLock` of its own device meanwhile. Observers
keep the reads that were put on a queue, those that were ever submitted, the packets that went
into a read in cancellation while another was queued, and whether a completed read was unlinked. -/
structure State (D : Type) where
  queue : Port D → List (Irp D)
  completionQueue : Port D → List (Irp D)
  completed : List (Irp D)
  ioStatus : Irp D → IoStatus
  io : CancelState (Irp D)
  peeked : D → Option (Irp D)
  submitted : List (Irp D)
  accepted : List (Irp D)
  wasted : List (List UInt8)
  wild : Bool

/-- `bDirectCompletion`. -/
def bDirectCompletion : Bool := true

namespace State

variable {D : Type}

def initial : State D where
  queue := fun _ => []
  completionQueue := fun _ => []
  completed := []
  ioStatus := fun _ => ⟨.success, 0⟩
  io := .initial
  peeked := fun _ => none
  submitted := []
  accepted := []
  wasted := []
  wild := false

/-- The lock of the queue is free: its device's thread is not at a read of another adapter. -/
def lockFree (s : State D) (p : Port D) : Bool := p.2 == .control || (s.peeked p.1).isNone

variable [DecidableEq D]

/-- `InsertTailList` on the completion queue, with the status the read is completed with. -/
def insertCompletionQueue (s : State D) (irp : Irp D) (ioStatus : IoStatus) : State D :=
  { s with
    ioStatus := Function.update s.ioStatus irp ioStatus
    completionQueue :=
      Function.update s.completionQueue irp.port (s.completionQueue irp.port ++ [irp]) }

/-- `IoCompleteRequest`. -/
def completeRequest (s : State D) (irp : Irp D) (ioStatus : IoStatus) : State D :=
  { s with
    ioStatus := Function.update s.ioStatus irp ioStatus
    completed := s.completed ++ [irp] }

/-- `RemoveEntryList`: the read is unlinked from the list it is on. -/
def removeEntryList (s : State D) (irp : Irp D) : State D :=
  if irp ∈ s.queue irp.port then
    { s with queue := Function.update s.queue irp.port ((s.queue irp.port).erase irp) }
  else if irp ∈ s.completionQueue irp.port then
    { s with
      completionQueue :=
        Function.update s.completionQueue irp.port ((s.completionQueue irp.port).erase irp) }
  else { s with wild := true }

/-- `IoSetCancelRoutine`. -/
def ioSetCancelRoutine (s : State D) (irp : Irp D) (routine : Bool) : State D :=
  { s with io := s.io.ioSetCancelRoutine irp routine }

/-- `USBRD_Enqueue`, and `USBENC_Enqueue` for a control read. -/
def enqueue (s : State D) (irp : Irp D) : State D :=
  let s := { s with submitted := s.submitted ++ [irp] }
  if s.io.cancel irp then
    (s.ioSetCancelRoutine irp false).completeRequest irp ⟨.cancelled, 0⟩
  else
    { s.ioSetCancelRoutine irp true with
      queue := Function.update s.queue irp.port (s.queue irp.port ++ [irp])
      accepted := s.accepted ++ [irp] }

/-- `CancelReadRoutine`, and `USBENC_CancelQueued` for a control read. -/
def cancelReadRoutine (s : State D) (irp : Irp D) : State D :=
  let s :=
    if irp ∈ s.queue irp.port then
      (s.removeEntryList irp).insertCompletionQueue irp ⟨.cancelled, 0⟩
    else
      -- The read IRP is in processing, we just re-install the cancel routine here.
      s.ioSetCancelRoutine irp true
  { s with io := s.io.routineReturns irp }

/-- The end of `USBMRD_ReadIrpCompletion` for the read at hand. -/
def completeIrp (s : State D) (irp : Irp D) (fill : Fill) : State D :=
  let s := s.removeEntryList irp
  if s.io.installed irp then
    let s := s.ioSetCancelRoutine irp false
    if bDirectCompletion then s.completeRequest irp fill.ioStatus
    else s.insertCompletionQueue irp fill.ioStatus
  else
    -- the IRP is in Cancellation
    { s with wasted := if s.queue irp.port = [] then s.wasted else s.wasted ++ fill.packet.toList }

/-- `USBMRD_ReadIrpCompletion` on the queue of the device itself. -/
def readIrpCompletion (s : State D) (d : D) (fill : Fill) : State D :=
  match s.queue (d, .data) with
  | [] => s
  | irp :: _ => if fill.bCompleteIrp then s.completeIrp irp fill else s

/-- `GetAdapterReadDataItemIrp` on the queue of another adapter. -/
def getAdapterReadDataItemIrp (s : State D) (d device : D) : State D :=
  { s with peeked := Function.update s.peeked d (s.queue (device, .data)).head? }

/-- `USBMRD_ReadIrpCompletion` goes on with the read of another adapter. -/
def readIrpCompletionMux (s : State D) (d : D) (irp : Irp D) (fill : Fill) : State D :=
  let s := { s with peeked := Function.update s.peeked d none }
  if fill.bCompleteIrp then s.completeIrp irp fill else s

/-- `USBENC_CDC_GetEncapsulatedResponse` behind the transfer. -/
def getEncapsulatedResponse (s : State D) (d : D) (response : List UInt8) : State D :=
  match s.queue (d, .control) with
  | [] => s
  | irp :: rest =>
    let s := { s with queue := Function.update s.queue (d, .control) rest }
    if s.io.installed irp then
      (s.ioSetCancelRoutine irp false).insertCompletionQueue irp
        (if response.length > irp.length then ⟨.bufferTooSmall, irp.length⟩
        else ⟨.success, response.length⟩)
    else { s with wasted := if rest = [] then s.wasted else s.wasted ++ [response] }

/-- A turn of the purge's loop, behind `RemoveHeadList`. -/
def purgeIrp (s : State D) (irp : Irp D) : State D :=
  if s.io.installed irp then
    (s.ioSetCancelRoutine irp false).insertCompletionQueue irp ⟨.cancelled, 0⟩
  else s

/-- `USBUTL_PurgeQueue`, and `USBENC_PurgeQueue`, which does the same to `EncapsulatedDataQueue`. -/
def purgeQueue (s : State D) (p : Port D) : State D :=
  (s.queue p).foldl purgeIrp { s with queue := Function.update s.queue p [] }

/-- A turn of `QcEmptyCompletionQueue`. -/
def qcEmptyCompletionQueue (s : State D) (p : Port D) : State D :=
  match s.completionQueue p with
  | [] => s
  | irp :: rest =>
    { s with
      completionQueue := Function.update s.completionQueue p rest
      completed := s.completed ++ [irp] }

end State

/-! ## The machine -/

inductive Op (D : Type)
  | enqueue (irp : Irp D)
  | ioCancelIrp (irp : Irp D)
  | cancelReadRoutine (irp : Irp D)
  | readIrpCompletion (d : D) (fill : Fill)
  | getAdapterReadDataItemIrp (d device : D)
  | readIrpCompletionMux (d : D) (fill : Fill)
  | getEncapsulatedResponse (d : D) (response : List UInt8)
  | purgeQueue (p : Port D)
  | qcEmptyCompletionQueue (p : Port D)

variable {D : Type} [DecidableEq D]

/-- A step. An IRP is submitted once, a cancel routine runs when it was called, and a thread waits
for the lock of the queue it works on. -/
def step (s : State D) : Op D → Option (State D)
  | .enqueue irp =>
    if s.lockFree irp.port ∧ irp ∉ s.submitted then some (s.enqueue irp) else none
  | .ioCancelIrp irp => some { s with io := s.io.ioCancelIrp irp }
  | .cancelReadRoutine irp =>
    if s.lockFree irp.port ∧ irp ∈ s.io.running then some (s.cancelReadRoutine irp) else none
  | .readIrpCompletion d fill =>
    if s.lockFree (d, .data) then some (s.readIrpCompletion d fill) else none
  | .getAdapterReadDataItemIrp d device =>
    if s.lockFree (d, .data) ∧ s.lockFree (device, .data) ∧ d ≠ device then
      some (s.getAdapterReadDataItemIrp d device)
    else none
  | .readIrpCompletionMux d fill =>
    match s.peeked d with
    | none => none
    | some irp => if s.lockFree irp.port then some (s.readIrpCompletionMux d irp fill) else none
  | .getEncapsulatedResponse d response => some (s.getEncapsulatedResponse d response)
  | .purgeQueue p => if s.lockFree p then some (s.purgeQueue p) else none
  | .qcEmptyCompletionQueue p => if s.lockFree p then some (s.qcEmptyCompletionQueue p) else none

/-- The steps in any order. -/
def reads : Machine (State D) (Op D) Unit := fun s op => (step s op).map fun s' => (s', ())

/-! ## The property -/

namespace State

/-- How often the read is on its queue, on its completion queue or completed. -/
def places (s : State D) (irp : Irp D) : Nat :=
  (s.queue irp.port).count irp + (s.completionQueue irp.port).count irp + s.completed.count irp

/-- Every read that was put on a queue is there, on the completion queue or completed, and in one
of these places once; the lists of a device hold its own reads; no completed read was touched; and
no packet went into a read in cancellation while another was queued. -/
structure Kept (s : State D) : Prop where
  once : ∀ irp ∈ s.accepted, s.places irp = 1
  own : ∀ p, ∀ irp ∈ s.queue p ++ s.completionQueue p, irp.port = p
  touched : s.wild = false
  wasted : s.wasted = []

end State

/-- No read that the step takes off a queue is in cancellation, and the read of another adapter is
still on its queue. -/
def Op.Undisturbed (s : State D) : Op D → Prop
  | .readIrpCompletion d fill =>
    fill.bCompleteIrp = true → ∀ irp ∈ (s.queue (d, .data)).head?, s.io.installed irp = true
  | .readIrpCompletionMux d fill =>
    fill.bCompleteIrp = true → ∀ irp ∈ s.peeked d,
      irp ∈ s.queue irp.port ∧ s.io.installed irp = true
  | .getEncapsulatedResponse d _ =>
    ∀ irp ∈ (s.queue (d, .control)).head?, s.io.installed irp = true
  | .purgeQueue p => ∀ irp ∈ s.queue p, s.io.installed irp = true
  | _ => True

instance (s : State D) (op : Op D) : Decidable (op.Undisturbed s) := by
  unfold Op.Undisturbed
  split <;> infer_instance

end Transport.ReadCancel
