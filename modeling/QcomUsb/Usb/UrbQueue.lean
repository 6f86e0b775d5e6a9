-- SUMMARY: The bulk-in URBs of a qcom_usb device: their callback and the list of URBs that wait for room in the read buffer.
import QcomUsb.Library.Transition
import QcomUsb.Library.WhileLoop
import QcomUsb.Usb.RingBuffer

/-!
# Back-pressured URBs

`BlkCallback` stores what a URB brought and resubmits the URB. When the read buffer has no
room, the URB waits in `mBulkUrbBuffList`, a fixed list of nodes. Each read ends by moving
waiting URBs into the buffer, first come first served, and resubmitting them.
-/

namespace QtiUsb

open Memory Transition WhileLoop

/-- `BULK_URB_LIST`. -/
def bulkUrbList : Nat := 4

instance : NeZero bulkUrbList := ⟨by decide⟩

/-- The bits of `mUrbStatus`. -/
structure UrbStatus where
  initialized : Bool
  submitted : Bool
deriving DecidableEq

/-- `BULK_URB_INITIALIZED` alone. -/
def UrbStatus.idle : UrbStatus := ⟨true, false⟩

/-- An entry of `mBulkUrbList`: its status and its URB. `transferBuffer` holds the
`actual_length` bytes of the last completion, `inFlight` says that the USB core owns
the URB. -/
structure SBulkUrb where
  mUrbStatus : UrbStatus
  transferBuffer : List UInt8
  inFlight : Bool

/-- A node of `mBulkUrbBuffList` whose `mBulk_in_buffer` is not NULL. -/
structure SQueuedUrb where
  mIndex : Fin bulkUrbList
  mUrbStatus : UrbStatus
deriving DecidableEq

/-- A queued async read: the room in its iterator, and whether `kzalloc` will find
memory for it. -/
structure IoRead where
  iovCount : Nat
  kzalloc : Bool
deriving DecidableEq

/-- What happened to the received bytes, for the statements only. A URB has `completed` when
the callback takes its bytes in: a URB that failed, or that nobody waits for, brings none. -/
inductive RxEvent
  | completed (i : Fin bulkUrbList) (data : List UInt8)
  | stored (i : Fin bulkUrbList) (data : List UInt8)
  | submitted (i : Fin bulkUrbList)
  | handed (block : List UInt8)
deriving DecidableEq

/-- The receive side of `sQTIDevUSB`. A node whose `mBulk_in_buffer` is NULL is `none`:
its other fields are stale and nobody reads them. -/
structure SQTIDevUSB where
  mReadBuffCircular : SReadMemListCircular
  mBulkUrbList : Fin bulkUrbList → SBulkUrb
  mBulkUrbBuffList : List (Option SQueuedUrb)
  mBulkUrbBuffListSize : Nat
  mIoReadBuffListActive : List IoRead
  mRefCount : Nat
  log : List RxEvent

/-- The answers of `usb_submit_urb`, 0 or a negative error. Within one lock region each
URB is submitted at most once. -/
abbrev UsbSubmitUrb := Fin bulkUrbList → Int

/-- A core that accepts every URB. -/
def submitOk : UsbSubmitUrb := fun _ => 0

namespace SQTIDevUSB

def setUrb (d : SQTIDevUSB) (i : Fin bulkUrbList) (u : SBulkUrb) : SQTIDevUSB :=
  { d with mBulkUrbList := Function.update d.mBulkUrbList i u }

def record (d : SQTIDevUSB) (e : RxEvent) : SQTIDevUSB := { d with log := d.log ++ [e] }

/-- `ResubmitBulkURB`, and `ReadBulkUSB` which it calls. -/
def resubmitBulkURB (d : SQTIDevUSB) (usbSubmitUrb : UsbSubmitUrb) (i : Fin bulkUrbList) :
    Int × SQTIDevUSB :=
  if usbSubmitUrb i = 0 then
    (0, (d.setUrb i { d.mBulkUrbList i with inFlight := true }).record (.submitted i))
  else (usbSubmitUrb i, d)

/-- The first node that is free takes `q`. -/
def fillFirst (q : SQueuedUrb) : List (Option SQueuedUrb) → Option (List (Option SQueuedUrb))
  | [] => none
  | none :: nodes => some (some q :: nodes)
  | some p :: nodes => (fillFirst q nodes).map (some p :: ·)

/-- The first node in use becomes free. -/
def clearFirst : List (Option SQueuedUrb) → Option (SQueuedUrb × List (Option SQueuedUrb))
  | [] => none
  | some q :: nodes => some (q, none :: nodes)
  | none :: nodes => (clearFirst nodes).map fun r => (r.1, none :: r.2)

/-- `AddToQueue`. The search for the entry by its transfer buffer finds the URB itself,
for no two entries share a buffer. -/
def addToQueue (d : SQTIDevUSB) (i : Fin bulkUrbList) : SQTIDevUSB :=
  let status := { (d.mBulkUrbList i).mUrbStatus with submitted := false }
  match fillFirst ⟨i, status⟩ d.mBulkUrbBuffList with
  | none => d
  | some nodes =>
    { d.setUrb i { d.mBulkUrbList i with mUrbStatus := status } with
      mBulkUrbBuffList := nodes
      mBulkUrbBuffListSize := d.mBulkUrbBuffListSize + 1 }

/-- The submission at the end of `PopFromQueueAndSubmit`. -/
def submitPopped (d : SQTIDevUSB) (usbSubmitUrb : UsbSubmitUrb) (i : Fin bulkUrbList) :
    SQTIDevUSB :=
  if (d.mBulkUrbList i).mUrbStatus.initialized = false ∨
      (d.mBulkUrbList i).mUrbStatus.submitted = true then d
  else
    let r := d.resubmitBulkURB usbSubmitUrb i
    let u := r.2.mBulkUrbList i
    if r.1 < 0 then r.2.setUrb i { u with mUrbStatus := .idle }
    else r.2.setUrb i { u with mUrbStatus := { u.mUrbStatus with submitted := true } }

/-- `PopFromQueueAndSubmit`. -/
def popFromQueueAndSubmit (usbSubmitUrb : UsbSubmitUrb) (d : SQTIDevUSB) : Bool × SQTIDevUSB :=
  if d.mBulkUrbBuffListSize = 0 then (false, d)
  else
    match clearFirst d.mBulkUrbBuffList with
    | none => (false, d)
    | some (q, nodes) =>
      let data := (d.mBulkUrbList q.mIndex).transferBuffer
      if readBufferFreeSpace d.mReadBuffCircular < data.length then (false, d)
      else
        -- the idle node goes to the end of the list
        let popped := { d with
          mBulkUrbBuffList := nodes.rotate 1
          mBulkUrbBuffListSize := d.mBulkUrbBuffListSize - 1 }
        match addToReadMemList d.mReadBuffCircular data with
        | (false, _) => (false, popped.addToQueue q.mIndex)
        | (true, ring) =>
          let stored := { popped with mReadBuffCircular := ring }.record (.stored q.mIndex data)
          (true, stored.submitPopped usbSubmitUrb q.mIndex)

/-- `while(PopFromQueueAndSubmit(pDev));` -/
def popAll (d : SQTIDevUSB) (usbSubmitUrb : UsbSubmitUrb) : SQTIDevUSB :=
  whileTrue (popFromQueueAndSubmit usbSubmitUrb) (d.mBulkUrbBuffListSize + 1) d

/-- `CopyFromReadMemList` as one step, with the waiting URBs it moves up at its end. -/
def copyFromReadMemList (d : SQTIDevUSB) (usbSubmitUrb : UsbSubmitUrb) (n : Nat)
    (copy : List UInt8 → Bool) : SQTIDevUSB :=
  let res := QtiUsb.copyFromReadMemList d.mReadBuffCircular n copy
  let d' := { d with mReadBuffCircular := res.ring }.record (.handed res.moved)
  if res.ret = 1 then d'.popAll usbSubmitUrb else d'

/-- The length `io_async_complete` asks for. A full buffer with equal indices counts as
empty here. -/
def aioLength (r : SReadMemListCircular) (a : IoRead) : Nat :=
  if r.mStartIdx ≤ r.mEndIdx then min a.iovCount (r.mEndIdx - r.mStartIdx)
  else min a.iovCount (r.mBufflen - (r.mStartIdx - r.mEndIdx))

/-- `io_async_complete` on a queued read. True means that the read stays queued. -/
def ioAsyncComplete (d : SQTIDevUSB) (usbSubmitUrb : UsbSubmitUrb) (a : IoRead) :
    Bool × SQTIDevUSB :=
  if d.mReadBuffCircular.mBufEmptyStatus then (true, d)
  else if a.kzalloc = false then (false, d)
  else (false, d.copyFromReadMemList usbSubmitUrb (aioLength d.mReadBuffCircular a) copyOk)

/-- The walk of `BlkCallback` over the queued async reads. The reads that stay queued are
answered beside the device. -/
def completeIoReads (usbSubmitUrb : UsbSubmitUrb) :
    SQTIDevUSB → List IoRead → List IoRead × SQTIDevUSB
  | d, [] => ([], d)
  | d, a :: as =>
    match d.ioAsyncComplete usbSubmitUrb a with
    | (true, d') =>
      let r := completeIoReads usbSubmitUrb d' as
      (a :: r.1, r.2)
    | (false, d') => completeIoReads usbSubmitUrb d' as

/-- `-EOVERFLOW`. -/
def negEoverflow : Int := -75

/-- `BlkCallback` under `mReadMemLock`: the bytes are stored or the URB is queued. The
answer says whether the URB is to be resubmitted. -/
def storeOrQueue (d : SQTIDevUSB) (usbSubmitUrb : UsbSubmitUrb) (i : Fin bulkUrbList) :
    Bool × SQTIDevUSB :=
  let data := (d.mBulkUrbList i).transferBuffer
  if 0 < d.mBulkUrbBuffListSize then (false, d.addToQueue i)
  else
    match addToReadMemList d.mReadBuffCircular data with
    | (false, _) => (false, d.addToQueue i)
    | (true, ring) =>
      let stored := { d with mReadBuffCircular := ring }.record (.stored i data)
      let r := stored.completeIoReads usbSubmitUrb stored.mIoReadBuffListActive
      (true, { r.2 with mIoReadBuffListActive := r.1 })

/-- The USB core gives URB `i` back with `data`. -/
def giveBack (d : SQTIDevUSB) (i : Fin bulkUrbList) (data : List UInt8) : SQTIDevUSB :=
  d.setUrb i { d.mBulkUrbList i with transferBuffer := data, inFlight := false }

/-- `BlkCallback` of URB `i`, which completed with `status` and brought `data`. -/
def blkCallback (d : SQTIDevUSB) (usbSubmitUrb : UsbSubmitUrb) (i : Fin bulkUrbList)
    (status : Int) (data : List UInt8) : SQTIDevUSB :=
  let d := d.giveBack i data
  if status ≠ 0 ∧ status ≠ negEoverflow then d
  else if data.length = 0 then (d.resubmitBulkURB usbSubmitUrb i).2
  -- no application has the device open
  else if d.mRefCount < 2 then (d.resubmitBulkURB usbSubmitUrb i).2
  else
    match (d.record (.completed i data)).storeOrQueue usbSubmitUrb i with
    | (false, d') => d'
    | (true, d') => (d'.resubmitBulkURB usbSubmitUrb i).2

/-- The loop of `SubmitAllReadUrb` from entry `i` on. -/
def submitFrom (usbSubmitUrb : UsbSubmitUrb) :
    SQTIDevUSB → List (Fin bulkUrbList) → SQTIDevUSB
  | d, [] => d
  | d, i :: is =>
    let u := d.mBulkUrbList i
    if u.mUrbStatus.initialized = false ∨ u.mUrbStatus.submitted = true then
      submitFrom usbSubmitUrb d is
    else
      let r := d.resubmitBulkURB usbSubmitUrb i
      let v := r.2.mBulkUrbList i
      if r.1 < 0 then r.2.setUrb i { v with mUrbStatus := ⟨false, false⟩ }
      else
        submitFrom usbSubmitUrb
          (r.2.setUrb i { v with mUrbStatus := { v.mUrbStatus with submitted := true } }) is

/-- `SubmitAllReadUrb`. -/
def submitAllReadUrb (d : SQTIDevUSB) (usbSubmitUrb : UsbSubmitUrb) : SQTIDevUSB :=
  submitFrom usbSubmitUrb d (List.finRange bulkUrbList)

end SQTIDevUSB

end QtiUsb
