-- SUMMARY: Readers that copy to user memory with the read lock dropped, beside the bulk-in callback.
import QcomUsb.Usb.UrbAccounts

/-!
# Overlapping readers

`cpyToTargetIter` gives `mReadMemLock` up while it copies to user memory.
`CopyFromReadMemList` reads the indices before such a copy and moves the start on after it,
so a read is a sequence of steps here, and the callback and other readers come in between.
Synchronous reads line up in the notification list, iterator reads do not.
-/

namespace QtiUsb

open Memory Transition

/-- `eRxType` of the readers that drop the lock. An async read copies under it. -/
inductive ERxType
  | mem
  | iter
deriving DecidableEq

/-- The calls of `MoveDataToDestination` in `CopyFromReadMemList`, in the order of the
source. -/
inductive Leg
  | part
  | all
  | wrapped
  | leg1
  | leg2
  | leg2All
deriving DecidableEq

/-- A `CopyFromReadMemList` that moves a block of `size` bytes at index `from`. `endIdx` is
its local variable, `moved` are the bytes the reader got so far, and `copied` the length of
this block that reached the reader, once the copy is done. -/
structure Copy where
  eType : ERxType
  pDataSize : Nat
  endIdx : Nat
  leg : Leg
  start : Nat
  size : Nat
  moved : List UInt8
  copied : Option Nat
deriving DecidableEq

/-- The first block of a read of `n` bytes. -/
def firstBlock (r : SReadMemListCircular) (eType : ERxType) (n : Nat) : Option Copy :=
  if r.mStartIdx < r.mEndIdx then
    if n < r.mEndIdx - r.mStartIdx then some ⟨eType, n, r.mEndIdx, .part, r.mStartIdx, n, [], none⟩
    else some ⟨eType, n, r.mEndIdx, .all, r.mStartIdx, r.mEndIdx - r.mStartIdx, [], none⟩
  else if r.mBufEmptyStatus = false then
    if n ≤ r.mBufflen - r.mStartIdx then
      some ⟨eType, n, r.mEndIdx, .wrapped, r.mStartIdx, n, [], none⟩
    else some ⟨eType, n, r.mEndIdx, .leg1, r.mStartIdx, r.mBufflen - r.mStartIdx, [], none⟩
  else none

/-- What follows a block that was moved: the start moves on, or a second block follows. -/
def nextBlock (r : SReadMemListCircular) (c : Copy) : SReadMemListCircular ⊕ Copy :=
  match c.leg with
  | .part => .inl { r with mStartIdx := r.mStartIdx + c.pDataSize }
  | .all =>
    .inl { r with
      mStartIdx := c.endIdx
      mBufEmptyStatus := if c.endIdx = r.mEndIdx then true else r.mBufEmptyStatus }
  | .wrapped => .inl { r with mStartIdx := (r.mStartIdx + c.pDataSize) % r.mBufflen }
  | .leg1 =>
    -- the callback may have moved `mEndIdx`
    let leg2 := (c.pDataSize - c.size) % 2 ^ 32
    if leg2 < r.mEndIdx then
      .inr { c with endIdx := r.mEndIdx, leg := .leg2, start := 0, size := leg2, copied := none }
    else
      .inr { c with
        endIdx := r.mEndIdx, leg := .leg2All, start := 0, size := r.mEndIdx, copied := none }
  | .leg2 => .inl { r with mStartIdx := c.size }
  | .leg2All =>
    .inl { r with
      mStartIdx := c.endIdx
      mBufEmptyStatus := if c.endIdx = r.mEndIdx then true else r.mBufEmptyStatus }

/-- The blocks of a read that nobody interrupts: the buffer after it, and the bytes moved. -/
def uninterrupted (r : SReadMemListCircular) (c : Copy) : SReadMemListCircular × List UInt8 :=
  let block := slice r.mBulkInBuffer c.start c.size
  match nextBlock r c with
  | .inl r' => (r', block)
  | .inr c' =>
    match nextBlock r c' with
    | .inl r' => (r', block ++ slice r.mBulkInBuffer c'.start c'.size)
    | .inr _ => (r, [])

/-- Without interruption the blocks make up `CopyFromReadMemList` as one step. -/
theorem uninterrupted_eq {r : SReadMemListCircular} {eType : ERxType} {n : Nat} {c : Copy}
    (hc : firstBlock r eType n = some c) :
    uninterrupted r c =
      ((copyFromReadMemList r n copyOk).ring, (copyFromReadMemList r n copyOk).moved) := by
  unfold firstBlock at hc
  unfold copyFromReadMemList
  simp only [moveDataToDestination_copyOk, Bool.false_eq_true, if_false]
  split_ifs at hc with hlt hpart hs hwrap
  · cases hc
    simp [uninterrupted, nextBlock, hlt, hpart]
  · cases hc
    simp [uninterrupted, nextBlock, hlt, hpart]
  · cases hc
    simp [uninterrupted, nextBlock, hlt, hs, hwrap]
  · cases hc
    simp only [uninterrupted, nextBlock, hlt, hs, hwrap, if_true, if_false]
    by_cases hless : (n - (r.mBufflen - r.mStartIdx)) % 2 ^ 32 < r.mEndIdx
    · simp only [hless, if_true]
    · simp only [hless, if_false, if_true]

/-- `cpyToTargetIter` keeps the lock for an empty block. -/
def skipEmpty (r : SReadMemListCircular) (c : Copy) : SReadMemListCircular ⊕ Copy :=
  if c.size = 0 then nextBlock r c else .inr c

/-- A read goes on until it drops the lock or has no more blocks. -/
def untilUnlock (r : SReadMemListCircular) :
    SReadMemListCircular ⊕ Copy → SReadMemListCircular ⊕ Copy
  | .inl r' => .inl r'
  | .inr c => skipEmpty r c

/-- `copy_to_user` fails when it leaves bytes out, `copy_to_iter` when it moves none. -/
def Copy.bFailed (c : Copy) (copied : Nat) : Bool :=
  match c.eType with
  | .mem => copied ≠ c.size
  | .iter => copied = 0

/-- `QTIDEV_RX_NOTIFY_POOL_SZ`. -/
def qtidevRxNotifyPoolSz : Nat := 32

/-- An item of `mpReadNotifyList`, which is item `mIndex` of `mRxNotifyPool`. -/
structure SNotifyList where
  reader : Nat
  mIndex : Nat
  mUsrReqSize : Nat
  mInProcess : Bool
deriving DecidableEq

/-- `AllocateRxNotifyItem`. -/
def allocateRxNotifyItem (items : List SNotifyList) : Option Nat :=
  (List.range qtidevRxNotifyPoolSz).find? fun k => items.all (·.mIndex ≠ k)

/-- A device with its readers. `evtFill` are the pool items whose `QTI_RX_EVT_FILL` is set,
`copies` are the reads that copy with the lock dropped. -/
structure Readers where
  dev : SQTIDevUSB
  mpReadNotifyList : List SNotifyList
  evtFill : Nat → Bool
  copies : Nat → Option Copy

/-- What happens to the device and its readers. A reader is known by a number. -/
inductive ReadersOp
  | complete (i : Fin bulkUrbList) (status : Int) (data : List UInt8) (usbSubmitUrb : UsbSubmitUrb)
  | queueIo (a : IoRead)
  | readSyncBlk (reader n : Nat)
  | filled (reader : Nat) (usbSubmitUrb : UsbSubmitUrb)
  | notFilled (reader : Nat)
  | readFromRingbuff (reader n : Nat) (usbSubmitUrb : UsbSubmitUrb)
  | copy (reader copied : Nat)
  | relock (reader : Nat) (usbSubmitUrb : UsbSubmitUrb)

namespace Readers

/-- Nobody copies with the lock dropped. -/
def Quiet (s : Readers) : Prop := ∀ reader, s.copies reader = none

def setCopy (s : Readers) (reader : Nat) (c : Option Copy) : Readers :=
  { s with copies := Function.update s.copies reader c }

/-- `NotifyUserRequest` while the read buffer is `r`. No event stands for NULL. -/
def notifyUserRequest (s : Readers) (r : SReadMemListCircular) (evt : Option Nat) : Readers :=
  match s.mpReadNotifyList with
  | [] => s
  | item :: items =>
    if r.mBufflen - readBufferFreeSpace r = 0 then s
    else if (evt = none ∨ evt = some item.mIndex) ∧ item.mInProcess = false then
      { s with
        mpReadNotifyList := { item with mInProcess := true } :: items
        evtFill := Function.update s.evtFill item.mIndex true }
    else s

/-- The end of `ReadSyncBlk`: `RemoveNotification` and a notification to the next reader.
Iterator reads are not in the list. -/
def leave (s : Readers) (reader : Nat) (eType : ERxType) : Readers :=
  match eType with
  | .mem =>
    { s with mpReadNotifyList := s.mpReadNotifyList.eraseP (·.reader = reader) }.notifyUserRequest
      s.dev.mReadBuffCircular none
  | .iter => s

/-- `CopyFromReadMemList` returns true. -/
def returnTrue (s : Readers) (reader : Nat) (c : Copy) (ring : SReadMemListCircular)
    (usbSubmitUrb : UsbSubmitUrb) : Readers :=
  let dev := { s.dev with mReadBuffCircular := ring }.record (.handed c.moved)
  ({ s with dev := dev.popAll usbSubmitUrb }.setCopy reader none).leave reader c.eType

/-- `CopyFromReadMemList` returns -EFAULT. -/
def returnFault (s : Readers) (reader : Nat) (c : Copy) : Readers :=
  ({ s with dev := s.dev.record (.handed c.moved) }.setCopy reader none).leave reader c.eType

/-- A read of block `c` goes on from `next`. -/
def goOn (s : Readers) (reader : Nat) (c : Copy) (usbSubmitUrb : UsbSubmitUrb) :
    SReadMemListCircular ⊕ Copy → Readers
  | .inl ring => s.returnTrue reader c ring usbSubmitUrb
  | .inr c' => s.setCopy reader (some c')

/-- `CopyFromReadMemList` up to the first copy with the lock dropped. -/
def enter (s : Readers) (reader : Nat) (eType : ERxType) (n : Nat) (usbSubmitUrb : UsbSubmitUrb) :
    Readers :=
  let r := s.dev.mReadBuffCircular
  match firstBlock r eType n with
  | none => s.leave reader eType
  | some c => s.goOn reader c usbSubmitUrb (untilUnlock r (skipEmpty r c))

/-- `BlkCallback` stores the bytes of the URB at once. -/
def StoresAtOnce (s : Readers) (status : Int) (data : List UInt8) : Prop :=
  (status = 0 ∨ status = SQTIDevUSB.negEoverflow) ∧ data.length ≠ 0 ∧ 2 ≤ s.dev.mRefCount ∧
    s.dev.mBulkUrbBuffListSize = 0 ∧ (addToReadMemList s.dev.mReadBuffCircular data).1 = true

instance (s : Readers) (status : Int) (data : List UInt8) :
    Decidable (s.StoresAtOnce status data) :=
  inferInstanceAs (Decidable (_ ∧ _))

/-- The item of a synchronous reader. -/
def item (s : Readers) (reader : Nat) : Option SNotifyList :=
  s.mpReadNotifyList.find? (·.reader = reader)

/-- A reader that is neither in the list nor copies can start a read. -/
def idle (s : Readers) (reader : Nat) : Bool :=
  (s.copies reader).isNone && (s.item reader).isNone

end Readers

open Readers

/-- One step. Only a URB in flight can complete, and only a copy that is done can retake the
lock. The wait of a synchronous reader may end without its event, which then stays as it is. -/
def readersStep : Machine Readers ReadersOp Unit
  | s, .complete i status data usbSubmitUrb =>
    if (s.dev.mBulkUrbList i).inFlight then
      let s' := { s with dev := s.dev.blkCallback usbSubmitUrb i status data }
      if s.StoresAtOnce status data then
        some (s'.notifyUserRequest (addToReadMemList s.dev.mReadBuffCircular data).2 none, ())
      else some (s', ())
    else none
  | s, .queueIo a =>
    some ({ s with dev := { s.dev with
      mIoReadBuffListActive := s.dev.mIoReadBuffListActive ++ [a] } }, ())
  | s, .readSyncBlk reader n =>
    if s.idle reader = false then none
    -- `UserspaceQTIDevRead` refuses a read of no bytes
    else if n = 0 then some (s, ())
    else
      match allocateRxNotifyItem s.mpReadNotifyList with
      | none => some (s, ())
      | some k =>
        let s' := { s with mpReadNotifyList := s.mpReadNotifyList ++ [SNotifyList.mk reader k n false] }
        some (s'.notifyUserRequest s.dev.mReadBuffCircular (some k), ())
  | s, .filled reader usbSubmitUrb =>
    match s.item reader with
    | none => none
    | some item =>
      if s.evtFill item.mIndex = true ∧ s.copies reader = none then
        let s' := { s with evtFill := Function.update s.evtFill item.mIndex false }
        some (s'.enter reader .mem item.mUsrReqSize usbSubmitUrb, ())
      else none
  | s, .notFilled reader =>
    if (s.item reader).isSome ∧ s.copies reader = none then some (s.leave reader .mem, ())
    else none
  | s, .readFromRingbuff reader n usbSubmitUrb =>
    if s.idle reader = false then none
    else if s.dev.mReadBuffCircular.mBufEmptyStatus then some (s, ())
    else some (s.enter reader .iter n usbSubmitUrb, ())
  | s, .copy reader copied =>
    match s.copies reader with
    | none => none
    | some c =>
      if c.copied = none ∧ copied ≤ c.size then
        let block := slice s.dev.mReadBuffCircular.mBulkInBuffer c.start copied
        some (s.setCopy reader
          (some { c with moved := c.moved ++ block, copied := some copied }), ())
      else none
  | s, .relock reader usbSubmitUrb =>
    match s.copies reader with
    | none => none
    | some c =>
      match c.copied with
      | none => none
      | some copied =>
        if c.bFailed copied then some (s.returnFault reader c, ())
        else
          let r := s.dev.mReadBuffCircular
          some (s.goOn reader c usbSubmitUrb (untilUnlock r (nextBlock r c)), ())

end QtiUsb
