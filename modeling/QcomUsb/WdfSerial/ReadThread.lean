-- SUMMARY: The read thread of the serial driver and its environment as a machine, one step for each piece of code between two waits or lock operations.
import QcomUsb.Library.Transition
import QcomUsb.WdfSerial.ReadTimeout
import QcomUsb.WdfSerial.RingBuffer
import QcomUsb.WdfSerial.UrbLists

/-!
# The read thread

`QCRD_ReadRequestHandlerThread` waits for one of its events and runs the case of that
event. Reads, URB completions and the timer run beside it, also in the middle of a
case: one step of the thread is one round of a loop or the code between two
operations on the lists. The device is neither LPC nor VI.
-/

namespace WdfSerial

open Transition

/-! ## State -/

/-- The fields of `gVendorConfig` the thread reads, and `UrbReadBufferSize`. -/
structure VendorConfig where
  urbReadErrorMaxLimit : Nat
  numOfRetriesOnError : Nat
  urbReadBufferSize : Nat

/-- A read of the application. Reads are numbered in the order of their submission. -/
structure ReadRequest where
  seq : Nat
  length : Nat
deriving DecidableEq

/-- The status a read is completed with. -/
inductive ReadStatus
  | success | timeout | cancelled | failed
deriving DecidableEq

/-- A completed read with the bytes it returned. -/
structure ReadCompletion where
  request : ReadRequest
  status : ReadStatus
  bytes : List UInt8
deriving DecidableEq

/-- The events of `ReadThreadResumeEvents`. The event for a session total is left out. -/
inductive Event
  | deviceRemove | requestArrive | fileCreate | fileClose | clearBuffer
  | d0Exit | d0Entry | requestTimeout | requestCompletion | scanWaitMask
deriving DecidableEq

/-- The cases that call `QCRD_ClearBuffer`. -/
inductive ClearCase
  | fileClose | clearBuffer | d0Exit
deriving DecidableEq

/-- The cases that call `QCRD_SendReadUrbs`. -/
inductive SendCase
  | fileCreate | clearBuffer | d0Entry
deriving DecidableEq

/-- The two loops that send URBs. The second counts the rounds it has left. -/
inductive Sender
  | resend
  | sendReadUrbs (queueCount : Nat) (k : SendCase)
deriving DecidableEq

/-- What the thread does next. -/
inductive Control
  /-- It is about to wait. -/
  | wait
  /-- It holds the lock and looks at the head of the completion list. -/
  | completion
  /-- It has released the lock to copy a URB. -/
  | copy (u : Urb)
  /-- It has left the loop over the completion list and still holds the lock. -/
  | completionDone
  /-- It is about to release the lock after a failed copy, without holding it. -/
  | copyFailed
  /-- It has cleared the arrive event. -/
  | arrive
  /-- It looks whether bytes are left to be given to reads. -/
  | drain (useReadInterval : Bool)
  /-- It looks at the free list. -/
  | resend
  /-- It has taken a URB off the free list for one of the loops. -/
  | takenFree (u : Urb) (k : Sender)
  | insertPending (u : Urb) (k : Sender)
  | send (u : Urb) (k : Sender)
  | sendFailed (u : Urb) (k : Sender)
  | putBack (u : Urb) (k : Sender)
  | sendReadUrbs (queueCount : Nat) (k : SendCase)
  /-- It removes the head of an empty free list. -/
  | emptyFreeList
  | stopTarget (k : ClearCase)
  | clearRing (k : ClearCase)
  | clearLists (k : ClearCase)
  | timeout
  | exited
deriving DecidableEq

/-- The URB the thread has put on the pending list and not sent, or failed to send. -/
def Control.unsent : Control → Option Urb
  | .send u _ | .sendFailed u _ => some u
  | _ => none

/-- The thread holds `UrbReadListLock`. -/
def Control.locked : Control → Bool
  | .completion | .completionDone => true
  | _ => false

/-- The device context, the locals of the thread, and what an observer keeps: the
number of reads submitted, the reads completed, the payloads received, and whether the
completion case has given up on a URB. -/
structure State where
  control : Control
  readQueue : List ReadRequest
  timeoutReadQueue : List ReadRequest
  readRingBuffer : RingBuffer
  amountInInQueue : Nat
  urbs : UrbLists
  events : Event → Bool
  readTimer : Bool
  readTimeoutDpc : Bool
  timeouts : SerialTimeouts
  readTimeout : ReadTimeout
  bDeviceOpened : Bool
  bDeviceAwaken : Bool
  bBufferOverflow : Bool
  bDeviceGone : Bool
  devErrCnt : Nat
  submitted : Nat
  completed : List ReadCompletion
  received : List UInt8
  errorLimitReached : Bool

/-- What the completion routine learns: the status, the length in the I/O status, the
length the USB stack reports if it does, and the buffer. -/
structure CompletionParams where
  status : UrbStatus
  information : Nat
  pipeReadLength : Option Nat
  pReadBuffer : Nat → UInt8

/-- The `availableLength` of `QCRD_EvtIoReadCompletionAsync`. -/
def CompletionParams.availableLength (p : CompletionParams) : Nat :=
  match p.status, p.pipeReadLength with
  | .success, some usbLen => if usbLen = 0 then p.information else min p.information usbLen
  | _, _ => 0

/-- The URB a completion leaves. -/
def CompletionParams.urb (p : CompletionParams) (u : Urb) : Urb :=
  { u with status := p.status, readBuffer := Memory.slice p.pReadBuffer 0 p.availableLength }

/-- What can happen: the environment acts, or the thread does. -/
inductive Op
  | readArrives (length : Nat)
  | readCancelled (seq : Nat)
  | urbCompletes (id : Nat) (p : CompletionParams)
  | timerExpires
  | timeoutDpc
  | setTimeout (t : SerialTimeouts)
  | purgeAbort
  | setEvent (e : Event)
  | wake (e : Event)
  | thread (ok : Bool)

namespace State

/-- `KeSetEvent`. -/
def setEvent (s : State) (e : Event) : State := { s with events := Function.update s.events e true }

/-- `KeClearEvent`. -/
def clearEvent (s : State) (e : Event) : State :=
  { s with events := Function.update s.events e false }

/-- `KeSetTimer` on `ReadTimer`. -/
def setTimer (s : State) : State := { s with readTimer := true }

/-- `KeCancelTimer`. A DPC that is queued already stays queued. -/
def cancelTimer (s : State) : State := { s with readTimer := false }

/-- Continue at a control point. -/
def goto (s : State) (c : Control) : State := { s with control := c }

/-- `WdfRequestCompleteWithInformation`. -/
def completeRead (s : State) (r : ReadRequest) (status : ReadStatus) (bytes : List UInt8) : State :=
  { s with completed := s.completed ++ [⟨r, status, bytes⟩] }

/-- `QCUTIL_RingBufferBytesUsed(rxBuffer)`. -/
abbrev bytesUsed (s : State) : Nat := s.readRingBuffer.bytesUsed

/-- `QCUTIL_RingBufferBytesFree(rxBuffer)`. -/
abbrev bytesFree (s : State) : Nat := s.readRingBuffer.bytesFree

/-- The local `useReadInterval` of the arrive case. -/
def useReadInterval (s : State) : Bool :=
  s.readTimeout.bUseReadInterval && 0 < s.timeouts.readIntervalTimeout &&
    s.timeouts.readIntervalTimeout != maxUlong

/-- `QCUTIL_RingBufferRead` into the output buffer of a read, and the completion of the
read. A read that is not `mapped` has no output buffer, and nothing is copied. -/
def readRing (s : State) (r : ReadRequest) (mapped : Bool) (status : List UInt8 → ReadStatus) :
    State :=
  let result := if mapped then s.readRingBuffer.read r.length else ([], s.readRingBuffer)
  { s.completeRead r (status result.1) result.1 with
    readRingBuffer := result.2
    amountInInQueue := result.2.bytesUsed }

/-! ## The completion case -/

/-- A round of the loop over the completion list. -/
def completionStep (d : VendorConfig) (s : State) : State :=
  match s.urbs.completionList.entries with
  | [] => s.goto .completionDone
  | u :: _ =>
    let error := u.status ≠ .success ∧ u.status ≠ .cancelled
    let s := { s with devErrCnt := if error then s.devErrCnt + 1 else 0 }
    if error ∧ d.urbReadErrorMaxLimit ≤ s.devErrCnt then
      { s with errorLimitReached := true, control := .completionDone }
    else
      let s := { s with bDeviceGone := s.bDeviceGone || (u.status == UrbStatus.noSuchDevice) }
      if u.availableBytes = 0 then { s with urbs := s.urbs.recycle u }
      else if s.bytesFree < u.availableBytes then
        { s with bBufferOverflow := true, control := .completionDone }
      else { s with urbs := s.urbs.takeCompleted u, control := .copy u }

/-- The copy into the ring buffer. Afterwards the lock is taken again. -/
def copyStep (s : State) (u : Urb) : State :=
  let result := s.readRingBuffer.write u.readBuffer
  if result.1 then
    { s with
      readRingBuffer := result.2
      urbs := s.urbs.insertFree u
      amountInInQueue := result.2.bytesUsed
      control := .completion }
  else { s with urbs := s.urbs.insertFree u, control := .copyFailed }

/-- The end of the completion case: the lock is released, and the timer of a read that
waits for a gap is set again. -/
def completionDoneStep (s : State) : State :=
  let s := s.setEvent .requestArrive
  let s :=
    if s.bDeviceAwaken ∧ s.readTimeout.bUseReadInterval ∧ s.timeoutReadQueue ≠ [] ∧
        0 < s.timeouts.readIntervalTimeout then s.setTimer
    else s
  s.goto .wait

/-! ## The arrive case -/

/-- After the reads, the free list is sent unless the device is gone. -/
def startResend (s : State) : State := s.goto (if s.bDeviceGone then .wait else .resend)

/-- Move a read to the timeout queue. `forwarded` is the answer of `WdfRequestForwardToIoQueue`. -/
def forward (s : State) (r : ReadRequest) (forwarded : Bool) : State :=
  if forwarded then { s with timeoutReadQueue := s.timeoutReadQueue ++ [r] }
  else s.completeRead r .failed []

/-- The arrive case up to its loops. The interval timer is not set while the buffer is empty. -/
def arriveStep (s : State) (forwarded : Bool) : State :=
  if ¬ (s.bDeviceOpened ∧ s.bDeviceAwaken) then s.goto .wait
  else if s.bytesUsed = 0 then
    match s.timeoutReadQueue, s.readQueue with
    | [], r :: rest =>
      let s := { s with readQueue := rest }
      if s.useReadInterval then (s.forward r forwarded).startResend
      else
        match startReadTimeout s.timeouts s.readTimeout.ucTimeoutType r.length with
        | none => (s.completeRead r .success []).startResend
        | some armed => ((if armed then s.setTimer else s).forward r forwarded).startResend
    | _, _ => s.startResend
  else if s.useReadInterval ∧ s.timeoutReadQueue ≠ [] ∧ s.readQueue = [] then s.startResend
  else if s.useReadInterval then
    (s.cancelTimer.clearEvent .requestTimeout).goto (.drain true)
  else s.goto (.drain false)

/-- The next read of the drain loop. Only the other cases look into the timeout queue. -/
def nextRead (s : State) (useReadInterval : Bool) : Option (ReadRequest × State) :=
  if useReadInterval then
    match s.readQueue with
    | [] => none
    | r :: rest => some (r, { s with readQueue := rest })
  else
    match s.timeoutReadQueue, s.readQueue with
    | r :: rest, _ =>
      some (r, ({ s with timeoutReadQueue := rest }.cancelTimer.clearEvent .requestTimeout))
    | [], r :: rest => some (r, { s with readQueue := rest })
    | [], [] => none

/-- A round of the drain loop. -/
def drainStep (s : State) (useReadInterval mapped : Bool) : State :=
  if s.bytesUsed = 0 then s.startResend
  else
    match s.nextRead useReadInterval with
    | none => s.startResend
    | some (r, s) =>
      let s := s.readRing r mapped fun _ => if mapped then .success else .failed
      if mapped ∧ s.bBufferOverflow then
        { s with bBufferOverflow := false }.setEvent .requestCompletion
      else s

/-! ## Sending URBs -/

/-- A round of the loop that sends the free list again. -/
def resendStep (s : State) : State :=
  match s.urbs.freeList.entries with
  | [] => s.goto .wait
  | u :: _ => { s with urbs := s.urbs.removeFree u, control := .takenFree u .resend }

/-- `QCRD_SendReadUrbs` begins. -/
def startSendReadUrbs (s : State) (k : SendCase) : State :=
  s.goto (.sendReadUrbs s.urbs.freeList.listLength k)

/-- The end of a case after `QCRD_SendReadUrbs`. -/
def finishSend (s : State) : SendCase → State
  | .fileCreate | .clearBuffer => s.goto .wait
  | .d0Entry => (s.setEvent .requestArrive).goto .wait

/-- The rest of a case after `QCRD_ClearBuffer`. -/
def finishClear (s : State) : ClearCase → State
  | .fileClose => { s with bDeviceGone := false, devErrCnt := 0, control := .wait }
  | .clearBuffer => s.startSendReadUrbs .clearBuffer
  | .d0Exit =>
    { s.clearEvent .requestCompletion with
      bBufferOverflow := false, bDeviceGone := false, devErrCnt := 0, control := .wait }

/-- The head of the loop of `QCRD_SendReadUrbs`. -/
def sendReadUrbsStep (s : State) (queueCount : Nat) (k : SendCase) : State :=
  match queueCount, s.urbs.freeList.entries with
  | 0, _ => s.finishSend k
  | _ + 1, [] => s.goto .emptyFreeList
  | n + 1, u :: _ =>
    { s with urbs := s.urbs.removeFree u, control := .takenFree u (.sendReadUrbs n k) }

/-- A URB in hand is reset, or put back at once. The resend loop asks for room in the ring buffer
and ignores the answer of `QCRD_ResetReadUrb`. -/
def takenFreeStep (d : VendorConfig) (s : State) (u : Urb) (reset : Bool) : Sender → State
  | .resend =>
    if d.urbReadBufferSize ≤ s.bytesFree then s.goto (.insertPending u.reset .resend)
    else { s with urbs := s.urbs.insertFree u, control := .wait }
  | .sendReadUrbs n k =>
    if reset then s.goto (.insertPending u.reset (.sendReadUrbs n k))
    else { s with urbs := s.urbs.insertFree u.reset, control := .sendReadUrbs n k }

/-- `WdfRequestSend`. -/
def sendStep (s : State) (u : Urb) (sent : Bool) (k : Sender) : State :=
  if sent then
    match k with
    | .resend => { s with devErrCnt := 0, control := .resend }
    | .sendReadUrbs n k => s.goto (.sendReadUrbs n k)
  else s.goto (.sendFailed u k)

/-- A URB that was not sent goes back to the free list. -/
def putBackStep (d : VendorConfig) (s : State) (u : Urb) (k : Sender) : State :=
  let s := { s with urbs := s.urbs.insertFree u }
  match k with
  | .resend =>
    { s with
      devErrCnt := s.devErrCnt + 1
      control := if d.numOfRetriesOnError ≤ s.devErrCnt + 1 then .wait else .resend }
  | .sendReadUrbs n k => s.goto (.sendReadUrbs n k)

/-! ## The other cases -/

/-- The timeout case, its event cleared and the timer cancelled. -/
def timeoutStep (s : State) (mapped : Bool) : State :=
  match s.timeoutReadQueue with
  | [] => s.goto .wait
  | r :: rest =>
    let s := { s with timeoutReadQueue := rest }
    if (s.readTimeout.bUseReadInterval ∨ s.readTimeout.bReturnOnAnyChars) ∧ 0 < s.bytesUsed then
      (s.readRing r mapped fun bytes => if bytes = [] then .timeout else .success).goto .wait
    else (s.completeRead r .timeout []).goto .wait

/-- Complete all reads of the timeout queue as cancelled. -/
def purgeTimeoutReadQueue (s : State) : State :=
  { s with
    timeoutReadQueue := []
    completed := s.completed ++ s.timeoutReadQueue.map fun r => ⟨r, .cancelled, []⟩ }

/-- Complete all reads of the read queue as cancelled. -/
def purgeReadQueue (s : State) : State :=
  { s with
    readQueue := []
    completed := s.completed ++ s.readQueue.map fun r => ⟨r, .cancelled, []⟩ }

/-- The thread wakes up from an event and begins its case. -/
def wake (s : State) (e : Event) : State :=
  match e with
  | .deviceRemove => s.purgeReadQueue.goto .exited
  | .requestArrive => (s.clearEvent e).goto .arrive
  | .fileCreate => ({ s.clearEvent e with bDeviceOpened := true }).startSendReadUrbs .fileCreate
  | .fileClose =>
    ({ s.clearEvent e with bDeviceOpened := false }.cancelTimer.purgeTimeoutReadQueue).goto
      (.stopTarget .fileClose)
  | .clearBuffer => (s.clearEvent e).goto (.clearRing .clearBuffer)
  | .d0Exit => { s.clearEvent e with bDeviceAwaken := false, control := .stopTarget .d0Exit }
  | .d0Entry =>
    let s := { s.clearEvent e with bDeviceAwaken := true }
    if s.bDeviceOpened then s.startSendReadUrbs .d0Entry else s.finishSend .d0Entry
  | .requestTimeout => ((s.clearEvent e).cancelTimer).goto .timeout
  | .requestCompletion => (s.clearEvent e).goto .completion
  | .scanWaitMask => (s.clearEvent e).goto .wait

/-- One step of the thread. `ok` is the answer of the system to the call the step makes,
if it makes one. -/
def threadStep (d : VendorConfig) (s : State) (ok : Bool) : Option State :=
  match s.control with
  | .wait | .copyFailed | .emptyFreeList | .exited => none
  | .completion => some (s.completionStep d)
  | .copy u => some (s.copyStep u)
  | .completionDone => some s.completionDoneStep
  | .arrive => some (s.arriveStep ok)
  | .drain useReadInterval => some (s.drainStep useReadInterval ok)
  | .resend => some s.resendStep
  | .takenFree u k => some (s.takenFreeStep d u ok k)
  | .insertPending u k => some { s with urbs := s.urbs.insertPending u, control := .send u k }
  | .send u k => some (s.sendStep u ok k)
  | .sendFailed u k => some { s with urbs := s.urbs.removePending u, control := .putBack u k }
  | .putBack u k => some (s.putBackStep d u k)
  | .sendReadUrbs queueCount k => some (s.sendReadUrbsStep queueCount k)
  | .stopTarget k =>
    -- the target is stopped when all URBs have come back
    if s.urbs.pendingList.entries = [] then some (s.goto (.clearRing k)) else none
  | .clearRing k =>
    some { s with
      readRingBuffer := s.readRingBuffer.clear
      amountInInQueue := s.readRingBuffer.clear.bytesUsed
      control := .clearLists k }
  | .clearLists k => some ({ s with urbs := s.urbs.clearCompleted }.finishClear k)
  | .timeout => some (s.timeoutStep ok)

/-! ## The environment -/

/-- A read arrives in the read queue. `QCDSP_EvtIoReadQueueReady` runs when the queue was empty. -/
def readArrives (s : State) (length : Nat) : State :=
  let t := if s.readQueue = [] then s.setEvent .requestArrive else s
  { t with readQueue := s.readQueue ++ [⟨s.submitted, length⟩], submitted := s.submitted + 1 }

/-- A queued read is cancelled. -/
def readCancelled (s : State) (seq : Nat) : Option State :=
  match (s.timeoutReadQueue ++ s.readQueue).find? (·.seq = seq) with
  | none => none
  | some r =>
    some { s.completeRead r .cancelled [] with
      timeoutReadQueue := s.timeoutReadQueue.erase r
      readQueue := s.readQueue.erase r }

/-- `QCRD_EvtIoReadCompletionAsync`, for a URB that was sent. -/
def urbCompletes (s : State) (id : Nat) (p : CompletionParams) : Option State :=
  match s.urbs.pendingList.entries.find? (·.id = id) with
  | none => none
  | some u =>
    if s.control.locked ∨ s.control.unsent = some u then none
    else
      some ({ s with
        urbs := s.urbs.complete u (p.urb u)
        received := s.received ++ (p.urb u).readBuffer }.setEvent .requestCompletion)

/-- `QCSER_Purge` with `SERIAL_PURGE_RXABORT`. -/
def purgeAbort (s : State) : State :=
  let s := s.purgeReadQueue.cancelTimer
  match s.timeoutReadQueue with
  | [] => s
  | r :: rest => { s.completeRead r .cancelled [] with timeoutReadQueue := rest }

/-- One step. -/
def step (d : VendorConfig) (s : State) : Op → Option State
  | .readArrives length => some (s.readArrives length)
  | .readCancelled seq => s.readCancelled seq
  | .urbCompletes id p => s.urbCompletes id p
  | .timerExpires =>
    if s.readTimer then some { s.cancelTimer with readTimeoutDpc := true } else none
  | .timeoutDpc =>
    if s.readTimeoutDpc then some ({ s with readTimeoutDpc := false }.setEvent .requestTimeout)
    else none
  | .setTimeout t => some { s with timeouts := t, readTimeout := WdfSerial.setTimeout t }
  | .purgeAbort => some s.purgeAbort
  | .setEvent e => some (s.setEvent e)
  | .wake e => if s.control = .wait ∧ s.events e then some (s.wake e) else none
  | .thread ok => s.threadStep d ok

end State

/-- The read thread in its environment. -/
def readThread (d : VendorConfig) : Machine State Op Unit := fun s op =>
  (s.step d op).map fun s' => (s', ())

/-- The state `QCPNP_DeviceConfig` and `QCPNP_SetupIoThreadsAndQueues` leave, with `n` URBs and a
ring buffer of `capacity` bytes. -/
def setupState (n : Nat) (pBuffer : Nat → UInt8) (capacity : Nat) : State where
  control := .wait
  readQueue := []
  timeoutReadQueue := []
  readRingBuffer := RingBuffer.init pBuffer capacity
  amountInInQueue := 0
  urbs := UrbLists.setup n
  events := fun _ => false
  readTimer := false
  readTimeoutDpc := false
  timeouts := ⟨0, 0, 0⟩
  readTimeout := ⟨.undef, false, false⟩
  bDeviceOpened := false
  bDeviceAwaken := false
  bBufferOverflow := false
  bDeviceGone := false
  devErrCnt := 0
  submitted := 0
  completed := []
  received := []
  errorLimitReached := false

/-- The device enters D0, the file is opened, and three URBs are sent. The timeouts name a gap of
10 ms. -/
def openOps : List Op :=
  [.setEvent .d0Entry, .wake .d0Entry, .setEvent .fileCreate, .wake .requestArrive, .thread true,
    .wake .fileCreate, .thread true, .thread true, .thread true, .thread true, .thread true,
    .thread true, .thread true, .thread true, .thread true, .thread true, .thread true,
    .thread true, .thread true, .setTimeout ⟨10, 0, 0⟩]

end WdfSerial
