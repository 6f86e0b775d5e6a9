-- SUMMARY: The client tables of a Gobi device, the lock of each, and the critical sections on one client.
import QcomUsb.Library.LockTrace
import QcomUsb.Library.WhileLoop
import QcomUsb.UsbNet.ClientStore

/-!
# Client tables

Each `sQMIDev` has a list of clients, `mClientMemList`, guarded by its `mClientMemLock`.
The functions here run in one thread. They leave a trace of what the thread did to the
locks, to the tables they guard, and of the control URBs it submitted.
-/

namespace UsbNet

open LockTrace WhileLoop

/-- What a thread does. `touch` is an access to the table of a device. -/
inductive TraceEvent where
  | mClientMemLock (qmiDev : NetDev) (e : LockTrace.Event)
  | usbSubmitURB (pWriteBuffer : List UInt8)
  deriving DecidableEq, Repr

/-- The part of a `sGobiUSBNet` that the client functions use. `nextPtr` is the next fresh
pointer. It and `trace` are not part of the driver. -/
structure SGobiUSBNet where
  mbQMIValid : Bool
  mbCdevIsInitialized : Bool
  mQMICTLTransactionID : UInt32
  mClientMemList : NetDev → List SClientMemList
  nextPtr : Nat
  trace : List TraceEvent

/-- The table with the memory of one client replaced. -/
def setClientMem (clientID : UInt16) (c' : SClientMemList) :
    List SClientMemList → List SClientMemList
  | [] => []
  | c :: cs => if c.mClientID = clientID then c' :: cs else c :: setClientMem clientID c' cs

theorem setClientMem_ids {clientID : UInt16} {c' : SClientMemList} (h : c'.mClientID = clientID)
    (cs : List SClientMemList) :
    (setClientMem clientID c' cs).map (·.mClientID) = cs.map (·.mClientID) := by
  induction cs with
  | nil => rfl
  | cons c cs ih =>
    unfold setClientMem
    by_cases hc : c.mClientID = clientID
    · rw [if_pos hc]
      simp [h, hc]
    · rw [if_neg hc]
      simp [ih]

theorem find_setClientMem {clientID : UInt16} {c c' : SClientMemList} (h : c'.mClientID = clientID)
    {cs : List SClientMemList} (hc : cs.find? (fun c => c.mClientID = clientID) = some c) :
    (setClientMem clientID c' cs).find? (fun c => c.mClientID = clientID) = some c' := by
  induction cs with
  | nil => cases hc
  | cons d cs ih =>
    unfold setClientMem
    by_cases hd : d.mClientID = clientID
    · rw [if_pos hd]
      simp [h]
    · rw [if_neg hd]
      simp only [List.find?_cons, hd, decide_false] at hc ⊢
      exact ih hc

namespace SGobiUSBNet

variable (s : SGobiUSBNet)

def emit (e : TraceEvent) : SGobiUSBNet := { s with trace := s.trace ++ [e] }

/-- One event of the lock of a device. -/
def onLock (q : NetDev) (e : LockTrace.Event) : SGobiUSBNet := s.emit (.mClientMemLock q e)

def setTable (q : NetDev) (t : List SClientMemList) : SGobiUSBNet :=
  { s with mClientMemList := fun p => if p = q then t else s.mClientMemList p }

/-- The ids in the table of a device. -/
def clientIDs (q : NetDev) : List UInt16 := (s.mClientMemList q).map (·.mClientID)

/-- What the thread did to the lock of a device. -/
def lockEvents (q : NetDev) : List LockTrace.Event :=
  s.trace.filterMap fun
    | .mClientMemLock p e => if p = q then some e else none
    | .usbSubmitURB _ => none

def lockStatus (q : NetDev) : LockTrace.Status := LockTrace.run .initial (s.lockEvents q)

/-- The buffers of the URBs the thread submitted. -/
def submissions : List (List UInt8) :=
  s.trace.filterMap fun
    | .mClientMemLock _ _ => none
    | .usbSubmitURB pWriteBuffer => some pWriteBuffer

/-- `FindClientMem`. It takes no lock itself. -/
def findClientMem (q : NetDev) (clientID : UInt16) : Option SClientMemList :=
  if s.mbQMIValid then (s.mClientMemList q).find? fun c => c.mClientID = clientID else none

/-- The functions on one client: in one critical section they find its memory and work on
it. They fail on an invalid device and on a client that is not there. -/
def withClientMem {α : Type} (q : NetDev) (clientID : UInt16) (failed : α)
    (op : SClientMemList → α × SClientMemList) : α × SGobiUSBNet :=
  if s.mbQMIValid then
    let s₁ := (s.onLock q .lock).onLock q .touch
    match s₁.findClientMem q clientID with
    | none => (failed, s₁.onLock q .unlock)
    | some c =>
      ((op c).1, (s₁.setTable q (setClientMem clientID (op c).2 (s₁.mClientMemList q))).onLock q .unlock)
  else (failed, s)

/-- `AddToURBList`. `alloc` is whether its `kzalloc` succeeds. -/
def addToURBList (q : NetDev) (clientID : UInt16) (pURB : Nat) (alloc : Bool) :
    Bool × SGobiUSBNet :=
  s.withClientMem q clientID false fun c => if alloc then (true, c.addToURBList pURB) else (false, c)

/-- `PopFromURBList`. -/
def popFromURBList (q : NetDev) (clientID : UInt16) : Option Nat × SGobiUSBNet :=
  s.withClientMem q clientID none fun c => c.popFromURBList

/-- `AddToNotifyList`. `alloc` is whether its `kzalloc` succeeds. -/
def addToNotifyList (q : NetDev) (clientID : UInt16) (e : SNotifyList) (alloc : Bool) :
    Bool × SGobiUSBNet :=
  s.withClientMem q clientID false fun c => if alloc then (true, c.addToNotifyList e) else (false, c)

/-- `NotifyAndPopNotifyList`. The notify function runs once the lock is released. -/
def notifyAndPopNotifyList (q : NetDev) (clientID transactionID : UInt16) : Bool × SGobiUSBNet :=
  s.withClientMem q clientID false fun c =>
    let r := c.notifyAndPopNotifyList transactionID
    (r.1.isSome, r.2)

/-- `PopFromReadMemList`. -/
def popFromReadMemList (q : NetDev) (clientID transactionID : UInt16) :
    Option SReadMemList × SGobiUSBNet :=
  s.withClientMem q clientID none fun c => c.popFromReadMemList transactionID

/-! ## What an event changes -/

@[simp] theorem clientIDs_onLock (q p : NetDev) (e : LockTrace.Event) :
    (s.onLock q e).clientIDs p = s.clientIDs p := rfl

@[simp] theorem findClientMem_onLock (q p : NetDev) (e : LockTrace.Event) (clientID : UInt16) :
    (s.onLock q e).findClientMem p clientID = s.findClientMem p clientID := rfl

@[simp] theorem submissions_onLock (q : NetDev) (e : LockTrace.Event) :
    (s.onLock q e).submissions = s.submissions := by
  simp [submissions, onLock, emit]

theorem lockStatus_onLock_self (q : NetDev) (e : LockTrace.Event) :
    (s.onLock q e).lockStatus q = next (s.lockStatus q) e := by
  simp [lockStatus, lockEvents, onLock, emit, LockTrace.run]

theorem lockStatus_onLock_of_ne {q p : NetDev} (h : q ≠ p) (e : LockTrace.Event) :
    (s.onLock q e).lockStatus p = s.lockStatus p := by
  simp [lockStatus, lockEvents, onLock, emit, h]

theorem lockStatus_usbSubmitURB (pWriteBuffer : List UInt8) (p : NetDev) :
    (s.emit (.usbSubmitURB pWriteBuffer)).lockStatus p = s.lockStatus p := by
  simp [lockStatus, lockEvents, emit]

@[simp] theorem lockStatus_setTable (q p : NetDev) (t : List SClientMemList) :
    (s.setTable q t).lockStatus p = s.lockStatus p := rfl

@[simp] theorem submissions_setTable (q : NetDev) (t : List SClientMemList) :
    (s.setTable q t).submissions = s.submissions := rfl

theorem clientIDs_setTable (q p : NetDev) (t : List SClientMemList) :
    (s.setTable q t).clientIDs p = if p = q then t.map (·.mClientID) else s.clientIDs p := by
  unfold clientIDs setTable
  by_cases h : p = q <;> simp [h]

theorem findClientMem_setTable_self (q : NetDev) (t : List SClientMemList) (clientID : UInt16)
    (h : s.mbQMIValid = true) :
    (s.setTable q t).findClientMem q clientID = t.find? fun c => c.mClientID = clientID := by
  unfold findClientMem setTable
  simp [h]

end SGobiUSBNet

/-! ## What a critical section changes -/

/-- The lock of a device is as before if it was free, the other locks are in any case, and
every table has the same clients. -/
structure Frame (q : NetDev) (s s' : SGobiUSBNet) : Prop where
  lockStatus : (s.lockStatus q).held = false → ∀ p, s'.lockStatus p = s.lockStatus p
  clientIDs : ∀ p, s'.clientIDs p = s.clientIDs p

/-- Nothing was submitted and the device is as valid as before. -/
structure Quiet (s s' : SGobiUSBNet) : Prop where
  submissions : s'.submissions = s.submissions
  mbQMIValid : s'.mbQMIValid = s.mbQMIValid

theorem Frame.rfl {q : NetDev} {s : SGobiUSBNet} : Frame q s s :=
  ⟨fun _ _ => Eq.refl _, fun _ => Eq.refl _⟩

theorem Frame.trans {q : NetDev} {s t u : SGobiUSBNet} (h : Frame q s t) (h' : Frame q t u) :
    Frame q s u := by
  refine ⟨fun hfree p => ?_, fun p => (h'.clientIDs p).trans (h.clientIDs p)⟩
  have hfree' : (t.lockStatus q).held = false := by rw [h.lockStatus hfree q]; exact hfree
  exact (h'.lockStatus hfree' p).trans (h.lockStatus hfree p)

theorem Quiet.rfl {s : SGobiUSBNet} : Quiet s s := ⟨Eq.refl _, Eq.refl _⟩

theorem Quiet.trans {s t u : SGobiUSBNet} (h : Quiet s t) (h' : Quiet t u) : Quiet s u :=
  ⟨h'.submissions.trans h.submissions, h'.mbQMIValid.trans h.mbQMIValid⟩

section WithClientMem

variable {α : Type} (s : SGobiUSBNet) (q : NetDev) (clientID : UInt16) (failed : α)
  (op : SClientMemList → α × SClientMemList)

/-- The three ways through a critical section. -/
theorem withClientMem_cases :
    (s.mbQMIValid = false ∧ s.withClientMem q clientID failed op = (failed, s)) ∨
    (s.mbQMIValid = true ∧ s.findClientMem q clientID = none ∧
      s.withClientMem q clientID failed op =
        (failed, ((s.onLock q .lock).onLock q .touch).onLock q .unlock)) ∨
    (s.mbQMIValid = true ∧ ∃ c, s.findClientMem q clientID = some c ∧
      s.withClientMem q clientID failed op =
        ((op c).1, (((s.onLock q .lock).onLock q .touch).setTable q
          (setClientMem clientID (op c).2 (s.mClientMemList q))).onLock q .unlock)) := by
  unfold SGobiUSBNet.withClientMem
  cases hv : s.mbQMIValid with
  | false => exact .inl ⟨rfl, by simp⟩
  | true =>
    cases hf : s.findClientMem q clientID with
    | none => exact .inr (.inl ⟨rfl, rfl, by simp [hf]⟩)
    | some c =>
      refine .inr (.inr ⟨rfl, c, rfl, ?_⟩)
      simp only [if_true, SGobiUSBNet.findClientMem_onLock, hf]
      rfl

/-- A section that takes the lock, touches the table and releases the lock. -/
theorem lockStatus_section {s s₁ : SGobiUSBNet} {q : NetDev}
    (hs₁ : ∀ p, s₁.lockStatus p = ((s.onLock q .lock).onLock q .touch).lockStatus p)
    (hfree : (s.lockStatus q).held = false) (p : NetDev) :
    (s₁.onLock q .unlock).lockStatus p = s.lockStatus p := by
  by_cases hp : q = p
  · subst hp
    rw [SGobiUSBNet.lockStatus_onLock_self, hs₁, SGobiUSBNet.lockStatus_onLock_self,
      SGobiUSBNet.lockStatus_onLock_self]
    exact critical_section hfree
  · rw [SGobiUSBNet.lockStatus_onLock_of_ne _ hp, hs₁, SGobiUSBNet.lockStatus_onLock_of_ne _ hp,
      SGobiUSBNet.lockStatus_onLock_of_ne _ hp]

variable {op}

theorem withClientMem_frame (hop : ∀ c, (op c).2.mClientID = c.mClientID) :
    Frame q s (s.withClientMem q clientID failed op).2 := by
  obtain ⟨-, h⟩ | ⟨-, -, h⟩ | ⟨-, c, hc, h⟩ := withClientMem_cases s q clientID failed op
  · rw [h]
    exact Frame.rfl
  · rw [h]
    exact ⟨fun hfree => lockStatus_section (fun _ => rfl) hfree, fun _ => rfl⟩
  · rw [h]
    refine ⟨fun hfree => lockStatus_section (fun _ => by simp) hfree, fun p => ?_⟩
    have hid : (op c).2.mClientID = clientID := by
      rw [hop c]
      unfold SGobiUSBNet.findClientMem at hc
      split at hc
      · simpa using List.find?_some hc
      · cases hc
    simp only [SGobiUSBNet.clientIDs_onLock, SGobiUSBNet.clientIDs_setTable]
    split
    · rename_i hp
      rw [setClientMem_ids hid, hp]
      rfl
    · rfl

theorem withClientMem_quiet : Quiet s (s.withClientMem q clientID failed op).2 := by
  obtain ⟨-, h⟩ | ⟨-, -, h⟩ | ⟨-, c, -, h⟩ := withClientMem_cases s q clientID failed op
  · rw [h]
    exact Quiet.rfl
  · rw [h]
    exact ⟨by simp, rfl⟩
  · rw [h]
    exact ⟨by simp, rfl⟩

theorem withClientMem_of_none (h : s.findClientMem q clientID = none) :
    (s.withClientMem q clientID failed op).1 = failed := by
  obtain ⟨-, h'⟩ | ⟨-, -, h'⟩ | ⟨-, c, hc, -⟩ := withClientMem_cases s q clientID failed op
  · rw [h']
  · rw [h']
  · rw [h] at hc
    cases hc

end WithClientMem

namespace SGobiUSBNet

variable (s : SGobiUSBNet) (q : NetDev) (clientID : UInt16)

theorem findClientMem_eq_none_iff :
    s.findClientMem q clientID = none ↔ s.mbQMIValid = false ∨ clientID ∉ s.clientIDs q := by
  unfold findClientMem clientIDs
  cases s.mbQMIValid <;> simp

theorem addToURBList_frame (pURB : Nat) (alloc : Bool) :
    Frame q s (s.addToURBList q clientID pURB alloc).2 :=
  withClientMem_frame s q clientID false fun c => by cases alloc <;> rfl

theorem popFromURBList_frame : Frame q s (s.popFromURBList q clientID).2 :=
  withClientMem_frame s q clientID none fun _ => rfl

theorem addToNotifyList_frame (e : SNotifyList) (alloc : Bool) :
    Frame q s (s.addToNotifyList q clientID e alloc).2 :=
  withClientMem_frame s q clientID false fun c => by cases alloc <;> rfl

theorem notifyAndPopNotifyList_frame (transactionID : UInt16) :
    Frame q s (s.notifyAndPopNotifyList q clientID transactionID).2 :=
  withClientMem_frame s q clientID false fun c => c.notifyAndPopNotifyList_mClientID transactionID

theorem popFromReadMemList_frame (transactionID : UInt16) :
    Frame q s (s.popFromReadMemList q clientID transactionID).2 :=
  withClientMem_frame s q clientID none fun c => c.popFromReadMemList_mClientID transactionID

/-! ## The loops that empty a client -/

/-- The size of a list of a client, 0 if there is no client. -/
def listLength (size : SClientMemList → Nat) : Nat := ((s.findClientMem q clientID).map size).getD 0

/-- `while (NotifyAndPopNotifyList(pDev, clientID, 0, QMIDev) == true);` -/
def notifyAll : SGobiUSBNet :=
  whileTrue (fun s => s.notifyAndPopNotifyList q clientID 0)
    (s.listLength q clientID (·.mReadNotifyList.length) + 1) s

/-- Whether there was a URB to kill and free. -/
def killURB : Bool × SGobiUSBNet :=
  ((s.popFromURBList q clientID).1.isSome, (s.popFromURBList q clientID).2)

def killAllURBs : SGobiUSBNet :=
  whileTrue (fun s => s.killURB q clientID) (s.listLength q clientID (·.mURBList.length) + 1) s

/-- Whether there was an unread message to free. -/
def freeData : Bool × SGobiUSBNet :=
  ((s.popFromReadMemList q clientID 0).1.isSome, (s.popFromReadMemList q clientID 0).2)

def freeUnreadData : SGobiUSBNet :=
  whileTrue (fun s => s.freeData q clientID) (s.listLength q clientID (·.mList.length) + 1) s

theorem listLength_of_find {q : NetDev} {clientID : UInt16} {c : SClientMemList}
    (size : SClientMemList → Nat) (h : s.findClientMem q clientID = some c) :
    s.listLength q clientID size = size c := by
  simp [listLength, h]

end SGobiUSBNet

/-- A section that succeeds shortens a list if its operation does. -/
theorem withClientMem_shortens {α : Type} (s : SGobiUSBNet) (q : NetDev) (clientID : UInt16)
    {failed : α} {op : SClientMemList → α × SClientMemList} (success : α → Bool)
    (size : SClientMemList → Nat) (hid : ∀ c, (op c).2.mClientID = c.mClientID)
    (hfailed : success failed = false)
    (hop : ∀ c, success (op c).1 = true → size (op c).2 < size c)
    (h : success (s.withClientMem q clientID failed op).1 = true) :
    (s.withClientMem q clientID failed op).2.listLength q clientID size <
      s.listLength q clientID size := by
  obtain ⟨-, hs⟩ | ⟨-, -, hs⟩ | ⟨hv, c, hc, hs⟩ := withClientMem_cases s q clientID failed op
  · rw [hs, hfailed] at h
    cases h
  · rw [hs, hfailed] at h
    cases h
  · rw [hs] at h ⊢
    have hfind : (s.mClientMemList q).find? (fun c => c.mClientID = clientID) = some c := by
      unfold SGobiUSBNet.findClientMem at hc
      rwa [if_pos hv] at hc
    have hc' : (op c).2.mClientID = clientID := by
      rw [hid c]
      simpa using List.find?_some hfind
    have hnew := find_setClientMem hc' hfind
    rw [SGobiUSBNet.listLength_of_find s size hc, SGobiUSBNet.listLength_of_find (c := (op c).2)]
    · exact hop c h
    · rw [SGobiUSBNet.findClientMem_onLock, SGobiUSBNet.findClientMem_setTable_self]
      · exact hnew
      · exact hv

namespace SGobiUSBNet

variable (s : SGobiUSBNet) (q : NetDev) (clientID : UInt16)

theorem notifyAll_frame : Frame q s (s.notifyAll q clientID) :=
  whileTrue_inv (fun t h => h.trans (t.notifyAndPopNotifyList_frame q clientID 0)) _ Frame.rfl

theorem killAllURBs_frame : Frame q s (s.killAllURBs q clientID) :=
  whileTrue_inv (fun t h => h.trans (t.popFromURBList_frame q clientID)) _ Frame.rfl

theorem freeUnreadData_frame : Frame q s (s.freeUnreadData q clientID) :=
  whileTrue_inv (fun t h => h.trans (t.popFromReadMemList_frame q clientID 0)) _ Frame.rfl

theorem notifyAll_quiet : Quiet s (s.notifyAll q clientID) :=
  whileTrue_inv (fun t h => h.trans (withClientMem_quiet t q clientID false)) _ Quiet.rfl

theorem killAllURBs_quiet : Quiet s (s.killAllURBs q clientID) :=
  whileTrue_inv (fun t h => h.trans (withClientMem_quiet t q clientID none)) _ Quiet.rfl

theorem freeUnreadData_quiet : Quiet s (s.freeUnreadData q clientID) :=
  whileTrue_inv (fun t h => h.trans (withClientMem_quiet t q clientID none)) _ Quiet.rfl

/-- Each of the loops ends by its own condition, never by the bound on its rounds. -/
theorem loops_exit :
    (∃ t : SGobiUSBNet, (t.notifyAndPopNotifyList q clientID 0).1 = false ∧
      s.notifyAll q clientID = (t.notifyAndPopNotifyList q clientID 0).2) ∧
    (∃ t : SGobiUSBNet, (t.killURB q clientID).1 = false ∧
      s.killAllURBs q clientID = (t.killURB q clientID).2) ∧
    (∃ t : SGobiUSBNet, (t.freeData q clientID).1 = false ∧
      s.freeUnreadData q clientID = (t.freeData q clientID).2) := by
  refine ⟨?_, ?_, ?_⟩
  · refine whileTrue_exits (fun t : SGobiUSBNet => t.listLength q clientID (·.mReadNotifyList.length))
      (fun t => ?_) (Nat.lt_succ_self _)
    exact withClientMem_shortens t q clientID id _
      (fun c => c.notifyAndPopNotifyList_mClientID 0) (Eq.refl _)
      fun c => c.notifyAndPopNotifyList_length 0
  · refine whileTrue_exits (fun t : SGobiUSBNet => t.listLength q clientID (·.mURBList.length))
      (fun t => ?_) (Nat.lt_succ_self _)
    exact withClientMem_shortens t q clientID Option.isSome _ (fun _ => Eq.refl _) (Eq.refl _)
      fun c => c.popFromURBList_length
  · refine whileTrue_exits (fun t : SGobiUSBNet => t.listLength q clientID (·.mList.length))
      (fun t => ?_) (Nat.lt_succ_self _)
    exact withClientMem_shortens t q clientID Option.isSome _
      (fun c => c.popFromReadMemList_mClientID 0) (Eq.refl _) fun c => c.popFromReadMemList_length 0

end SGobiUSBNet

end UsbNet
