-- SUMMARY: How a QMI client is released, and what that does to the lock of its table.
import QcomUsb.UsbNet.ClientTable

/-!
# Releasing a client

`ReleaseClientID` asks the modem to release the id, in an exchange of the QMICTL client of
the primary device, and then removes the client from its table. The first part may fail in
many ways, which a `ReleaseOutcome` fixes, and none of them stops the second.
-/

namespace UsbNet

open LockTrace

namespace Errno

def EINTR : Int := 4
def ENXIO : Int := 6
def EBADF : Int := 9
def ENOMEM : Int := 12
def EFAULT : Int := 14
def EINVAL : Int := 22
def ETIME : Int := 62
def ETOOMANYREFS : Int := 109

end Errno

/-- The service and client id of the QMI control client. -/
def qmictl : UInt16 := 0

/-! ## Messages -/

/-- A 16-bit field in the byte order of QMI and of the host. -/
def le16 (x : UInt16) : List UInt8 := [lowByte x, highByte x]

/-- `FillQMUX`, which writes the header over the first six bytes. `none` is `-ENOMEM`. -/
def fillQMUX (clientID : UInt16) (pBuffer : List UInt8) : Option (List UInt8) :=
  let buffSize := UInt16.ofNat pBuffer.length
  if buffSize < 6 then none
  else some ([1] ++ le16 (buffSize - 1) ++ [0, lowByte clientID, highByte clientID] ++
    pBuffer.drop 6)

/-- `QMICTLReleaseClientIDReq`, in a zeroed buffer of its own size. -/
def qmictlReleaseClientIDReq (transactionID : UInt8) (clientID : UInt16) : List UInt8 :=
  List.replicate 6 0 ++ [0x00, transactionID] ++ le16 0x0023 ++ le16 0x0005 ++ [0x01] ++
    le16 0x0002 ++ le16 clientID

/-! ## Outcomes -/

/-- What the kernel answers in one `WriteSync`: the allocations, and the results of
`usb_autopm_get_interface`, of `usb_submit_urb` and of the wait, the validity of the device
after it, and the status of the URB. -/
structure WriteOutcome where
  pWriteURB : Bool
  writeSetup : Bool
  resume : Int
  urbListEntry : Bool
  submit : Int
  wait : Int
  stillValid : Bool
  urbListEntryAgain : Bool
  status : Int

/-- What a reader that finds no message meets: no memory for its entry in the notify list,
a wait that expires or is interrupted, depending on `use_down_timeout`, or one that ends
because it is notified. Messages may arrive during the wait. -/
inductive ReadOutcome where
  | noMemory
  | expired (useDownTimeout : Bool) (arrived : List SReadMemList)
  | woken (arrived : List SReadMemList) (stillValid : Bool) (next : ReadOutcome)

/-- The outcome of a release request. The response is parsed only to log an error. -/
structure ReleaseOutcome where
  pWriteBuffer : Bool
  write : WriteOutcome
  read : ReadOutcome

/-- Messages that `ReadCallback` stores. -/
def SClientMemList.receive (arrived : List SReadMemList) (c : SClientMemList) : SClientMemList :=
  arrived.foldl addToReadMemList c

theorem SClientMemList.receive_mClientID (arrived : List SReadMemList) (c : SClientMemList) :
    (c.receive arrived).mClientID = c.mClientID := by
  unfold receive
  induction arrived generalizing c with
  | nil => rfl
  | cons m ms ih => exact ih (c.addToReadMemList m)

namespace SGobiUSBNet

/-- The device once `nextPtr` has been handed out. -/
def usePtr (s : SGobiUSBNet) : SGobiUSBNet := { s with nextPtr := s.nextPtr + 1 }

/-- The device after a wait, which it may not have survived. -/
def afterWait (stillValid : Bool) (s : SGobiUSBNet) : SGobiUSBNet :=
  { s with mbQMIValid := s.mbQMIValid && stillValid }

/-! ## Writing -/

/-- `WriteSync` once the wait for the URB is over. -/
def finishWrite (w : WriteOutcome) (q : NetDev) (clientID : UInt16) (pWriteURB writeBufferSize : Nat)
    (s : SGobiUSBNet) : Int × SGobiUSBNet :=
  if s.mbQMIValid = false then (-Errno.ENXIO, s)
  else
    let r := s.popFromURBList q clientID
    if r.1 ≠ some pWriteURB then
      (-Errno.EINVAL, (r.2.addToURBList q clientID pWriteURB w.urbListEntryAgain).2)
    else if w.wait ≠ 0 then (w.wait, r.2)
    else if w.status = 0 then (writeBufferSize, r.2)
    else (w.status, r.2)

/-- `WriteSync` once the URB is in the list of its client. -/
def submitWrite (w : WriteOutcome) (q : NetDev) (clientID : UInt16) (pWriteURB : Nat)
    (pWriteBuffer : List UInt8) (s : SGobiUSBNet) : Int × SGobiUSBNet :=
  if w.submit < 0 then (w.submit, (s.popFromURBList q clientID).2)
  else
    let s := s.emit (.usbSubmitURB pWriteBuffer)
    finishWrite w q clientID pWriteURB pWriteBuffer.length (s.afterWait w.stillValid)

/-- `WriteSync`. -/
def writeSync (w : WriteOutcome) (q : NetDev) (clientID : UInt16) (pWriteBuffer : List UInt8)
    (s : SGobiUSBNet) : Int × SGobiUSBNet :=
  if s.mbQMIValid = false then (-Errno.ENXIO, s)
  else if w.pWriteURB = false then (-Errno.ENOMEM, s)
  else
    match fillQMUX clientID pWriteBuffer with
    | none => (-Errno.ENOMEM, s)
    | some pWriteBuffer =>
      if w.writeSetup = false then (-Errno.ENOMEM, s)
      else if w.resume < 0 then (w.resume, s)
      else
        let pWriteURB := s.nextPtr
        let r := s.usePtr.addToURBList q clientID pWriteURB w.urbListEntry
        if r.1 = false then (-Errno.EINVAL, r.2)
        else submitWrite w q clientID pWriteURB pWriteBuffer r.2

/-! ## Reading -/

/-- A change of the memory of one client. -/
def mapClientMem (q : NetDev) (clientID : UInt16) (f : SClientMemList → SClientMemList)
    (s : SGobiUSBNet) : SGobiUSBNet :=
  s.setTable q ((s.mClientMemList q).map fun c => if c.mClientID = clientID then f c else c)

/-- The end of a wait that expired: the reader removes its own entry, under the lock, from
the client memory it found before its loop. -/
def withdraw (q : NetDev) (clientID : UInt16) (readSem : Nat) (s : SGobiUSBNet) : SGobiUSBNet :=
  (((s.onLock q .lock).onLock q .touch).mapClientMem q clientID
    (·.removeFromNotifyList readSem)).onLock q .unlock

/-- The loop of `ReadSyncTimeout`. -/
def readLoop (q : NetDev) (clientID transactionID : UInt16) :
    ReadOutcome → SGobiUSBNet → Except Int SReadMemList × SGobiUSBNet
  | outcome, s =>
    let r := s.popFromReadMemList q clientID transactionID
    match r.1 with
    | some m => (.ok m, r.2)
    | none =>
      let readSem := r.2.nextPtr
      let s := r.2.usePtr
      let entry : SNotifyList := ⟨.upSem, transactionID, readSem⟩
      match outcome with
      | .noMemory => (.error (-Errno.EFAULT), (s.addToNotifyList q clientID entry false).2)
      | .expired useDownTimeout arrived =>
        let r := s.addToNotifyList q clientID entry true
        if r.1 = false then (.error (-Errno.EFAULT), r.2)
        else
          let s := r.2.mapClientMem q clientID fun c => c.receive arrived
          (.error (if useDownTimeout then -Errno.ETIME else -Errno.EINTR),
            s.withdraw q clientID readSem)
      | .woken arrived stillValid next =>
        let r := s.addToNotifyList q clientID entry true
        if r.1 = false then (.error (-Errno.EFAULT), r.2)
        else
          -- the notification has taken the entry off the list
          let s := r.2.mapClientMem q clientID fun c =>
            (c.removeFromNotifyList readSem).receive arrived
          let s := s.afterWait stillValid
          if s.mbQMIValid = false then (.error (-Errno.ENXIO), s)
          else readLoop q clientID transactionID next s

/-- `ReadSyncTimeout`. It looks for the client before its loop without taking the lock. -/
def readSyncTimeout (outcome : ReadOutcome) (q : NetDev) (clientID transactionID : UInt16)
    (s : SGobiUSBNet) : Except Int SReadMemList × SGobiUSBNet :=
  if s.mbQMIValid = false then (.error (-Errno.ENXIO), s)
  else
    let s := s.onLock q .touch
    match s.findClientMem q clientID with
    | none => (.error (-Errno.ENXIO), s)
    | some _ => readLoop q clientID transactionID outcome s

/-! ## The request and the removal -/

/-- The next id of a QMICTL transaction: the low byte of a counter, and never 0. -/
def nextQMICTLTransactionID (s : SGobiUSBNet) : UInt8 × SGobiUSBNet :=
  let c := s.mQMICTLTransactionID + 1
  let c := if c.toUInt8 = 0 then c + 1 else c
  (c.toUInt8, { s with mQMICTLTransactionID := c })

/-- The first part of `ReleaseClientID`: the exchange with the modem, on the primary device. -/
def requestRelease (o : ReleaseOutcome) (clientID : UInt16) (s : SGobiUSBNet) : SGobiUSBNet :=
  if o.pWriteBuffer = false then s
  else
    let t := s.nextQMICTLTransactionID
    let r := writeSync o.write .mpNetDev qmictl (qmictlReleaseClientIDReq t.1 clientID) t.2
    if r.1 < 0 then r.2
    else (readSyncTimeout o.read .mpNetDev qmictl t.1.toUInt16 r.2).2

/-- The branch of the walk for a client with the id. It is entered with the lock held. -/
def removeClient (q : NetDev) (clientID : UInt16) (s : SGobiUSBNet) : SGobiUSBNet :=
  let s := s.onLock q .unlock
  let s := s.notifyAll q clientID
  let s := s.killAllURBs q clientID
  let s := s.freeUnreadData q clientID
  let s := (s.onLock q .lock).onLock q .touch
  (s.setTable q ((s.mClientMemList q).eraseP fun c => c.mClientID = clientID)).onLock q .unlock

/-- The walk of `ReleaseClientID` over the ids of a table. Each round reads an entry, and
then the link to the next one. -/
def walkClients (q : NetDev) (clientID : UInt16) : List UInt16 → SGobiUSBNet → SGobiUSBNet
  | [], s => s
  | id :: ids, s =>
    let s := s.onLock q .touch
    let s := if id = clientID then s.removeClient q clientID else s
    walkClients q clientID ids (s.onLock q .touch)

/-- The second part of `ReleaseClientID`. Nothing follows the walk: the lock taken here is
released only in `removeClient`. -/
def removeClients (q : NetDev) (clientID : UInt16) (s : SGobiUSBNet) : SGobiUSBNet :=
  ((s.onLock q .lock).onLock q .touch).walkClients q clientID (s.clientIDs q)

/-- `ReleaseClientID`. -/
def releaseClientID (o : ReleaseOutcome) (q : NetDev) (clientID : UInt16) (s : SGobiUSBNet) :
    SGobiUSBNet :=
  if s.mbQMIValid = false then s
  else
    let s := if clientID ≠ qmictl then s.requestRelease o clientID else s
    s.removeClients q clientID

end SGobiUSBNet

/-! ## The exchange leaves the locks free -/

/-- The thread holds no lock. -/
def LocksFree (s : SGobiUSBNet) : Prop := ∀ p, (s.lockStatus p).held = false

theorem Frame.locksFree {q : NetDev} {s s' : SGobiUSBNet} (h : Frame q s s') (hs : LocksFree s) :
    LocksFree s' := by
  intro p
  rw [h.lockStatus (hs q) p]
  exact hs p

namespace SGobiUSBNet

variable (s : SGobiUSBNet) (q : NetDev) (clientID : UInt16)

theorem usePtr_frame : Frame q s s.usePtr := ⟨fun _ _ => rfl, fun _ => rfl⟩

theorem afterWait_frame (stillValid : Bool) : Frame q s (s.afterWait stillValid) :=
  ⟨fun _ _ => rfl, fun _ => rfl⟩

theorem finishWrite_frame (w : WriteOutcome) (pWriteURB writeBufferSize : Nat) :
    Frame q s (finishWrite w q clientID pWriteURB writeBufferSize s).2 := by
  have hpop := s.popFromURBList_frame q clientID
  unfold finishWrite
  split
  · exact Frame.rfl
  · simp only
    split
    · exact hpop.trans (addToURBList_frame _ q clientID _ _)
    · split
      · exact hpop
      · split <;> exact hpop

theorem submitWrite_frame (w : WriteOutcome) (pWriteURB : Nat) (pWriteBuffer : List UInt8) :
    Frame q s (submitWrite w q clientID pWriteURB pWriteBuffer s).2 := by
  unfold submitWrite
  split
  · exact s.popFromURBList_frame q clientID
  · have hemit : Frame q s (s.emit (.usbSubmitURB pWriteBuffer)) :=
      ⟨fun _ p => s.lockStatus_usbSubmitURB pWriteBuffer p, fun _ => rfl⟩
    have hwait := afterWait_frame (s.emit (.usbSubmitURB pWriteBuffer)) q w.stillValid
    exact (hemit.trans hwait).trans (finishWrite_frame _ q clientID w _ _)

/-- A write gives up before it touches a table, or comes to the URB list of its client. -/
theorem writeSync_cases (w : WriteOutcome) (pWriteBuffer : List UInt8) :
    (∃ e < 0, writeSync w q clientID pWriteBuffer s = (e, s)) ∨
      ∃ pBuffer, writeSync w q clientID pWriteBuffer s =
        if (s.usePtr.addToURBList q clientID s.nextPtr w.urbListEntry).1 = false then
          (-Errno.EINVAL, (s.usePtr.addToURBList q clientID s.nextPtr w.urbListEntry).2)
        else
          submitWrite w q clientID s.nextPtr pBuffer
            (s.usePtr.addToURBList q clientID s.nextPtr w.urbListEntry).2 := by
  have hENXIO : -Errno.ENXIO < 0 := by decide
  have hENOMEM : -Errno.ENOMEM < 0 := by decide
  unfold writeSync
  split
  · exact .inl ⟨_, hENXIO, rfl⟩
  split
  · exact .inl ⟨_, hENOMEM, rfl⟩
  split
  · exact .inl ⟨_, hENOMEM, rfl⟩
  rename_i pBuffer _
  split
  · exact .inl ⟨_, hENOMEM, rfl⟩
  split
  · rename_i hresume
    exact .inl ⟨_, hresume, rfl⟩
  · exact .inr ⟨pBuffer, rfl⟩

theorem writeSync_frame (w : WriteOutcome) (pWriteBuffer : List UInt8) :
    Frame q s (writeSync w q clientID pWriteBuffer s).2 := by
  have hadd : Frame q s (s.usePtr.addToURBList q clientID s.nextPtr w.urbListEntry).2 :=
    (s.usePtr_frame q).trans (s.usePtr.addToURBList_frame q clientID _ _)
  obtain ⟨e, -, hout⟩ | ⟨pBuffer, hadded⟩ := s.writeSync_cases q clientID w pWriteBuffer
  · rw [hout]
    exact Frame.rfl
  · rw [hadded]
    split
    · exact hadd
    · exact hadd.trans (submitWrite_frame _ q clientID w _ _)

theorem mapClientMem_frame {f : SClientMemList → SClientMemList}
    (hf : ∀ c, (f c).mClientID = c.mClientID) : Frame q s (s.mapClientMem q clientID f) := by
  refine ⟨fun _ _ => rfl, fun p => ?_⟩
  unfold mapClientMem
  rw [clientIDs_setTable]
  split
  · rename_i hp
    subst hp
    rw [List.map_map, clientIDs]
    refine List.map_congr_left fun c _ => ?_
    simp only [Function.comp_apply]
    split
    · exact hf c
    · rfl
  · rfl

theorem withdraw_frame (readSem : Nat) : Frame q s (s.withdraw q clientID readSem) := by
  have hmap := mapClientMem_frame ((s.onLock q .lock).onLock q .touch) q clientID
    (f := (·.removeFromNotifyList readSem)) fun _ => rfl
  exact ⟨fun hfree => lockStatus_section (fun _ => rfl) hfree, fun p => hmap.clientIDs p⟩

theorem readLoop_frame (transactionID : UInt16) (outcome : ReadOutcome) :
    Frame q s (readLoop q clientID transactionID outcome s).2 := by
  induction outcome generalizing s with
  | noMemory =>
    have hpop := s.popFromReadMemList_frame q clientID transactionID
    unfold readLoop
    simp only
    split
    · exact hpop
    · exact (hpop.trans (usePtr_frame _ q)).trans (addToNotifyList_frame _ q clientID _ _)
  | expired useDownTimeout arrived =>
    have hpop := s.popFromReadMemList_frame q clientID transactionID
    unfold readLoop
    simp only
    generalize (s.popFromReadMemList q clientID transactionID).2 = s₁ at hpop ⊢
    split
    · exact hpop
    · have hadd := (hpop.trans (s₁.usePtr_frame q)).trans
        (s₁.usePtr.addToNotifyList_frame q clientID ⟨.upSem, transactionID, s₁.nextPtr⟩ true)
      split
      · exact hadd
      · have hreceive := hadd.trans (mapClientMem_frame _ q clientID
          fun c => c.receive_mClientID arrived)
        exact hreceive.trans (withdraw_frame _ q clientID _)
  | woken arrived stillValid next ih =>
    have hpop := s.popFromReadMemList_frame q clientID transactionID
    unfold readLoop
    simp only
    generalize (s.popFromReadMemList q clientID transactionID).2 = s₁ at hpop ⊢
    split
    · exact hpop
    · have hadd := (hpop.trans (s₁.usePtr_frame q)).trans
        (s₁.usePtr.addToNotifyList_frame q clientID ⟨.upSem, transactionID, s₁.nextPtr⟩ true)
      split
      · exact hadd
      · have hreceive := hadd.trans (mapClientMem_frame _ q clientID
          fun c => (c.removeFromNotifyList s₁.nextPtr).receive_mClientID arrived)
        have hwait := hreceive.trans (afterWait_frame _ q stillValid)
        split
        · exact hwait
        · exact hwait.trans (ih _)

theorem readSyncTimeout_clientIDs (outcome : ReadOutcome) (transactionID : UInt16) (p : NetDev) :
    (readSyncTimeout outcome q clientID transactionID s).2.clientIDs p = s.clientIDs p := by
  unfold readSyncTimeout
  split
  · rfl
  · simp only
    split
    · rfl
    · exact (readLoop_frame (s.onLock q .touch) q clientID transactionID outcome).clientIDs p

theorem touch_locksFree (hs : LocksFree s) : LocksFree (s.onLock q .touch) := by
  intro p
  by_cases hp : q = p
  · subst hp
    rw [lockStatus_onLock_self, next_touch_held]
    exact hs q
  · rw [lockStatus_onLock_of_ne s hp]
    exact hs p

/-- The early look for the client breaks the discipline, but holds no lock. -/
theorem readSyncTimeout_locksFree (outcome : ReadOutcome) (transactionID : UInt16)
    (hs : LocksFree s) : LocksFree (readSyncTimeout outcome q clientID transactionID s).2 := by
  have htouch := s.touch_locksFree q hs
  unfold readSyncTimeout
  split
  · exact hs
  · simp only
    split
    · exact htouch
    · exact (readLoop_frame _ q clientID transactionID outcome).locksFree htouch

theorem nextQMICTLTransactionID_frame : Frame q s s.nextQMICTLTransactionID.2 :=
  ⟨fun _ _ => rfl, fun _ => rfl⟩

theorem requestRelease_clientIDs (o : ReleaseOutcome) (p : NetDev) :
    (s.requestRelease o clientID).clientIDs p = s.clientIDs p := by
  unfold requestRelease
  split
  · rfl
  · have hwrite := (s.nextQMICTLTransactionID_frame .mpNetDev).trans
      (writeSync_frame _ .mpNetDev qmictl o.write
        (qmictlReleaseClientIDReq s.nextQMICTLTransactionID.1 clientID))
    simp only
    split
    · exact hwrite.clientIDs p
    · exact (readSyncTimeout_clientIDs _ .mpNetDev qmictl o.read _ p).trans (hwrite.clientIDs p)

theorem requestRelease_locksFree (o : ReleaseOutcome) (hs : LocksFree s) :
    LocksFree (s.requestRelease o clientID) := by
  unfold requestRelease
  split
  · exact hs
  · have hwrite := (s.nextQMICTLTransactionID_frame .mpNetDev).trans
      (writeSync_frame _ .mpNetDev qmictl o.write
        (qmictlReleaseClientIDReq s.nextQMICTLTransactionID.1 clientID))
    simp only
    split
    · exact hwrite.locksFree hs
    · exact readSyncTimeout_locksFree _ .mpNetDev qmictl o.read _ (hwrite.locksFree hs)

/-! ## The walk -/

/-- The lock is released on entry, and each later section finds it free. -/
theorem removeClient_lockStatus (p : NetDev) :
    (s.removeClient q clientID).lockStatus p = (s.onLock q .unlock).lockStatus p := by
  unfold removeClient
  simp only
  have hfree : ((s.onLock q .unlock).lockStatus q).held = false := by
    rw [lockStatus_onLock_self, next_unlock_held]
  generalize s.onLock q .unlock = s₁ at hfree ⊢
  have hloops : Frame q s₁ (((s₁.notifyAll q clientID).killAllURBs q clientID).freeUnreadData q
      clientID) :=
    ((s₁.notifyAll_frame q clientID).trans (killAllURBs_frame _ q clientID)).trans
      (freeUnreadData_frame _ q clientID)
  generalize ((s₁.notifyAll q clientID).killAllURBs q clientID).freeUnreadData q clientID = s₂
    at hloops ⊢
  have hfree₂ : (s₂.lockStatus q).held = false := by
    rw [hloops.lockStatus hfree q]
    exact hfree
  rw [lockStatus_section (s := s₂) (fun _ => by simp) hfree₂ p]
  exact hloops.lockStatus hfree p

theorem removeClient_free : ((s.removeClient q clientID).lockStatus q).held = false := by
  rw [removeClient_lockStatus, lockStatus_onLock_self, next_unlock_held]

/-- The walk uses the lock of its own table only. -/
theorem walkClients_lockStatus_of_ne {p : NetDev} (hp : q ≠ p) (ids : List UInt16) :
    (s.walkClients q clientID ids).lockStatus p = s.lockStatus p := by
  induction ids generalizing s with
  | nil => rfl
  | cons id ids ih =>
    unfold walkClients
    simp only
    rw [ih, lockStatus_onLock_of_ne _ hp]
    split
    · rw [removeClient_lockStatus, lockStatus_onLock_of_ne _ hp, lockStatus_onLock_of_ne _ hp]
    · exact lockStatus_onLock_of_ne s hp _

/-- A walk that meets no client with the id only reads. -/
theorem walkClients_lockStatus_of_not_mem {ids : List UInt16} (hid : clientID ∉ ids)
    (hheld : (s.lockStatus q).held = true) :
    (s.walkClients q clientID ids).lockStatus q = s.lockStatus q := by
  induction ids generalizing s with
  | nil => rfl
  | cons id ids ih =>
    rw [List.mem_cons, not_or] at hid
    obtain ⟨hne, hid⟩ := hid
    have htouch (t : SGobiUSBNet) (ht : (t.lockStatus q).held = true) :
        (t.onLock q .touch).lockStatus q = t.lockStatus q := by
      rw [lockStatus_onLock_self]
      exact next_touch_of_held ht
    have h₁ := htouch s hheld
    have h₂ := htouch (s.onLock q .touch) (by rw [h₁]; exact hheld)
    unfold walkClients
    simp only
    rw [if_neg (Ne.symm hne), ih _ hid (by rw [h₂, h₁]; exact hheld), h₂, h₁]

/-- The discipline is broken and the lock is free. -/
def Spoilt (s : SGobiUSBNet) : Prop := (s.lockStatus q).held = false ∧ (s.lockStatus q).ok = false

theorem spoilt_of_touch (hfree : (s.lockStatus q).held = false) :
    Spoilt q (s.onLock q .touch) := by
  unfold Spoilt
  rw [lockStatus_onLock_self]
  exact ⟨hfree, next_touch_of_free hfree⟩

/-- The walk ends with the lock free once it is, and with the discipline broken. -/
theorem walkClients_spoilt (ids : List UInt16) (hs : Spoilt q s) :
    Spoilt q (s.walkClients q clientID ids) := by
  induction ids generalizing s with
  | nil => exact hs
  | cons id ids ih =>
    have htouch := spoilt_of_touch s q hs.1
    unfold walkClients
    simp only
    refine ih _ (spoilt_of_touch _ q ?_)
    split
    · exact removeClient_free _ q clientID
    · exact htouch.1

/-- A walk that meets the client leaves the lock free, after a round that read the table
without it. -/
theorem walkClients_spoilt_of_mem {ids : List UInt16} (hid : clientID ∈ ids) :
    Spoilt q (s.walkClients q clientID ids) := by
  induction ids generalizing s with
  | nil => cases hid
  | cons id ids ih =>
    unfold walkClients
    simp only
    by_cases hne : id = clientID
    · rw [if_pos hne]
      exact walkClients_spoilt _ q clientID ids (spoilt_of_touch _ q (removeClient_free _ q clientID))
    · rw [if_neg hne]
      refine ih _ ?_
      rcases List.mem_cons.mp hid with h | h
      · exact absurd h.symm hne
      · exact h

/-- The removal leaves the lock of its table held if the client is not there, and the
discipline broken if it is. -/
theorem removeClients_lockStatus :
    (clientID ∉ s.clientIDs q → ((s.removeClients q clientID).lockStatus q).held = true) ∧
      (clientID ∈ s.clientIDs q → Spoilt q (s.removeClients q clientID)) := by
  unfold removeClients
  constructor
  · intro hid
    have hheld : (((s.onLock q .lock).onLock q .touch).lockStatus q).held = true := by
      rw [lockStatus_onLock_self, next_touch_held, lockStatus_onLock_self, next_lock_held]
    rw [walkClients_lockStatus_of_not_mem _ q clientID hid hheld]
    exact hheld
  · intro hid
    exact walkClients_spoilt_of_mem _ q clientID hid

/-- The device when `ReleaseClientID` comes to the removal. -/
theorem releaseClientID_of_valid (o : ReleaseOutcome) (hv : s.mbQMIValid = true) :
    ∃ s₁ : SGobiUSBNet, s.releaseClientID o q clientID = s₁.removeClients q clientID ∧
      (∀ p, s₁.clientIDs p = s.clientIDs p) ∧ (LocksFree s → LocksFree s₁) := by
  refine ⟨if clientID ≠ qmictl then s.requestRelease o clientID else s, ?_, ?_, ?_⟩
  · unfold releaseClientID
    rw [if_neg (by rw [hv]; exact Bool.noConfusion)]
  · intro p
    split
    · exact s.requestRelease_clientIDs clientID o p
    · rfl
  · intro hs
    split
    · exact s.requestRelease_locksFree clientID o hs
    · exact hs

/-- `ReleaseClientID` returns without a lock exactly if it found the client, or did
nothing. -/
theorem releaseClientID_locksFree_iff (o : ReleaseOutcome) (hs : LocksFree s) :
    LocksFree (s.releaseClientID o q clientID) ↔
      s.mbQMIValid = false ∨ clientID ∈ s.clientIDs q := by
  cases hv : s.mbQMIValid with
  | false =>
    unfold releaseClientID
    rw [if_pos hv]
    simp [hs]
  | true =>
    obtain ⟨s₁, hs₁, hids, hfree⟩ := s.releaseClientID_of_valid q clientID o hv
    obtain ⟨hout, hin⟩ := s₁.removeClients_lockStatus q clientID
    rw [hs₁]
    rw [hids q] at hout hin
    constructor
    · intro hafter
      refine .inr ?_
      by_contra hid
      have hheld := hout hid
      rw [hafter q] at hheld
      cases hheld
    · rintro (h | hid)
      · cases h
      · intro p
        by_cases hp : q = p
        · subst hp
          exact (hin hid).1
        · unfold removeClients
          rw [walkClients_lockStatus_of_ne _ q clientID hp, lockStatus_onLock_of_ne _ hp,
            lockStatus_onLock_of_ne _ hp]
          exact hfree hs p

/-- The device as a thread finds it that has done nothing yet. -/
def newTrace : SGobiUSBNet := { s with trace := [] }

/-- **`ReleaseClientID` keeps the discipline of `mClientMemLock` only where it does
nothing.** -/
theorem releaseClientID_disciplined_iff (o : ReleaseOutcome) :
    (∀ p, Disciplined ((s.newTrace.releaseClientID o q clientID).lockEvents p)) ↔
      s.mbQMIValid = false := by
  constructor
  · intro hdisc
    by_contra hv
    have hv : s.newTrace.mbQMIValid = true := Bool.eq_true_of_not_eq_false hv
    obtain ⟨s₁, hs₁, -, -⟩ := s.newTrace.releaseClientID_of_valid q clientID o hv
    obtain ⟨hout, hin⟩ := s₁.removeClients_lockStatus q clientID
    have hend : (s₁.removeClients q clientID).lockStatus q = .initial := by
      rw [← hs₁]
      exact hdisc q
    rw [hend] at hout
    by_cases hid : clientID ∈ s₁.clientIDs q
    · have hok := (hin hid).2
      rw [hend] at hok
      cases hok
    · cases hout hid
  · intro hv p
    have hdone : s.newTrace.releaseClientID o q clientID = s.newTrace := by
      unfold releaseClientID
      exact if_pos hv
    rw [hdone]
    rfl

end SGobiUSBNet

end UsbNet
