-- SUMMARY: How the clients of a device are created, and what their tables look like afterwards.
import QcomUsb.UsbNet.Release

/-!
# Registration

`RegisterQMIDevice` creates the QMICTL client of the primary device first. `GetClientID`
then adds clients to the tables of all devices, in exchanges of that first client.
-/

namespace UsbNet

open LockTrace

/-- `QMICTLGetClientIDReq`, in a zeroed buffer of its own size. -/
def qmictlGetClientIDReq (transactionID serviceType : UInt8) : List UInt8 :=
  List.replicate 6 0 ++ [0x00, transactionID] ++ le16 0x0022 ++ le16 0x0004 ++ [0x01] ++
    le16 0x0001 ++ [serviceType]

/-- The outcome of a `GetClientID`. `resp` is what `QMICTLGetClientIDResp` finds in the
message read. -/
structure GetClientOutcome where
  pWriteBuffer : Bool
  write : WriteOutcome
  read : ReadOutcome
  resp : Except Int UInt16
  newEntry : Bool

namespace SGobiUSBNet

/-- The exchange of `GetClientID`. -/
def requestClientID (o : GetClientOutcome) (serviceType : UInt8) (s : SGobiUSBNet) :
    Except Int UInt16 × SGobiUSBNet :=
  if o.pWriteBuffer = false then (.error (-Errno.ENOMEM), s)
  else
    let t := s.nextQMICTLTransactionID
    let w := writeSync o.write .mpNetDev qmictl (qmictlGetClientIDReq t.1 serviceType) t.2
    if w.1 < 0 then (.error w.1, w.2)
    else
      let r := readSyncTimeout o.read .mpNetDev qmictl t.1.toUInt16 w.2
      match r.1 with
      | .error e => (.error e, r.2)
      | .ok _ => (o.resp, r.2)

/-- `GetClientID` once the id is known. Only the insertion is under the lock. -/
def insertClient (newEntry : Bool) (q : NetDev) (clientID : UInt16) (s : SGobiUSBNet) :
    Except Int UInt16 × SGobiUSBNet :=
  let s := s.onLock q .touch
  if (s.findClientMem q clientID).isSome then (.error (-Errno.ETOOMANYREFS), s)
  else if newEntry = false then (.error (-Errno.ENOMEM), s)
  else
    let s := (s.onLock q .lock).onLock q .touch
    (.ok clientID,
      (s.setTable q (s.mClientMemList q ++ [SClientMemList.new clientID])).onLock q .unlock)

/-- `GetClientID`. -/
def getClientID (o : GetClientOutcome) (q : NetDev) (serviceType : UInt8) (s : SGobiUSBNet) :
    Except Int UInt16 × SGobiUSBNet :=
  if s.mbQMIValid = false then (.error (-Errno.ENXIO), s)
  else
    let r := if serviceType ≠ 0 then s.requestClientID o serviceType else (.ok 0, s)
    match r.1 with
    | .error e => (.error e, r.2)
    | .ok clientID => r.2.insertClient o.newEntry q clientID

/-- The device as `RegisterQMIDevice` begins with it. -/
def unregistered : SGobiUSBNet where
  mbQMIValid := true
  mbCdevIsInitialized := false
  mQMICTLTransactionID := 0
  mClientMemList _ := []
  nextPtr := 0
  trace := []

end SGobiUSBNet

/-- A device whose clients were created by `GetClientID`, QMICTL first. Whatever else the
driver does in between keeps the clients in their tables. -/
inductive Created : SGobiUSBNet → Prop where
  | registered (o : GetClientOutcome) (h : (SGobiUSBNet.unregistered.getClientID o .mpNetDev 0).1 = .ok 0) :
      Created (SGobiUSBNet.unregistered.getClientID o .mpNetDev 0).2
  | getClientID {s : SGobiUSBNet} (o : GetClientOutcome) (q : NetDev) (serviceType : UInt8)
      (h : Created s) : Created (s.getClientID o q serviceType).2
  | work {s s' : SGobiUSBNet} (h : Created s) (hids : ∀ q, s'.clientIDs q = s.clientIDs q) :
      Created s'

namespace SGobiUSBNet

variable (s : SGobiUSBNet) (q : NetDev) (clientID : UInt16)

/-! ## What `GetClientID` makes of the tables -/

theorem readLoop_of_some (transactionID : UInt16) (outcome : ReadOutcome) {m : SReadMemList}
    (h : (s.popFromReadMemList q clientID transactionID).1 = some m) :
    readLoop q clientID transactionID outcome s =
      (.ok m, (s.popFromReadMemList q clientID transactionID).2) := by
  cases outcome with
  | noMemory | expired useDownTimeout arrived | woken arrived stillValid next =>
    unfold readLoop
    simp only [h]

theorem popFromReadMemList_some_valid {transactionID : UInt16} {m : SReadMemList}
    (h : (s.popFromReadMemList q clientID transactionID).1 = some m) :
    (s.popFromReadMemList q clientID transactionID).2.mbQMIValid = true := by
  have hquiet : Quiet s (s.popFromReadMemList q clientID transactionID).2 :=
    withClientMem_quiet s q clientID none
  rw [hquiet.mbQMIValid]
  by_contra hv
  have hnone : s.findClientMem q clientID = none :=
    (s.findClientMem_eq_none_iff q clientID).mpr (.inl (Bool.eq_false_of_not_eq_true hv))
  have hfailed : (s.popFromReadMemList q clientID transactionID).1 = none :=
    withClientMem_of_none s q clientID none hnone
  rw [hfailed] at h
  cases h

/-- A message is read only from a valid device. -/
theorem readLoop_ok_valid (transactionID : UInt16) (outcome : ReadOutcome) {m : SReadMemList}
    (h : (readLoop q clientID transactionID outcome s).1 = .ok m) :
    (readLoop q clientID transactionID outcome s).2.mbQMIValid = true := by
  induction outcome generalizing s with
  | noMemory =>
    cases hpop : (s.popFromReadMemList q clientID transactionID).1 with
    | some m' =>
      rw [readLoop_of_some s q clientID transactionID _ hpop]
      exact s.popFromReadMemList_some_valid q clientID hpop
    | none =>
      unfold readLoop at h
      simp only [hpop] at h
      cases h
  | expired useDownTimeout arrived =>
    cases hpop : (s.popFromReadMemList q clientID transactionID).1 with
    | some m' =>
      rw [readLoop_of_some s q clientID transactionID _ hpop]
      exact s.popFromReadMemList_some_valid q clientID hpop
    | none =>
      unfold readLoop at h
      simp only [hpop] at h
      split at h <;> cases h
  | woken arrived stillValid next ih =>
    cases hpop : (s.popFromReadMemList q clientID transactionID).1 with
    | some m' =>
      rw [readLoop_of_some s q clientID transactionID _ hpop]
      exact s.popFromReadMemList_some_valid q clientID hpop
    | none =>
      unfold readLoop at h ⊢
      simp only [hpop] at h ⊢
      split at h
      · cases h
      · rename_i hadd
        rw [if_neg hadd]
        split at h
        · cases h
        · rename_i hvalid
          rw [if_neg hvalid]
          exact ih _ h

theorem readSyncTimeout_ok_valid (outcome : ReadOutcome) (transactionID : UInt16) {m : SReadMemList}
    (h : (readSyncTimeout outcome q clientID transactionID s).1 = .ok m) :
    (readSyncTimeout outcome q clientID transactionID s).2.mbQMIValid = true := by
  unfold readSyncTimeout at h ⊢
  by_cases hv : s.mbQMIValid = false
  · rw [if_pos hv] at h
    cases h
  · rw [if_neg hv] at h ⊢
    simp only at h ⊢
    cases hf : (s.onLock q .touch).findClientMem q clientID with
    | none =>
      simp only [hf] at h
      cases h
    | some c =>
      simp only [hf] at h ⊢
      exact readLoop_ok_valid _ q clientID transactionID outcome h

theorem requestClientID_ok_valid (o : GetClientOutcome) (serviceType : UInt8) {id : UInt16}
    (h : (s.requestClientID o serviceType).1 = .ok id) :
    (s.requestClientID o serviceType).2.mbQMIValid = true := by
  unfold requestClientID at h ⊢
  by_cases hbuf : o.pWriteBuffer = false
  · rw [if_pos hbuf] at h
    cases h
  · rw [if_neg hbuf] at h ⊢
    simp only at h ⊢
    generalize writeSync o.write .mpNetDev qmictl
      (qmictlGetClientIDReq s.nextQMICTLTransactionID.1 serviceType)
      s.nextQMICTLTransactionID.2 = w at h ⊢
    by_cases hw : w.1 < 0
    · rw [if_pos hw] at h
      cases h
    · rw [if_neg hw] at h ⊢
      cases hr : (readSyncTimeout o.read .mpNetDev qmictl s.nextQMICTLTransactionID.1.toUInt16
          w.2).1 with
      | error e =>
        simp only [hr] at h
        cases h
      | ok m =>
        exact readSyncTimeout_ok_valid w.2 .mpNetDev qmictl o.read _ hr

theorem requestClientID_clientIDs (o : GetClientOutcome) (serviceType : UInt8) (p : NetDev) :
    (s.requestClientID o serviceType).2.clientIDs p = s.clientIDs p := by
  have hwrite := (s.nextQMICTLTransactionID_frame .mpNetDev).trans
    (writeSync_frame _ .mpNetDev qmictl o.write
      (qmictlGetClientIDReq s.nextQMICTLTransactionID.1 serviceType))
  unfold requestClientID
  split
  · rfl
  · simp only
    split
    · exact hwrite.clientIDs p
    · split
      · exact (readSyncTimeout_clientIDs _ .mpNetDev qmictl o.read _ p).trans (hwrite.clientIDs p)
      · exact (readSyncTimeout_clientIDs _ .mpNetDev qmictl o.read _ p).trans (hwrite.clientIDs p)

/-- What `GetClientID` does to the tables: it fails and does nothing, or it appends a new id
to its own. -/
def Appends (q : NetDev) (s : SGobiUSBNet) (r : Except Int UInt16 × SGobiUSBNet) : Prop :=
  ((∃ e, r.1 = .error e) ∧ ∀ p, r.2.clientIDs p = s.clientIDs p) ∨
    ∃ id, id ∉ s.clientIDs q ∧ r.1 = .ok id ∧
      ∀ p, r.2.clientIDs p = if p = q then s.clientIDs q ++ [id] else s.clientIDs p

theorem insertClient_appends (newEntry : Bool) (hv : s.mbQMIValid = true) :
    Appends q s (s.insertClient newEntry q clientID) := by
  unfold insertClient
  by_cases hf : ((s.onLock q .touch).findClientMem q clientID).isSome = true
  · simp only [if_pos hf]
    exact .inl ⟨⟨_, rfl⟩, fun _ => rfl⟩
  · simp only [if_neg hf]
    split
    · exact .inl ⟨⟨_, rfl⟩, fun _ => rfl⟩
    · refine .inr ⟨clientID, ?_, rfl, fun p => ?_⟩
      · rw [findClientMem_onLock, Bool.not_eq_true, Option.isSome_eq_false_iff,
          Option.isNone_iff_eq_none, findClientMem_eq_none_iff, hv] at hf
        simpa using hf
      · rw [clientIDs_onLock, clientIDs_setTable, List.map_append]
        rfl

theorem getClientID_appends (o : GetClientOutcome) (serviceType : UInt8) :
    Appends q s (s.getClientID o q serviceType) := by
  unfold getClientID
  by_cases hv : s.mbQMIValid = false
  · rw [if_pos hv]
    exact .inl ⟨⟨_, rfl⟩, fun _ => rfl⟩
  · rw [if_neg hv]
    have hids (p : NetDev) : (if serviceType ≠ 0 then s.requestClientID o serviceType
        else (.ok 0, s)).2.clientIDs p = s.clientIDs p := by
      split
      · exact s.requestClientID_clientIDs o serviceType p
      · rfl
    have hvalid {id : UInt16} (hok : (if serviceType ≠ 0 then s.requestClientID o serviceType
        else (.ok 0, s)).1 = .ok id) : (if serviceType ≠ 0 then s.requestClientID o serviceType
        else (.ok 0, s)).2.mbQMIValid = true := by
      split at hok
      · rename_i hst
        rw [if_pos hst]
        exact s.requestClientID_ok_valid o serviceType hok
      · rename_i hst
        rw [if_neg hst]
        exact Bool.eq_true_of_not_eq_false hv
    simp only
    generalize (if serviceType ≠ 0 then s.requestClientID o serviceType else (.ok 0, s)) = r
      at hids hvalid ⊢
    cases hr : r.1 with
    | error e => exact .inl ⟨⟨e, rfl⟩, hids⟩
    | ok id =>
      have happends := r.2.insertClient_appends q id o.newEntry (hvalid hr)
      unfold Appends at happends ⊢
      simp only [hids] at happends
      exact happends

end SGobiUSBNet

/-- The ids of each table are distinct, and QMICTL is the first of the primary device. -/
structure TablesOk (s : SGobiUSBNet) : Prop where
  nodup : ∀ q, (s.clientIDs q).Nodup
  head : (s.clientIDs .mpNetDev).head? = some qmictl

theorem TablesOk.of_clientIDs {s s' : SGobiUSBNet} (h : TablesOk s)
    (hids : ∀ q, s'.clientIDs q = s.clientIDs q) : TablesOk s' := by
  refine ⟨fun q => ?_, ?_⟩
  · rw [hids q]
    exact h.nodup q
  · rw [hids]
    exact h.head

theorem Created.tablesOk {s : SGobiUSBNet} (h : Created s) : TablesOk s := by
  induction h with
  | registered o hok =>
    rcases SGobiUSBNet.unregistered.getClientID_appends .mpNetDev o 0 with
      ⟨⟨e, he⟩, -⟩ | ⟨id, -, hid, hids⟩
    · rw [hok] at he
      cases he
    · rw [hok] at hid
      cases hid
      refine ⟨fun p => ?_, ?_⟩
      · rw [hids p]
        split <;> simp [SGobiUSBNet.unregistered, SGobiUSBNet.clientIDs]
      · rw [hids]
        rfl
  | @getClientID s o q serviceType _ ih =>
    rcases s.getClientID_appends q o serviceType with ⟨-, hids⟩ | ⟨id, hnew, -, hids⟩
    · exact ih.of_clientIDs hids
    · refine ⟨fun p => ?_, ?_⟩
      · rw [hids p]
        split
        · have hcons : ([id] ++ s.clientIDs q).Nodup := List.nodup_cons.mpr ⟨hnew, ih.nodup q⟩
          exact List.nodup_append_comm.mp hcons
        · exact ih.nodup p
      · rw [hids]
        split
        · rename_i hq
          rw [← hq, List.head?_append, ih.head]
          rfl
        · exact ih.head
  | work _ hids ih => exact ih.of_clientIDs hids

/-! ## A device with one client -/

/-- A write that goes through. -/
def WriteOutcome.success : WriteOutcome := ⟨true, true, 0, true, 0, 0, true, true, 0⟩

/-- A client that the modem gives the id 0x0101, answering the transaction 1. -/
def GetClientOutcome.success : GetClientOutcome :=
  ⟨true, .success, .woken [⟨0, 1⟩] true .noMemory, .ok 0x0101, true⟩

/-- A registered device with QMICTL and a WDS client. -/
def SGobiUSBNet.withClient : SGobiUSBNet :=
  ((SGobiUSBNet.unregistered.getClientID .success .mpNetDev 0).2.getClientID .success .mpNetDev 1).2

theorem SGobiUSBNet.withClient_created : Created SGobiUSBNet.withClient :=
  .getClientID .success .mpNetDev 1 (.registered .success rfl)

example : SGobiUSBNet.withClient.clientIDs .mpNetDev = [qmictl, 0x0101] := by decide +kernel

end UsbNet
