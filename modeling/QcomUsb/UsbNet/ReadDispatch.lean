-- SUMMARY: ReadCallback: which clients get a copy of a QMUX message, and whether the interrupt URB is submitted again.
import QcomUsb.UsbNet.QmiResponses
import QcomUsb.UsbNet.UserspaceWrite

/-!
# Read dispatch

`ReadCallback` gets every QMI message of the device. It puts a copy into the read list of
each client the message is addressed to, first on the primary device and then on the mux
devices, and submits the interrupt URB again for the next message.
-/

namespace UsbNet

/-- `QMIWDS`. -/
def qmiwds : UInt8 := 1

/-! ## The message -/

/-- The header at the start of a message. -/
def SQMUX.read (data : Nat → UInt8) : SQMUX :=
  ⟨data 0, ofBytes (data 1) (data 2), data 3, data 4, data 5⟩

/-- The header is read as it was laid out. -/
theorem SQMUX.read_toBytes (h : SQMUX) (rest : List UInt8) :
    SQMUX.read (fun i => (h.toBytes ++ rest).getD i 0) = h := by
  simp [SQMUX.read, SQMUX.toBytes, le16]

/-- `ParseQMUX`. The size of the header is the constant `sizeof( sQMUX )`. -/
def parseQMUX (pBuffer : QmiMessage) : Except Int UInt16 :=
  let h := SQMUX.read pBuffer.data
  if pBuffer.messageLen < 12 then .error (-Errno.ENOMEM)
  else if h.mTF ≠ 1 ∨ h.mLength.toNat ≠ pBuffer.messageLen.toNat - 1 ∨ h.mCtrlFlag ≠ 0x80 then
    .error (-Errno.EINVAL)
  else .ok (ofBytes h.mQMIService h.mQMIClientID)

/-- What `ReadCallback` takes from the header and the SDU of a message. -/
structure QmuxMessage where
  clientID : UInt16
  transactionID : UInt16
  pData : QmiMessage

/-- The transaction id has one byte for QMICTL, and two for the other services. -/
def readTransactionID (clientID : UInt16) (pData : QmiMessage) : UInt16 :=
  if clientID = qmictl then (pData.data 7).toUInt16 else ofBytes (pData.data 7) (pData.data 8)

/-- The test on a client: its own id, or its service if the client byte is 0xff. -/
def QmuxMessage.Addressed (m : QmuxMessage) (clientID : UInt16) : Prop :=
  clientID = m.clientID ∨ clientID ||| 0xff00 = m.clientID

instance (m : QmuxMessage) (clientID : UInt16) : Decidable (m.Addressed clientID) :=
  inferInstanceAs (Decidable (_ ∨ _))

/-- `processIndResponses`: the message id it hands to the thread that waits for responses. -/
def processIndResponses (pDataCopy : QmiMessage) : Option Int :=
  let cntlFlg := pDataCopy.data 6
  let msgId := getQMIMessageID pDataCopy.skipSdu
  if (SQMUX.read pDataCopy.data).mQMIService = qmiwds then
    if cntlFlg = 0x04 then
      if msgId = 0x0022 ∨ msgId = 0x008C ∨ msgId = 0x008E then some msgId else none
    else if cntlFlg = 0x02 then
      if msgId = 0x002D then some msgId else none
    else none
  else none

/-! ## The environment -/

/-- What happens outside of the driver, or in its callbacks: where the copy for a client is
allocated, whether the entry for it in `AddToReadMemList` is, and what the callback of a
reader that does not block does to the memory of its client. It may well take the message. -/
structure DispatchEnv where
  pDataCopy : NetDev → UInt16 → Nat
  readMemEntry : NetDev → UInt16 → Bool
  callback : SNotifyList → SClientMemList → SClientMemList
  callback_mClientID : ∀ e c, (callback e c).mClientID = c.mClientID

/-- The function of a waiter. `UpSem` only wakes it up. -/
def DispatchEnv.notifyFunct (env : DispatchEnv) (e : SNotifyList) (c : SClientMemList) :
    SClientMemList :=
  match e.mpNotifyFunct with
  | .upSem => c
  | .callback => env.callback e c

/-- `NotifyAndPopNotifyList`, with the function it runs. -/
def DispatchEnv.notify (env : DispatchEnv) (transactionID : UInt16) (c : SClientMemList) :
    SClientMemList :=
  let r := c.notifyAndPopNotifyList transactionID
  match r.1 with
  | some e => env.notifyFunct e r.2
  | none => r.2

inductive DispatchEvent where
  /-- `processIndResponses` hands a message id on. -/
  | indication (q : NetDev) (msgId : Int)
  /-- `AddToReadMemList` succeeds. -/
  | appended (q : NetDev) (clientID : UInt16) (entry : SReadMemList)
  /-- `NotifyAndPopNotifyList` is called. -/
  | notified (q : NetDev) (clientID transactionID : UInt16)
  /-- `ResubmitIntURB`. -/
  | resubmitted
  deriving DecidableEq

/-- The client tables, and what `ReadCallback` did. -/
structure ReadDispatch where
  mClientMemList : NetDev → List SClientMemList
  log : List DispatchEvent

namespace ReadDispatch

def clientIDs (s : ReadDispatch) (q : NetDev) : List UInt16 := (s.mClientMemList q).map (·.mClientID)

def emit (s : ReadDispatch) (e : DispatchEvent) : ReadDispatch := { s with log := s.log ++ [e] }

/-- The memory of a client replaced in the table of its device. -/
def setMem (s : ReadDispatch) (q : NetDev) (clientID : UInt16) (c : SClientMemList) : ReadDispatch :=
  { s with mClientMemList :=
      Function.update s.mClientMemList q (setClientMem clientID c (s.mClientMemList q)) }

/-- `FindClientMem`. -/
def findClientMem (s : ReadDispatch) (q : NetDev) (clientID : UInt16) : Option SClientMemList :=
  (s.mClientMemList q).find? fun c => c.mClientID = clientID

/-- `processIndResponses` as a step. -/
def processInd (s : ReadDispatch) (q : NetDev) (pDataCopy : QmiMessage) : ReadDispatch :=
  match processIndResponses pDataCopy with
  | some msgId => s.emit (.indication q msgId)
  | none => s

/-- `AddToReadMemList`. -/
def addToReadMemList (env : DispatchEnv) (s : ReadDispatch) (q : NetDev)
    (clientID transactionID : UInt16) : Bool × ReadDispatch :=
  match s.findClientMem q clientID with
  | none => (false, s)
  | some c =>
    if env.readMemEntry q clientID then
      let entry := ⟨env.pDataCopy q clientID, transactionID⟩
      (true, (s.setMem q clientID (c.addToReadMemList entry)).emit (.appended q clientID entry))
    else (false, s)

/-- `NotifyAndPopNotifyList`. -/
def notifyAndPopNotifyList (env : DispatchEnv) (s : ReadDispatch) (q : NetDev)
    (clientID transactionID : UInt16) : ReadDispatch :=
  match s.findClientMem q clientID with
  | none => s.emit (.notified q clientID transactionID)
  | some c =>
    (s.setMem q clientID (env.notify transactionID c)).emit (.notified q clientID transactionID)

/-- The body of both loops for a client that is addressed. The copy is freed again if it
cannot be appended. -/
def dispatchTo (env : DispatchEnv) (m : QmuxMessage) (q : NetDev) (clientID : UInt16)
    (s : ReadDispatch) : Bool × ReadDispatch :=
  let r := (s.processInd q m.pData).addToReadMemList env q clientID m.transactionID
  if r.1 = false then (false, r.2)
  else (true, r.2.notifyAndPopNotifyList env q clientID m.transactionID)

/-- The walk over the ids of one table. It ends early at a client whose copy cannot be
appended, with `false`, and after one client if the message is no broadcast. -/
def walkClients (env : DispatchEnv) (m : QmuxMessage) (q : NetDev) :
    List UInt16 → ReadDispatch → Bool × ReadDispatch
  | [], s => (true, s)
  | id :: ids, s =>
    if m.Addressed id then
      let r := dispatchTo env m q id s
      if r.1 = false then (false, r.2)
      else if m.clientID >>> 8 ≠ 0xff then (true, r.2)
      else walkClients env m q ids r.2
    else walkClients env m q ids s

/-- The loop over the mux devices and the end of `ReadCallback`. A copy that cannot be
appended ends it without the URB. -/
def walkMuxDevices (env : DispatchEnv) (m : QmuxMessage) :
    List (Fin maxMuxDevices) → ReadDispatch → ReadDispatch
  | [], s => s.emit .resubmitted
  | i :: is, s =>
    let r := walkClients env m (.mpNetMUXDev i) (s.clientIDs (.mpNetMUXDev i)) s
    if r.1 = false then r.2 else walkMuxDevices env m is r.2

/-- `ReadCallback` from the walk over the primary device on. -/
def dispatch (env : DispatchEnv) (m : QmuxMessage) (s : ReadDispatch) : ReadDispatch :=
  let r := walkClients env m .mpNetDev (s.clientIDs .mpNetDev) s
  if r.1 = false then r.2.emit .resubmitted
  else walkMuxDevices env m (List.finRange maxMuxDevices) r.2

end ReadDispatch

/-- The interrupt URB as it is given back. -/
structure ReadURB where
  status : Int
  transferBuffer : Nat → UInt8
  actualLength : UInt32

/-- `pData` and `dataSize`, which is a `u16`. -/
def ReadURB.message (pReadURB : ReadURB) : QmiMessage where
  data := pReadURB.transferBuffer
  messageLen := pReadURB.actualLength.toUInt16

/-- `ReadCallback`. -/
def readCallback (env : DispatchEnv) (deviceValid : Bool) (pReadURB : ReadURB) (s : ReadDispatch) :
    ReadDispatch :=
  if deviceValid = false then s
  else if pReadURB.status ≠ 0 then s.emit .resubmitted
  else
    let pData := pReadURB.message
    match parseQMUX pData with
    | .error _ => s.emit .resubmitted
    | .ok clientID =>
      -- sizeof( sQMUX ) + 3
      if pData.messageLen.toNat < 9 then s.emit .resubmitted
      else s.dispatch env ⟨clientID, readTransactionID clientID pData, pData⟩

/-! ## What the dispatch is for -/

/-- The devices in the order of the walk. -/
def muxDevices : List NetDev := (List.finRange maxMuxDevices).map .mpNetMUXDev

variable (env : DispatchEnv) (m : QmuxMessage) (tables : NetDev → List SClientMemList)

/-- The clients of some devices that a message is addressed to. -/
def addressedOn (devices : List NetDev) : List (NetDev × UInt16) :=
  devices.flatMap fun q => (((tables q).map (·.mClientID)).filter (m.Addressed ·)).map (q, ·)

/-- The clients that a message is addressed to. -/
def addressed : List (NetDev × UInt16) :=
  addressedOn m tables [.mpNetDev] ++ addressedOn m tables muxDevices

/-- Those of them whose copy can be appended. -/
def recipients : List (NetDev × UInt16) :=
  (addressed m tables).filter fun r => env.readMemEntry r.1 r.2

/-- What delivery of a message does to a client: its copy is appended, and then one waiter
is notified. -/
def DispatchEnv.deliver (q : NetDev) (c : SClientMemList) : SClientMemList :=
  env.notify m.transactionID
    (c.addToReadMemList ⟨env.pDataCopy q c.mClientID, m.transactionID⟩)

/-- The copies that were appended. -/
def ReadDispatch.appends (s : ReadDispatch) : List (NetDev × UInt16 × SReadMemList) :=
  s.log.filterMap fun
    | .appended q clientID entry => some (q, clientID, entry)
    | _ => none

/-- The notifications that were run. -/
def ReadDispatch.notifications (s : ReadDispatch) : List (NetDev × UInt16 × UInt16) :=
  s.log.filterMap fun
    | .notified q clientID transactionID => some (q, clientID, transactionID)
    | _ => none

/-- How often the interrupt URB was submitted. -/
def ReadDispatch.resubmissions (s : ReadDispatch) : Nat := s.log.count .resubmitted

/-- The message was delivered to some clients: one copy each, one notification each, and
nothing to any other client. -/
structure DeliveredTo (targets : List (NetDev × UInt16)) (s s' : ReadDispatch) : Prop where
  appends : s'.appends = s.appends ++ targets.map fun r =>
    (r.1, r.2, ⟨env.pDataCopy r.1 r.2, m.transactionID⟩)
  notifications : s'.notifications = s.notifications ++ targets.map fun r =>
    (r.1, r.2, m.transactionID)
  tables : ∀ q, s'.mClientMemList q = (s.mClientMemList q).map fun c =>
    if (q, c.mClientID) ∈ targets then env.deliver m q c else c

/-- The message reaches exactly the clients it is addressed to and that have memory for it,
and the URB is submitted once. -/
structure Dispatched (s' : ReadDispatch) : Prop where
  delivered : DeliveredTo env m (recipients env m tables) ⟨tables, []⟩ s'
  resubmitted : s'.resubmissions = 1

/-- The condition: the walk meets no client without memory before one that has it, nor on a
mux device before one on the primary device. -/
def WalkCompletes : Prop :=
  (addressed m tables).Pairwise (fun a b =>
      env.readMemEntry b.1 b.2 = true → env.readMemEntry a.1 a.2 = true) ∧
    ((∃ r ∈ addressedOn m tables [.mpNetDev], env.readMemEntry r.1 r.2 = false) ∨
      ∀ r ∈ addressedOn m tables muxDevices, env.readMemEntry r.1 r.2 = true)

/-! ## One client -/

variable {env m tables} {s s' s'' : ReadDispatch} {q : NetDev} {clientID : UInt16}
  {targets targets' : List (NetDev × UInt16)}

theorem DispatchEnv.notify_mClientID (env : DispatchEnv) (transactionID : UInt16)
    (c : SClientMemList) : (env.notify transactionID c).mClientID = c.mClientID := by
  have hpop := c.notifyAndPopNotifyList_mClientID transactionID
  unfold DispatchEnv.notify
  dsimp only
  split
  · rename_i e he
    unfold DispatchEnv.notifyFunct
    split
    · exact hpop
    · exact (env.callback_mClientID e _).trans hpop
  · exact hpop

@[simp] theorem DispatchEnv.deliver_mClientID (c : SClientMemList) :
    (env.deliver m q c).mClientID = c.mClientID :=
  env.notify_mClientID ..

/-- Replacing the memory of a client, in a table with unique ids. -/
theorem setClientMem_eq_map {c : SClientMemList} {cs : List SClientMemList}
    (huniq : (cs.map (·.mClientID)).Nodup)
    (hc : cs.find? (fun c => c.mClientID = clientID) = some c)
    (f : SClientMemList → SClientMemList) :
    setClientMem clientID (f c) cs = cs.map fun d => if d.mClientID = clientID then f d else d := by
  induction cs with
  | nil => cases hc
  | cons d cs ih =>
    rw [List.map_cons, List.nodup_cons] at huniq
    unfold setClientMem
    by_cases hd : d.mClientID = clientID
    · have hdc : d = c := by simpa [hd] using hc
      have hrest : (cs.map fun d => if d.mClientID = clientID then f d else d) = cs := by
        refine (List.map_congr_left fun e he => if_neg fun heq => ?_).trans (List.map_id cs)
        exact huniq.1 (hd.trans heq.symm ▸ List.mem_map_of_mem he)
      rw [if_pos hd, List.map_cons, if_pos hd, hrest, hdc]
    · rw [if_neg hd, List.map_cons, if_neg hd]
      simp only [List.find?_cons, hd, decide_false] at hc
      rw [ih huniq.2 hc]

namespace ReadDispatch

theorem setMem_mClientMemList {c : SClientMemList} (huniq : (s.clientIDs q).Nodup)
    (hc : s.findClientMem q clientID = some c) (f : SClientMemList → SClientMemList) (p : NetDev) :
    (s.setMem q clientID (f c)).mClientMemList p = (s.mClientMemList p).map fun d =>
      if p = q ∧ d.mClientID = clientID then f d else d := by
  rcases eq_or_ne p q with rfl | hne
  · simpa [setMem] using setClientMem_eq_map huniq hc f
  · simp [setMem, hne]

theorem findClientMem_isSome (h : clientID ∈ s.clientIDs q) :
    ∃ c, s.findClientMem q clientID = some c ∧ c.mClientID = clientID := by
  obtain ⟨d, hd, rfl⟩ := List.mem_map.mp h
  cases hc : s.findClientMem q d.mClientID with
  | none => simpa using List.find?_eq_none.mp hc d hd
  | some c => exact ⟨c, rfl, by simpa using List.find?_some hc⟩

/-- A change that keeps the ids of the clients. -/
theorem clientIDs_of_map {f : NetDev → SClientMemList → SClientMemList}
    (htables : ∀ q, s'.mClientMemList q = (s.mClientMemList q).map (f q))
    (hf : ∀ q c, (f q c).mClientID = c.mClientID) (q : NetDev) :
    s'.clientIDs q = s.clientIDs q := by
  rw [clientIDs, htables, List.map_map, clientIDs]
  exact List.map_congr_left fun c _ => hf q c

end ReadDispatch

namespace DeliveredTo

theorem clientIDs (h : DeliveredTo env m targets s s') (q : NetDev) :
    s'.clientIDs q = s.clientIDs q := by
  refine ReadDispatch.clientIDs_of_map h.tables (fun q c => ?_) q
  split_ifs
  · exact DispatchEnv.deliver_mClientID c
  · rfl

/-- Nobody got anything. -/
theorem nobody (happends : s'.appends = s.appends)
    (hnotifications : s'.notifications = s.notifications)
    (htables : s'.mClientMemList = s.mClientMemList) : DeliveredTo env m [] s s' where
  appends := by simpa using happends
  notifications := by simpa using hnotifications
  tables := by simp [htables]

/-- First some clients, then others. -/
theorem trans (h : DeliveredTo env m targets s s') (h' : DeliveredTo env m targets' s' s'')
    (hdisjoint : ∀ r ∈ targets, r ∉ targets') : DeliveredTo env m (targets ++ targets') s s'' where
  appends := by rw [h'.appends, h.appends, List.map_append, List.append_assoc]
  notifications := by rw [h'.notifications, h.notifications, List.map_append, List.append_assoc]
  tables := by
    intro q
    rw [h'.tables, h.tables, List.map_map]
    refine List.map_congr_left fun c _ => ?_
    simp only [Function.comp_apply, List.mem_append]
    by_cases hc : (q, c.mClientID) ∈ targets
    · simp [hc, hdisjoint _ hc]
    · simp [hc]

end DeliveredTo

variable (env m) in
theorem processInd_spec (s : ReadDispatch) (q : NetDev) (pDataCopy : QmiMessage) :
    DeliveredTo env m [] s (s.processInd q pDataCopy) ∧
      (s.processInd q pDataCopy).resubmissions = s.resubmissions := by
  unfold ReadDispatch.processInd
  split
  · refine ⟨.nobody ?_ ?_ rfl, ?_⟩
    · simp [ReadDispatch.appends, ReadDispatch.emit]
    · simp [ReadDispatch.notifications, ReadDispatch.emit]
    · simp [ReadDispatch.resubmissions, ReadDispatch.emit]
  · exact ⟨.nobody rfl rfl rfl, rfl⟩

/-- `AddToReadMemList` with memory for the entry. -/
theorem addToReadMemList_spec (huniq : (s.clientIDs q).Nodup) (hmem : clientID ∈ s.clientIDs q)
    (hentry : env.readMemEntry q clientID = true) (transactionID : UInt16) {entry : SReadMemList}
    (heq : entry = ⟨env.pDataCopy q clientID, transactionID⟩) :
    ∃ s₁, s.addToReadMemList env q clientID transactionID = (true, s₁) ∧
      s₁.log = s.log ++ [.appended q clientID entry] ∧
      ∀ p, s₁.mClientMemList p = (s.mClientMemList p).map fun d =>
        if p = q ∧ d.mClientID = clientID then d.addToReadMemList entry else d := by
  obtain ⟨c, hc, -⟩ := ReadDispatch.findClientMem_isSome hmem
  have htables := ReadDispatch.setMem_mClientMemList huniq hc (·.addToReadMemList entry)
  refine ⟨(s.setMem q clientID (c.addToReadMemList entry)).emit (.appended q clientID entry), ?_,
    rfl, htables⟩
  unfold ReadDispatch.addToReadMemList
  simp [hc, hentry, heq]

variable (env) in
/-- `NotifyAndPopNotifyList` for a client that is there. -/
theorem notifyAndPopNotifyList_spec (huniq : (s.clientIDs q).Nodup)
    (hmem : clientID ∈ s.clientIDs q) (transactionID : UInt16) :
    (s.notifyAndPopNotifyList env q clientID transactionID).log =
        s.log ++ [.notified q clientID transactionID] ∧
      ∀ p, (s.notifyAndPopNotifyList env q clientID transactionID).mClientMemList p =
        (s.mClientMemList p).map fun d =>
          if p = q ∧ d.mClientID = clientID then env.notify transactionID d else d := by
  obtain ⟨c, hc, -⟩ := ReadDispatch.findClientMem_isSome hmem
  have htables := ReadDispatch.setMem_mClientMemList huniq hc (env.notify transactionID)
  unfold ReadDispatch.notifyAndPopNotifyList
  rw [hc]
  exact ⟨rfl, htables⟩

/-- A client that has memory gets its copy. -/
theorem dispatchTo_succeeds (huniq : ∀ q, (s.clientIDs q).Nodup)
    (hmem : clientID ∈ s.clientIDs q) (hentry : env.readMemEntry q clientID = true) :
    (ReadDispatch.dispatchTo env m q clientID s).1 = true ∧
      DeliveredTo env m [(q, clientID)] s (ReadDispatch.dispatchTo env m q clientID s).2 ∧
      (ReadDispatch.dispatchTo env m q clientID s).2.resubmissions = s.resubmissions := by
  obtain ⟨hind, hindURB⟩ := processInd_spec env m s q m.pData
  unfold ReadDispatch.dispatchTo
  generalize s.processInd q m.pData = s₁ at hind hindURB ⊢
  have huniq₁ : (s₁.clientIDs q).Nodup := hind.clientIDs q ▸ huniq q
  have hmem₁ : clientID ∈ s₁.clientIDs q := hind.clientIDs q ▸ hmem
  obtain ⟨s₂, hadd, hlog₂, htables₂⟩ :=
    addToReadMemList_spec huniq₁ hmem₁ hentry m.transactionID rfl
  have hids₂ : s₂.clientIDs q = s₁.clientIDs q := by
    refine ReadDispatch.clientIDs_of_map htables₂ (fun p c => ?_) q
    split_ifs <;> rfl
  obtain ⟨hlog₃, htables₃⟩ := notifyAndPopNotifyList_spec env (hids₂ ▸ huniq₁)
    (hids₂ ▸ hmem₁) m.transactionID
  simp only [hadd, Bool.true_eq_false, if_false]
  generalize s₂.notifyAndPopNotifyList env q clientID m.transactionID = s₃ at hlog₃ htables₃ ⊢
  have hto : DeliveredTo env m [(q, clientID)] s₁ s₃ := by
    refine ⟨?_, ?_, fun p => ?_⟩
    · simp [ReadDispatch.appends, hlog₃, hlog₂]
    · simp [ReadDispatch.notifications, hlog₃, hlog₂]
    · rw [htables₃, htables₂, List.map_map]
      refine List.map_congr_left fun d _ => ?_
      by_cases hd : p = q ∧ d.mClientID = clientID
      · obtain ⟨rfl, rfl⟩ := hd
        simp [DispatchEnv.deliver, SClientMemList.addToReadMemList]
      · have hd' : (p, d.mClientID) ∉ [(q, clientID)] := by simpa using hd
        simp [hd, hd']
  refine ⟨trivial, hind.trans hto nofun, ?_⟩
  rw [← hindURB]
  simp [ReadDispatch.resubmissions, hlog₃, hlog₂]

/-- One that has not gets nothing. -/
theorem dispatchTo_fails (hentry : env.readMemEntry q clientID = false) :
    (ReadDispatch.dispatchTo env m q clientID s).1 = false ∧
      DeliveredTo env m [] s (ReadDispatch.dispatchTo env m q clientID s).2 ∧
      (ReadDispatch.dispatchTo env m q clientID s).2.resubmissions = s.resubmissions := by
  obtain ⟨hind, hindURB⟩ := processInd_spec env m s q m.pData
  have hadd : (s.processInd q m.pData).addToReadMemList env q clientID m.transactionID =
      (false, s.processInd q m.pData) := by
    unfold ReadDispatch.addToReadMemList
    split
    · rfl
    · rw [if_neg (by simp [hentry])]
  unfold ReadDispatch.dispatchTo
  simp only [hadd, if_true]
  exact ⟨trivial, hind, hindURB⟩

/-! ## The walks -/

/-- Delivery to one client after another, up to the first one that has no memory. -/
def deliverAll (env : DispatchEnv) (m : QmuxMessage) :
    List (NetDev × UInt16) → ReadDispatch → Bool × ReadDispatch
  | [], s => (true, s)
  | r :: rest, s =>
    let d := ReadDispatch.dispatchTo env m r.1 r.2 s
    if d.1 = false then (false, d.2) else deliverAll env m rest d.2

theorem deliverAll_append (env : DispatchEnv) (m : QmuxMessage) (rs rest : List (NetDev × UInt16))
    (s : ReadDispatch) :
    deliverAll env m (rs ++ rest) s =
      if (deliverAll env m rs s).1 = false then (false, (deliverAll env m rs s).2)
      else deliverAll env m rest (deliverAll env m rs s).2 := by
  induction rs generalizing s with
  | nil => simp [deliverAll]
  | cons r rs ih =>
    simp only [List.cons_append, deliverAll]
    split
    · rfl
    · exact ih _

variable (env m) in
/-- The clients up to the first one without memory get their copies. -/
theorem deliverAll_spec (rs : List (NetDev × UInt16)) (huniq : ∀ q, (s.clientIDs q).Nodup)
    (hmem : ∀ r ∈ rs, r.2 ∈ s.clientIDs r.1) (hnodup : rs.Nodup) :
    (deliverAll env m rs s).1 = rs.all (fun r => env.readMemEntry r.1 r.2) ∧
      DeliveredTo env m (rs.takeWhile fun r => env.readMemEntry r.1 r.2) s
        (deliverAll env m rs s).2 ∧
      (deliverAll env m rs s).2.resubmissions = s.resubmissions := by
  induction rs generalizing s with
  | nil => exact ⟨rfl, .nobody rfl rfl rfl, rfl⟩
  | cons r rs ih =>
    rw [List.nodup_cons] at hnodup
    cases hentry : env.readMemEntry r.1 r.2 with
    | false =>
      obtain ⟨hfailed, hto, hURB⟩ := dispatchTo_fails (m := m) (s := s) hentry
      simpa [deliverAll, hfailed, hentry] using ⟨hto, hURB⟩
    | true =>
      obtain ⟨hdone, hto, hURB⟩ :=
        dispatchTo_succeeds (m := m) huniq (hmem r List.mem_cons_self) hentry
      obtain ⟨hall, hrest, hrestURB⟩ := ih (s := (ReadDispatch.dispatchTo env m r.1 r.2 s).2)
        (fun q => hto.clientIDs q ▸ huniq q)
        (fun r' hr' => hto.clientIDs r'.1 ▸ hmem r' (List.mem_cons_of_mem _ hr')) hnodup.2
      have hdisjoint : ∀ r' ∈ [r], r' ∉ rs.takeWhile fun r => env.readMemEntry r.1 r.2 := by
        intro r' hr' hin
        rw [List.mem_singleton] at hr'
        exact hnodup.1 (hr' ▸ (List.takeWhile_prefix _).subset hin)
      simpa [deliverAll, hdone, hentry] using
        ⟨hall, hto.trans hrest hdisjoint, hrestURB.trans hURB⟩

/-- The client byte of `mClientID | 0xff00`. -/
theorem or_ff00_shiftRight (clientID : UInt16) : (clientID ||| 0xff00) >>> 8 = 0xff := by
  apply UInt16.toBitVec_inj.mp
  ext i hi
  simp only [UInt16.toBitVec_shiftRight, UInt16.toBitVec_or]
  interval_cases i <;> simp

/-- Without a broadcast, a message is addressed to its own id only. -/
theorem addressed_iff_of_not_broadcast (h : m.clientID >>> 8 ≠ 0xff) (clientID : UInt16) :
    m.Addressed clientID ↔ clientID = m.clientID := by
  refine ⟨fun haddr => ?_, .inl⟩
  rcases haddr with heq | heq
  · exact heq
  · exact absurd (heq ▸ or_ff00_shiftRight clientID) h

/-- A walk delivers to the clients that are addressed. In a table with unique ids, the early
end of a message that is no broadcast leaves none of them out. -/
theorem walkClients_eq (q : NetDev) (ids : List UInt16) (hnodup : ids.Nodup) (s : ReadDispatch) :
    ReadDispatch.walkClients env m q ids s =
      deliverAll env m ((ids.filter (m.Addressed ·)).map (q, ·)) s := by
  induction ids generalizing s with
  | nil => rfl
  | cons id ids ih =>
    rw [List.nodup_cons] at hnodup
    unfold ReadDispatch.walkClients
    by_cases haddr : m.Addressed id
    · rw [if_pos haddr, List.filter_cons_of_pos (by simpa using haddr), List.map_cons]
      simp only [deliverAll]
      split
      · rfl
      · split
        · rename_i hsingle
          -- the other ids differ from this one
          have hrest : ids.filter (m.Addressed ·) = [] := by
            refine List.filter_eq_nil_iff.mpr fun id' hid' => ?_
            have heq := (addressed_iff_of_not_broadcast hsingle id).mp haddr
            simp only [decide_eq_true_eq, addressed_iff_of_not_broadcast hsingle]
            exact fun heq' => hnodup.1 (heq.trans heq'.symm ▸ hid')
          rw [hrest, List.map_nil]
          rfl
        · exact ih hnodup.2 _
    · rw [if_neg haddr, List.filter_cons_of_neg (by simpa using haddr)]
      exact ih hnodup.2 s

theorem mem_addressedOn {devices : List NetDev} {r : NetDev × UInt16} :
    r ∈ addressedOn m tables devices ↔
      r.1 ∈ devices ∧ r.2 ∈ (tables r.1).map (·.mClientID) ∧ m.Addressed r.2 := by
  obtain ⟨q, id⟩ := r
  simp only [addressedOn, List.mem_flatMap, List.mem_map, List.mem_filter, decide_eq_true_eq,
    Prod.mk.injEq]
  constructor
  · rintro ⟨q', hq', id', ⟨hid', haddr⟩, rfl, rfl⟩
    exact ⟨hq', hid', haddr⟩
  · rintro ⟨hq, hid, haddr⟩
    exact ⟨q, hq, id, ⟨hid, haddr⟩, rfl, rfl⟩

theorem addressedOn_nodup {devices : List NetDev} (hdevices : devices.Nodup)
    (huniq : ∀ q, ((tables q).map (·.mClientID)).Nodup) :
    (addressedOn m tables devices).Nodup := by
  refine List.nodup_flatMap.mpr ⟨fun q _ => ?_, hdevices.imp fun {q q'} hne => ?_⟩
  · exact ((huniq q).filter _).map (Prod.mk_right_injective q)
  · rintro ⟨p, id⟩ hq hq'
    obtain ⟨_, _, heq⟩ := List.mem_map.mp hq
    obtain ⟨_, _, heq'⟩ := List.mem_map.mp hq'
    exact hne ((congrArg Prod.fst heq).trans (congrArg Prod.fst heq').symm)

theorem addressed_nodup (huniq : ∀ q, ((tables q).map (·.mClientID)).Nodup) :
    (addressed m tables).Nodup := by
  have happend : addressed m tables = addressedOn m tables (.mpNetDev :: muxDevices) := by
    simp [addressed, addressedOn]
  rw [happend]
  exact addressedOn_nodup (by decide) huniq

/-- The walk over the mux devices delivers to their clients. -/
theorem walkMuxDevices_eq (huniq : ∀ q, ((tables q).map (·.mClientID)).Nodup)
    (is : List (Fin maxMuxDevices)) (s : ReadDispatch)
    (hids : ∀ q, s.clientIDs q = (tables q).map (·.mClientID)) :
    ReadDispatch.walkMuxDevices env m is s =
      let r := deliverAll env m (addressedOn m tables (is.map .mpNetMUXDev)) s
      if r.1 = false then r.2 else r.2.emit .resubmitted := by
  induction is generalizing s with
  | nil => rfl
  | cons i is ih =>
    have huniq' : ∀ q, (s.clientIDs q).Nodup := fun q => hids q ▸ huniq q
    have hfirst : addressedOn m tables [.mpNetMUXDev i] =
        ((s.clientIDs (.mpNetMUXDev i)).filter (m.Addressed ·)).map (NetDev.mpNetMUXDev i, ·) := by
      simp [addressedOn, hids]
    have hsplit : addressedOn m tables ((i :: is).map .mpNetMUXDev) =
        addressedOn m tables [.mpNetMUXDev i] ++ addressedOn m tables (is.map .mpNetMUXDev) := by
      simp [addressedOn]
    have hmem : ∀ r ∈ addressedOn m tables [.mpNetMUXDev i], r.2 ∈ s.clientIDs r.1 :=
      fun r hr => hids r.1 ▸ (mem_addressedOn.mp hr).2.1
    obtain ⟨-, hto, -⟩ := deliverAll_spec env m _ huniq' hmem
      (addressedOn_nodup (List.nodup_singleton _) huniq)
    unfold ReadDispatch.walkMuxDevices
    rw [walkClients_eq _ _ (huniq' _), ← hfirst, hsplit, deliverAll_append]
    dsimp only
    split
    · rfl
    · exact ih _ fun q => (hto.clientIDs q).trans (hids q)

theorem DeliveredTo.emit_resubmitted (h : DeliveredTo env m targets s s') :
    DeliveredTo env m targets s (s'.emit .resubmitted) where
  appends := by simpa [ReadDispatch.appends, ReadDispatch.emit] using h.appends
  notifications := by simpa [ReadDispatch.notifications, ReadDispatch.emit] using h.notifications
  tables := h.tables

theorem resubmissions_emit (s : ReadDispatch) :
    (s.emit .resubmitted).resubmissions = s.resubmissions + 1 := by
  simp [ReadDispatch.resubmissions, ReadDispatch.emit]

variable (env m) in
/-- What `ReadCallback` does with a message: it delivers to the clients that are addressed, up
to the first one without memory, and the URB is lost if that one is on a mux device. -/
theorem dispatch_spec (huniq : ∀ q, ((tables q).map (·.mClientID)).Nodup) :
    DeliveredTo env m ((addressed m tables).takeWhile fun r => env.readMemEntry r.1 r.2)
        ⟨tables, []⟩ (ReadDispatch.dispatch env m ⟨tables, []⟩) ∧
      (ReadDispatch.dispatch env m ⟨tables, []⟩).resubmissions =
        if (addressedOn m tables [.mpNetDev]).all (fun r => env.readMemEntry r.1 r.2) = true ∧
          (addressedOn m tables muxDevices).all (fun r => env.readMemEntry r.1 r.2) = false
        then 0 else 1 := by
  obtain ⟨s₀, hs₀⟩ : ∃ s₀ : ReadDispatch, s₀ = ⟨tables, []⟩ := ⟨_, rfl⟩
  have hids : ∀ q, s₀.clientIDs q = (tables q).map (·.mClientID) := fun q => by rw [hs₀]; rfl
  have huniq₀ : ∀ q, (s₀.clientIDs q).Nodup := fun q => hids q ▸ huniq q
  have hURB₀ : s₀.resubmissions = 0 := by rw [hs₀]; rfl
  have hmemOn : ∀ devices, ∀ r ∈ addressedOn m tables devices, r.2 ∈ s₀.clientIDs r.1 :=
    fun _ r hr => hids r.1 ▸ (mem_addressedOn.mp hr).2.1
  have hmem : ∀ r ∈ addressed m tables, r.2 ∈ s₀.clientIDs r.1 := by
    intro r hr
    rcases List.mem_append.mp hr with hr | hr
    · exact hmemOn _ r hr
    · exact hmemOn _ r hr
  -- both loops together, and the first one alone
  obtain ⟨hall, hto, hURB⟩ :=
    deliverAll_spec env m _ huniq₀ hmem (addressed_nodup huniq)
  obtain ⟨hallP, htoP, -⟩ := deliverAll_spec env m _ huniq₀ (hmemOn [.mpNetDev])
    (addressedOn_nodup (List.nodup_singleton _) huniq)
  have hprimary : addressedOn m tables [.mpNetDev] =
      ((s₀.clientIDs .mpNetDev).filter (m.Addressed ·)).map (NetDev.mpNetDev, ·) := by
    simp [addressedOn, hids]
  have hdispatch : ReadDispatch.dispatch env m s₀ =
      if (deliverAll env m (addressedOn m tables [.mpNetDev]) s₀).1 = true ∧
        (deliverAll env m (addressed m tables) s₀).1 = false
      then (deliverAll env m (addressed m tables) s₀).2
      else (deliverAll env m (addressed m tables) s₀).2.emit .resubmitted := by
    unfold ReadDispatch.dispatch
    rw [walkClients_eq _ _ (huniq₀ _), ← hprimary, addressed, deliverAll_append]
    dsimp only
    cases hP : (deliverAll env m (addressedOn m tables [.mpNetDev]) s₀).1 with
    | false => simp
    | true =>
      rw [walkMuxDevices_eq huniq _ _ fun q => (htoP.clientIDs q).trans (hids q)]
      simp [muxDevices]
  have hlost : (addressedOn m tables [.mpNetDev]).all (fun r => env.readMemEntry r.1 r.2) = true ∧
        (addressed m tables).all (fun r => env.readMemEntry r.1 r.2) = false ↔
      (addressedOn m tables [.mpNetDev]).all (fun r => env.readMemEntry r.1 r.2) = true ∧
        (addressedOn m tables muxDevices).all (fun r => env.readMemEntry r.1 r.2) = false := by
    refine and_congr_right fun hP => ?_
    rw [addressed, List.all_append, hP, Bool.true_and]
  rw [hallP, hall, if_congr hlost rfl rfl] at hdispatch
  rw [← hs₀, hdispatch]
  split_ifs with hcase
  · exact ⟨hto, hURB.trans hURB₀⟩
  · exact ⟨hto.emit_resubmitted, by rw [resubmissions_emit, hURB, hURB₀]⟩

/-! ## The result -/

/-- Everything up to the first failure is everything that can be had exactly if nothing can
be had behind a failure. -/
theorem takeWhile_eq_filter_iff {α : Type} {p : α → Bool} {l : List α} :
    l.takeWhile p = l.filter p ↔ l.Pairwise fun a b => p b = true → p a = true := by
  induction l with
  | nil => simp
  | cons a l ih =>
    rw [List.pairwise_cons]
    cases ha : p a with
    | true =>
      rw [List.takeWhile_cons_of_pos ha, List.filter_cons_of_pos ha, List.cons.injEq, ih]
      simp
    | false =>
      rw [List.takeWhile_cons_of_neg (by simp [ha]), List.filter_cons_of_neg (by simp [ha])]
      constructor
      · intro hnil
        have hnone : ∀ b ∈ l, ¬ p b = true := List.filter_eq_nil_iff.mp hnil.symm
        refine ⟨fun b hb hpb => absurd hpb (hnone b hb), ?_⟩
        exact List.pairwise_of_forall_mem_list fun b _ c hc hpc => absurd hpc (hnone c hc)
      · rintro ⟨hnone, -⟩
        exact (List.filter_eq_nil_iff.mpr fun b hb hpb => Bool.false_ne_true (hnone b hb hpb)).symm

/-- The messages that `ReadCallback` dispatches. -/
theorem readCallback_accepted {pReadURB : ReadURB} {clientID : UInt16}
    (hstatus : pReadURB.status = 0)
    (hparse : parseQMUX pReadURB.message = .ok clientID) (s : ReadDispatch) :
    readCallback env true pReadURB s = s.dispatch env
      ⟨clientID, readTransactionID clientID pReadURB.message, pReadURB.message⟩ := by
  have hsize : ¬ pReadURB.message.messageLen.toNat < 9 := by
    intro hlt
    have hshort : pReadURB.message.messageLen < 12 :=
      UInt16.lt_iff_toNat_lt.mpr (Nat.lt_trans hlt (by decide))
    simp [parseQMUX, hshort] at hparse
  unfold readCallback
  simp [hstatus, hparse, hsize]

/-- Whatever the tables are and wherever memory is short, a message that `ParseQMUX` accepts
reaches exactly its addressees that have memory, and the interrupt URB is submitted again,
exactly if the walk completes. -/
theorem dispatched_iff_walkCompletes (env : DispatchEnv) (tables : NetDev → List SClientMemList)
    (huniq : ∀ q, ((tables q).map (·.mClientID)).Nodup) (pReadURB : ReadURB)
    (hstatus : pReadURB.status = 0) (clientID : UInt16)
    (hparse : parseQMUX pReadURB.message = .ok clientID) :
    Dispatched env ⟨clientID, readTransactionID clientID pReadURB.message, pReadURB.message⟩ tables
        (readCallback env true pReadURB ⟨tables, []⟩) ↔
      WalkCompletes env ⟨clientID, readTransactionID clientID pReadURB.message, pReadURB.message⟩
        tables := by
  rw [readCallback_accepted hstatus hparse]
  generalize (⟨clientID, readTransactionID clientID pReadURB.message, pReadURB.message⟩ :
    QmuxMessage) = m
  obtain ⟨hto, hURB⟩ := dispatch_spec env m huniq
  have hcopies : (addressed m tables).takeWhile (fun r => env.readMemEntry r.1 r.2) =
      recipients env m tables ↔
    (addressed m tables).Pairwise fun a b =>
      env.readMemEntry b.1 b.2 = true → env.readMemEntry a.1 a.2 = true := takeWhile_eq_filter_iff
  have hpump : (ReadDispatch.dispatch env m ⟨tables, []⟩).resubmissions = 1 ↔
      (∃ r ∈ addressedOn m tables [.mpNetDev], env.readMemEntry r.1 r.2 = false) ∨
        ∀ r ∈ addressedOn m tables muxDevices, env.readMemEntry r.1 r.2 = true := by
    have hprimary : (∃ r ∈ addressedOn m tables [.mpNetDev], env.readMemEntry r.1 r.2 = false) ↔
        ¬ (addressedOn m tables [.mpNetDev]).all (fun r => env.readMemEntry r.1 r.2) = true := by
      simp only [List.all_eq_true, not_forall, Bool.not_eq_true, exists_prop]
    rw [hURB, hprimary, ← List.all_eq_true]
    split_ifs with hlost
    · simp [hlost]
    · simpa [or_iff_not_imp_left] using hlost
  constructor
  · rintro ⟨hdelivered, hresubmitted⟩
    refine ⟨hcopies.mp ?_, hpump.mp hresubmitted⟩
    have happends := hto.appends.symm.trans hdelivered.appends
    refine List.map_injective_iff.mpr ?_ (List.append_cancel_left happends)
    rintro ⟨q, id⟩ ⟨q', id'⟩ heq
    simp only [Prod.mk.injEq] at heq
    exact Prod.ext heq.1 heq.2.1
  · rintro ⟨hpairwise, hresubmitted⟩
    exact ⟨hcopies.mpr hpairwise ▸ hto, hpump.mpr hresubmitted⟩

/-- Memory for all clients but some on the first mux device. -/
def shortOnMux (short : Bool) : DispatchEnv where
  pDataCopy := fun _ clientID => clientID.toNat
  readMemEntry := fun q _ => !(short && q = .mpNetMUXDev 0)
  callback := fun _ c => c
  callback_mClientID := fun _ _ => rfl

/-- A WDS indication to all clients. -/
def wdsBroadcast : ReadURB where
  status := 0
  transferBuffer := fun i => [1, 11, 0, 0x80, 1, 0xff, 4, 5, 0, 0x22, 0, 0].getD i 0
  actualLength := 12

/-- One WDS client on each device, and memory for all of them. -/
theorem dispatched_iff_walkCompletes_wds :
    Dispatched (shortOnMux false) ⟨0xff01, 5, wdsBroadcast.message⟩ (fun _ => [.new 0x0101])
      (readCallback (shortOnMux false) true wdsBroadcast ⟨fun _ => [.new 0x0101], []⟩) :=
  (dispatched_iff_walkCompletes (shortOnMux false) (fun _ => [.new 0x0101]) (fun _ => by decide)
    wdsBroadcast rfl 0xff01 (by decide)).mpr ⟨by decide, .inr (by decide)⟩

/-- A mux device has no memory for its client. The URB is not submitted again. -/
theorem pump_stops :
    parseQMUX wdsBroadcast.message = .ok 0xff01 ∧
      ¬ Dispatched (shortOnMux true) ⟨0xff01, 5, wdsBroadcast.message⟩ (fun _ => [.new 0x0101])
        (readCallback (shortOnMux true) true wdsBroadcast ⟨fun _ => [.new 0x0101], []⟩) := by
  refine ⟨by decide, fun h => ?_⟩
  exact absurd h.resubmitted (by decide)

end UsbNet
