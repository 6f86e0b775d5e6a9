-- SUMMARY: The quota of QMI requests for each service: where a request is counted, where a response, a purge or nothing takes it off again, and when the count is right.
import QcomUsb.Ndis.ExternalClients

/-!
# Quota of QMI requests

`PendingCtrlRequests` counts the requests of a service that were sent and not answered. It is raised
in front of the send, by `MP_USBSendControlRequest` for the driver's own requests and by
`MPIOC_WriteThread` for those of external clients. It is lowered where a response is routed. A send
that fails, a client that is closed and a purge take other ways out.
-/

namespace Ndis.Quota

open Ndis.Ioc Transition

/-! ## Messages and adapters -/

def qmuxTypeCtl : UInt8 := 0x00
def qmuxTypeWds : UInt8 := 0x01
def qmuxTypeQos : UInt8 := 0x04
def qmuxTypeDfs : UInt8 := 0x30

/-- `QMUX_CTL_FLAG_TYPE_RSP`. -/
def isRsp (msg : Msg) : Bool := msg.qmux.headD 0 &&& 0x06 == 0x02

/-- `QMUXMsgHdr.Type`, behind `CtlFlags` and `TransactionId`. -/
def msgType (msg : Msg) : Nat := (msg.qmux.getD 3 0).toNat + 256 * (msg.qmux.getD 4 0).toNat

/-- A response to the binding of a client to a data port: `QMIWDS_BIND_MUX_DATA_PORT_RESP`,
`QMI_QOS_BIND_DATA_PORT_RESP` or `QMIDFS_BIND_CLIENT_RESP`. -/
def isBindResponse (msg : Msg) : Bool :=
  msg.qmiType == qmuxTypeWds && msgType msg == 0x00A2 ||
    msg.qmiType == qmuxTypeQos && msgType msg == 0x002B ||
      msg.qmiType == qmuxTypeDfs && msgType msg == 0x0021

/-- `GlobalData.AdapterList`, with what the functions below read of an adapter. -/
structure Adapters where
  adapterList : List Nat
  muxInterface : Nat → MuxInterface
  clientId : Nat → UInt8 → UInt8
  isDualIPSupported : Nat → Bool
  wdsIpClientContext : Nat → Option DevInfo
  maxPendingQMIReqs : Nat → Int

namespace Adapters

def samePhysical (ad : Adapters) (a b : Nat) : Bool :=
  (ad.muxInterface a).physicalInterfaceNumber == (ad.muxInterface b).physicalInterfaceNumber &&
    (ad.muxInterface a).filterDeviceObj == (ad.muxInterface b).filterDeviceObj

/-- `FindStackDeviceObject`: the adapter whose device object sends the requests. -/
def findStackDeviceObject (ad : Adapters) (a : Nat) : Option Nat :=
  let mux := ad.muxInterface a
  if mux.muxEnabled = 0 then some a
  else if mux.interfaceNumber = mux.physicalInterfaceNumber then some a
  else
    ad.adapterList.find? fun b =>
      mux.muxEnabled == 1 && mux.physicalInterfaceNumber == (ad.muxInterface b).interfaceNumber &&
        mux.filterDeviceObj == (ad.muxInterface b).filterDeviceObj

/-- `FindallAdapters`. -/
def findallAdapters (ad : Adapters) (a : Nat) (msg : Msg) : Option Nat :=
  ad.adapterList.find? fun b =>
    ad.samePhysical a b && msg.clientId == ad.clientId b msg.qmiType

def isWdsIpClient (ad : Adapters) (b : Nat) (msg : Msg) : Bool :=
  ad.isDualIPSupported b &&
    match ad.wdsIpClientContext b with
    | some dev => msg.qmiType == dev.qmiType && msg.clientId == dev.clientId
    | none => false

/-- `FindallDualIPAdapters`. -/
def findallDualIPAdapters (ad : Adapters) (a : Nat) (msg : Msg) : Option Nat :=
  ad.adapterList.find? fun b => ad.samePhysical a b && ad.isWdsIpClient b msg

end Adapters

/-- A request that was counted: the adapter and the service it was counted for, and the external
client it belongs to. -/
structure Request where
  adapter : Nat
  client : Option Nat
  qmiType : UInt8
  clientId : UInt8
  deriving DecidableEq

/-- The counters, the requests on their way, and the external clients. `sending` are the requests
with USB, and `sent` are those that the device has got and not answered. An observer keeps which
clients were closed. -/
structure State where
  pendingCtrlRequests : Nat → UInt8 → Int
  ctrlWriteList : Nat → List Msg
  posting : Nat → Option Msg
  writeIrpQueue : Nat → List (List UInt8)
  pWriteCurrent : Nat → Option (List UInt8)
  bWriteActive : Nat → Bool
  isQmiWorking : Nat → Bool
  deviceList : List Nat
  dev : Nat → DevInfo
  sending : List Request
  sent : List Request
  closed : Nat → Bool

namespace State

/-- Nothing was sent. -/
def start (deviceList : List Nat) (dev : Nat → DevInfo) : State where
  pendingCtrlRequests := fun _ _ => 0
  ctrlWriteList := fun _ => []
  posting := fun _ => none
  writeIrpQueue := fun _ => []
  pWriteCurrent := fun _ => none
  bWriteActive := fun _ => false
  isQmiWorking := fun _ => true
  deviceList := deviceList
  dev := dev
  sending := []
  sent := []
  closed := fun _ => false

def setPending (s : State) (a : Nat) (t : UInt8) (n : Int) : State :=
  { s with
    pendingCtrlRequests := Function.update s.pendingCtrlRequests a
      (Function.update (s.pendingCtrlRequests a) t n) }

/-! ## Sending -/

/-- The request is counted, and handed to USB. Without a device object to send it, it fails at
once. -/
def countAndSend (ad : Adapters) (s : State) (r : Request) : State :=
  let s := s.setPending r.adapter r.qmiType (s.pendingCtrlRequests r.adapter r.qmiType + 1)
  match ad.findStackDeviceObject r.adapter with
  | some _ => { s with sending := s.sending ++ [r] }
  | none => s

/-- `MP_USBSendControlRequest`. -/
def sendControlRequest (ad : Adapters) (s : State) (a : Nat) (msg : Msg) : State :=
  s.countAndSend ad ⟨a, none, msg.qmiType, msg.clientId⟩

/-- A turn of `MPWork_PostWriteRequests` under `CtrlWriteLock`. -/
def postWriteRequests (ad : Adapters) (s : State) (a : Nat) : Option State :=
  match s.posting a, s.ctrlWriteList a with
  | none, msg :: rest =>
    if s.isQmiWorking a = false then none
    else if s.pendingCtrlRequests a msg.qmiType < ad.maxPendingQMIReqs a then
      some { s with
        ctrlWriteList := Function.update s.ctrlWriteList a rest
        posting := Function.update s.posting a (some msg) }
    else
      -- insert to the tail of the list back
      some { s with ctrlWriteList := Function.update s.ctrlWriteList a (rest ++ [msg]) }
  | _, _ => none

/-- `MPWork_PostWriteRequests` behind the lock. -/
def sendPosted (ad : Adapters) (s : State) (a : Nat) : Option State :=
  match s.posting a with
  | none => none
  | some msg =>
    let s := { s with posting := Function.update s.posting a none }
    some (s.sendControlRequest ad a msg)

/-- `MPIOC_WriteThread` takes a write off `WriteIrpQueue`. -/
def writeDequeue (ad : Adapters) (s : State) (c : Nat) : Option State :=
  match s.pWriteCurrent c, s.writeIrpQueue c with
  | none, data :: rest =>
    let dev := s.dev c
    if s.bWriteActive c = false ∧
        s.pendingCtrlRequests dev.adapter dev.qmiType < ad.maxPendingQMIReqs dev.adapter then
      some { s with
        writeIrpQueue := Function.update s.writeIrpQueue c rest
        pWriteCurrent := Function.update s.pWriteCurrent c (some data) }
    else none
  | _, _ => none

/-- `MPIOC_WriteThread` counts the write and sends it. -/
def writeSend (ad : Adapters) (s : State) (c : Nat) : Option State :=
  match s.pWriteCurrent c, s.bWriteActive c with
  | some _, false =>
    let dev := s.dev c
    some ({ s with bWriteActive := Function.update s.bWriteActive c true }.countAndSend ad
      ⟨dev.adapter, some c, dev.qmiType, dev.clientId⟩)
  | _, _ => none

/-- A send completes. `MP_SendControlCompletion` frees the IRP, and `MPIOC_WtIrpCompletion` lets the
write thread complete the write. The request of a failed send does not reach the device. -/
def sendCompletes (s : State) (r : Request) (success : Bool) : Option State :=
  if r ∈ s.sending then
    let s := { s with
      sending := s.sending.erase r
      sent := if success then s.sent ++ [r] else s.sent }
    match r.client with
    | none => some s
    | some c =>
      some { s with
        bWriteActive := Function.update s.bWriteActive c false
        pWriteCurrent := Function.update s.pWriteCurrent c none }
  else none

/-! ## Messages of the device -/

/-- `MPIOC_FindIoDevice` for a message, with no reference device. -/
def findIoDevice (ad : Adapters) (s : State) (a : Nat) (msg : Msg) : Option Nat :=
  s.deviceList.find? fun c => (s.dev c).isFirst ad.muxInterface a msg

/-- `bToOID` and `returnAdapter` of `MPQMI_ProcessInboundQMUX`. -/
def route (ad : Adapters) (s : State) (a : Nat) (msg : Msg) : Bool × Option Nat :=
  let own := msg.clientId == ad.clientId a msg.qmiType || msg.isBroadcast
  let returnAdapter := if own then none else ad.findallAdapters a msg
  let bToOID := own || returnAdapter.isSome || ad.isWdsIpClient a msg
  match ad.findallDualIPAdapters a msg with
  | some b => (true, some b)
  | none =>
    if !bToOID && isBindResponse msg then
      (true, (if s.isQmiWorking a then s.findIoDevice ad a msg else none).map fun c =>
        (s.dev c).adapter)
    else (bToOID, returnAdapter)

/-- The counter that `MPQMI_SendQMUXToExternalClient` lowers for a message that is no broadcast. -/
def loweredExternal (ad : Adapters) (s : State) (a : Nat) (msg : Msg) : Option (Nat × UInt8) :=
  if s.isQmiWorking a then
    match s.findIoDevice ad a msg with
    | some c =>
      if msg.qmux.length < qcqmuxHdrSize ∨ msg.isInd then none
      else some ((s.dev c).adapter, (s.dev c).qmiType)
    | none => none
  else none

/-- The counter that `MPQMI_ProcessInboundQMUX` lowers. Of a broadcast, only an indication goes to
external clients. -/
def lowered (ad : Adapters) (s : State) (a : Nat) (msg : Msg) : Option (Nat × UInt8) :=
  let (bToOID, returnAdapter) := s.route ad a msg
  let a := returnAdapter.getD a
  if bToOID then
    if !msg.isBroadcast && isRsp msg then some (a, msg.qmiType) else none
  else s.loweredExternal ad a msg

/-- `MPQMI_ProcessInboundQMUX`. -/
def processInboundQMUX (ad : Adapters) (s : State) (a : Nat) (msg : Msg) : State :=
  match s.lowered ad a msg with
  | some (b, t) => s.setPending b t (s.pendingCtrlRequests b t - 1)
  | none => s

/-- `MPQMI_ProcessInboundQMI`. The messages of the control service are not counted off. -/
def processInboundQMI (ad : Adapters) (s : State) (a : Nat) (msg : Msg) : State :=
  if msg.qmiType = qmuxTypeCtl then s else s.processInboundQMUX ad a msg

/-- The device answers a request, and an adapter of its physical device gets the answer. -/
def response (ad : Adapters) (s : State) (a : Nat) (r : Request) (qmux : List UInt8) :
    Option State :=
  let msg := ⟨r.qmiType, r.clientId, qmux⟩
  if r ∈ s.sent ∧ ad.samePhysical a r.adapter ∧ isRsp msg then
    some ({ s with sent := s.sent.erase r }.processInboundQMI ad a msg)
  else none

/-! ## Clients -/

/-- `IRP_MJ_CLOSE` of a client. -/
def close (s : State) (c : Nat) : State :=
  { s with
    dev := Function.update s.dev c { s.dev c with clientId := 0 }
    closed := Function.update s.closed c true }

/-- `IOCTL_QCDEV_PURGE_QMI_QUEUE` behind the purge of `WriteIrpQueue`. -/
def purgeQmiQueue (s : State) (c : Nat) : State :=
  s.setPending (s.dev c).adapter (s.dev c).qmiType 0

end State

/-! ## The machine -/

inductive Op
  | sendControl (a : Nat) (msg : Msg)
  | postWriteRequests (a : Nat)
  | sendPosted (a : Nat)
  | sendControlRequest (a : Nat) (msg : Msg)
  | write (c : Nat) (data : List UInt8)
  | writeDequeue (c : Nat)
  | writeSend (c : Nat)
  | sendCompletes (r : Request) (success : Bool)
  | response (a : Nat) (r : Request) (qmux : List UInt8)
  | indication (a : Nat) (msg : Msg)
  | close (c : Nat)
  | deleteFilterDevice (c : Nat)
  | purgeWriteQueue (c : Nat)
  | purgeQmiQueue (c : Nat)
  | qmiWorking (a : Nat) (working : Bool)
  deriving DecidableEq

def step (ad : Adapters) (s : State) : Op → Option State
  | .sendControl a msg =>
    some { s with ctrlWriteList := Function.update s.ctrlWriteList a (s.ctrlWriteList a ++ [msg]) }
  | .postWriteRequests a => s.postWriteRequests ad a
  | .sendPosted a => s.sendPosted ad a
  | .sendControlRequest a msg => some (s.sendControlRequest ad a msg)
  | .write c data =>
    some { s with writeIrpQueue := Function.update s.writeIrpQueue c (s.writeIrpQueue c ++ [data]) }
  | .writeDequeue c => s.writeDequeue ad c
  | .writeSend c => s.writeSend ad c
  | .sendCompletes r success => s.sendCompletes r success
  | .response a r qmux => s.response ad a r qmux
  | .indication a msg => if msg.isInd then some (s.processInboundQMI ad a msg) else none
  | .close c => some (s.close c)
  | .deleteFilterDevice c => some { s with deviceList := s.deviceList.erase c }
  | .purgeWriteQueue c => some { s with writeIrpQueue := Function.update s.writeIrpQueue c [] }
  | .purgeQmiQueue c => some (s.purgeQmiQueue c)
  | .qmiWorking a working =>
    some { s with isQmiWorking := Function.update s.isQmiWorking a working }

/-- The steps in any order. -/
def quota (ad : Adapters) : Machine State Op Unit := fun s op =>
  (step ad s op).map fun s' => (s', ())

theorem step_of_quota {ad : Adapters} {s s' : State} {op : Op} {o : Unit}
    (h : quota ad s op = some (s', o)) : step ad s op = some s' := by
  obtain ⟨t, ht, heq⟩ := Option.map_eq_some_iff.mp h
  obtain rfl : t = s' := congrArg Prod.fst heq
  exact ht

/-! ## Conservation -/

namespace State

/-- The requests that are neither answered nor failed. -/
def outstanding (s : State) : List Request := s.sending ++ s.sent

/-- Of the requests of a service on an adapter, those that keep the counter up: they are neither
answered nor failed, and their client was not closed. -/
def unfinished (s : State) (a : Nat) (t : UInt8) : List Request :=
  s.outstanding.filter fun r => r.adapter = a ∧ r.qmiType = t ∧ r.client.all (!s.closed ·) = true

/-- The counters of the QMUX services are never negative, and 0 when no request keeps them up. -/
structure Conserved (s : State) : Prop where
  nonneg : ∀ a, ∀ t ≠ qmuxTypeCtl, 0 ≤ s.pendingCtrlRequests a t
  zero : ∀ a, ∀ t ≠ qmuxTypeCtl, s.unfinished a t = [] → s.pendingCtrlRequests a t = 0

end State

/-- The request is counted off again at the latest when it is answered: there is a device object to
send it, and its client is not closed. -/
def Request.Sendable (ad : Adapters) (s : State) (r : Request) : Prop :=
  r.qmiType ≠ qmuxTypeCtl →
    (ad.findStackDeviceObject r.adapter).isSome ∧ r.client.all (!s.closed ·) = true

/-- The condition on a step. No send fails, a response is routed to the counter on which its request
was counted, no client is closed while one of its requests is outstanding, and no counter is purged
while a request keeps it up. -/
def Op.Steady (ad : Adapters) (s : State) : Op → Prop
  | .sendPosted a => ∀ msg ∈ s.posting a, Request.Sendable ad s ⟨a, none, msg.qmiType, msg.clientId⟩
  | .sendControlRequest a msg => Request.Sendable ad s ⟨a, none, msg.qmiType, msg.clientId⟩
  | .writeSend c =>
    Request.Sendable ad s ⟨(s.dev c).adapter, some c, (s.dev c).qmiType, (s.dev c).clientId⟩
  | .sendCompletes r success => r.qmiType ≠ qmuxTypeCtl → success = true
  | .response a r qmux =>
    r.qmiType ≠ qmuxTypeCtl →
      s.lowered ad a ⟨r.qmiType, r.clientId, qmux⟩ = some (r.adapter, r.qmiType)
  | .close c => ∀ r ∈ s.outstanding, r.qmiType ≠ qmuxTypeCtl → r.client ≠ some c
  | .purgeQmiQueue c =>
    (s.dev c).qmiType ≠ qmuxTypeCtl → s.unfinished (s.dev c).adapter (s.dev c).qmiType = []
  | _ => True

instance (ad : Adapters) (s : State) (r : Request) : Decidable (r.Sendable ad s) :=
  inferInstanceAs (Decidable
    (r.qmiType ≠ qmuxTypeCtl →
      (ad.findStackDeviceObject r.adapter).isSome ∧ r.client.all (!s.closed ·) = true))

instance (ad : Adapters) (s : State) : (op : Op) → Decidable (op.Steady ad s)
  | .sendPosted a =>
    inferInstanceAs (Decidable
      (∀ msg ∈ s.posting a, Request.Sendable ad s ⟨a, none, msg.qmiType, msg.clientId⟩))
  | .sendControlRequest a msg =>
    inferInstanceAs (Decidable (Request.Sendable ad s ⟨a, none, msg.qmiType, msg.clientId⟩))
  | .writeSend c =>
    inferInstanceAs (Decidable
      (Request.Sendable ad s ⟨(s.dev c).adapter, some c, (s.dev c).qmiType, (s.dev c).clientId⟩))
  | .sendCompletes r success =>
    inferInstanceAs (Decidable (r.qmiType ≠ qmuxTypeCtl → success = true))
  | .response a r qmux =>
    inferInstanceAs (Decidable
      (r.qmiType ≠ qmuxTypeCtl →
        s.lowered ad a ⟨r.qmiType, r.clientId, qmux⟩ = some (r.adapter, r.qmiType)))
  | .close c =>
    inferInstanceAs (Decidable
      (∀ r ∈ s.outstanding, r.qmiType ≠ qmuxTypeCtl → r.client ≠ some c))
  | .purgeQmiQueue c =>
    inferInstanceAs (Decidable
      ((s.dev c).qmiType ≠ qmuxTypeCtl → s.unfinished (s.dev c).adapter (s.dev c).qmiType = []))
  | .sendControl .. | .postWriteRequests _ | .write .. | .writeDequeue _ | .indication ..
  | .deleteFilterDevice _ | .purgeWriteQueue _ | .qmiWorking .. => .isTrue trivial

/-! ## The invariant -/

variable {ad : Adapters} {s s' : State} {r : Request} {a c : Nat} {t : UInt8} {msg : Msg}

/-- The outstanding requests of a service on an adapter. -/
def State.counted (s : State) (a : Nat) (t : UInt8) : Nat :=
  s.outstanding.countP fun r => r.adapter = a ∧ r.qmiType = t

/-- The counters of the QMUX services count the outstanding requests, which are those of the driver
and of clients that were not closed. -/
structure Inv (s : State) : Prop where
  count : ∀ a, ∀ t ≠ qmuxTypeCtl, s.pendingCtrlRequests a t = s.counted a t
  client : ∀ r ∈ s.outstanding, r.qmiType ≠ qmuxTypeCtl → r.client.all (!s.closed ·) = true

theorem Inv.start (deviceList : List Nat) (dev : Nat → DevInfo) : Inv (.start deviceList dev) where
  count := fun _ _ _ => rfl
  client := by simp [State.start, State.outstanding]

namespace Inv

/-- The requests that are counted are those that keep the counter up. -/
theorem length_unfinished (h : Inv s) (ht : t ≠ qmuxTypeCtl) :
    (s.unfinished a t).length = s.counted a t := by
  rw [State.counted, List.countP_eq_length_filter, State.unfinished]
  congr 1
  refine List.filter_congr fun r hr => ?_
  rw [decide_eq_decide]
  refine ⟨fun hall => ⟨hall.1, hall.2.1⟩, fun hboth => ⟨hboth.1, hboth.2, h.client r hr ?_⟩⟩
  exact hboth.2 ▸ ht

theorem conserved (h : Inv s) : s.Conserved where
  nonneg := by
    intro a t ht
    rw [h.count a t ht]
    exact Int.natCast_nonneg _
  zero := by
    intro a t ht hnil
    rw [h.count a t ht, ← h.length_unfinished ht, hnil]
    rfl

/-- No request comes or goes, and only the counters of the control service change. -/
theorem congr (h : Inv s) (hperm : s'.outstanding.Perm s.outstanding)
    (hpending : ∀ a, ∀ t ≠ qmuxTypeCtl, s'.pendingCtrlRequests a t = s.pendingCtrlRequests a t)
    (hclosed : s'.closed = s.closed) : Inv s' where
  count := by
    intro a t ht
    rw [hpending a t ht, h.count a t ht, State.counted, State.counted, hperm.countP_eq]
  client := by
    intro r hr ht
    rw [hclosed]
    exact h.client r (hperm.mem_iff.mp hr) ht

/-- A request is counted and sent. -/
theorem countUp (h : Inv s) (hperm : s'.outstanding.Perm (r :: s.outstanding))
    (hpending : ∀ a, ∀ t ≠ qmuxTypeCtl, s'.pendingCtrlRequests a t =
      s.pendingCtrlRequests a t + if r.adapter = a ∧ r.qmiType = t then 1 else 0)
    (hclosed : s'.closed = s.closed)
    (hclient : r.qmiType ≠ qmuxTypeCtl → r.client.all (!s.closed ·) = true) : Inv s' where
  count := by
    intro a t ht
    rw [hpending a t ht, h.count a t ht, State.counted, State.counted, hperm.countP_eq,
      List.countP_cons]
    simp only [decide_eq_true_eq]
    split_ifs <;> simp
  client := by
    intro x hx ht
    rw [hclosed]
    rcases List.mem_cons.mp (hperm.mem_iff.mp hx) with rfl | hx
    · exact hclient ht
    · exact h.client x hx ht

/-- A request is counted off when it is no longer outstanding. -/
theorem countDown (h : Inv s) (hperm : s.outstanding.Perm (r :: s'.outstanding))
    (hpending : ∀ a, ∀ t ≠ qmuxTypeCtl, s'.pendingCtrlRequests a t =
      s.pendingCtrlRequests a t - if r.adapter = a ∧ r.qmiType = t then 1 else 0)
    (hclosed : s'.closed = s.closed) : Inv s' where
  count := by
    intro a t ht
    rw [hpending a t ht, h.count a t ht, State.counted, State.counted, hperm.countP_eq,
      List.countP_cons]
    simp only [decide_eq_true_eq]
    split_ifs <;> simp
  client := by
    intro x hx ht
    rw [hclosed]
    exact h.client x (hperm.mem_iff.mpr (List.mem_cons_of_mem r hx)) ht

end Inv

/-! ## Steps -/

theorem setPending_of_ne {n : Int} {a' : Nat} {t' : UInt8} (hne : ¬(a = a' ∧ t = t')) :
    (s.setPending a t n).pendingCtrlRequests a' t' = s.pendingCtrlRequests a' t' := by
  rcases eq_or_ne a' a with rfl | ha
  · have ht : t' ≠ t := fun heq => hne ⟨rfl, heq.symm⟩
    simp [State.setPending, ht]
  · simp [State.setPending, ha]

theorem setPending_self (n : Int) : (s.setPending a t n).pendingCtrlRequests a t = n := by
  simp [State.setPending]

/-- A counter goes up or down by one. -/
theorem setPending_add (n : Int) (a' : Nat) (t' : UInt8) :
    (s.setPending a t (s.pendingCtrlRequests a t + n)).pendingCtrlRequests a' t' =
      s.pendingCtrlRequests a' t' + if a = a' ∧ t = t' then n else 0 := by
  split_ifs with heq
  · obtain ⟨rfl, rfl⟩ := heq
    exact setPending_self _
  · rw [setPending_of_ne heq, Int.add_zero]

theorem countAndSend_inv (h : Inv s) (hok : r.Sendable ad s) : Inv (s.countAndSend ad r) := by
  unfold State.countAndSend
  dsimp only
  split
  · refine h.countUp (r := r) ?_ (fun a t _ => setPending_add 1 a t) rfl fun ht => (hok ht).2
    exact (List.perm_append_singleton r s.sending).append_right s.sent
  · rename_i hnone
    -- a request that is not sent is one of the control service
    have hctl : r.qmiType = qmuxTypeCtl := by
      by_contra hne
      simpa [hnone] using (hok hne).1
    refine h.congr (.refl _) (fun a t ht => setPending_of_ne fun heq => ?_) rfl
    exact ht (heq.2.symm.trans hctl)

theorem sendCompletes_inv {success : Bool} (h : Inv s)
    (hok : r.qmiType ≠ qmuxTypeCtl → success = true)
    (hstep : s.sendCompletes r success = some s') : Inv s' := by
  obtain ⟨hr, hstep⟩ := Option.ite_none_right_eq_some.mp hstep
  have hsplit : s.sending.Perm (r :: s.sending.erase r) := List.perm_cons_erase hr
  have hinv : Inv { s with
      sending := s.sending.erase r
      sent := if success then s.sent ++ [r] else s.sent } := by
    cases success with
    | true =>
      refine h.congr ?_ (fun _ _ _ => rfl) rfl
      calc s.sending.erase r ++ (s.sent ++ [r])
          = s.sending.erase r ++ s.sent ++ [r] := (List.append_assoc ..).symm
        List.Perm _ (r :: (s.sending.erase r ++ s.sent)) := List.perm_append_singleton ..
        List.Perm _ (s.sending ++ s.sent) := (hsplit.append_right s.sent).symm
    | false =>
      have hctl : r.qmiType = qmuxTypeCtl := by
        by_contra hne
        cases hok hne
      refine h.countDown (r := r) (hsplit.append_right s.sent) (fun a t ht => ?_) rfl
      have hne : ¬(r.adapter = a ∧ r.qmiType = t) := fun heq => ht (heq.2.symm.trans hctl)
      rw [if_neg hne, Int.sub_zero]
  dsimp only at hstep
  split at hstep
  · cases hstep
    exact hinv
  · cases hstep
    exact hinv.congr (.refl _) (fun _ _ _ => rfl) rfl

theorem response_inv {qmux : List UInt8} (h : Inv s)
    (hok : r.qmiType ≠ qmuxTypeCtl →
      s.lowered ad a ⟨r.qmiType, r.clientId, qmux⟩ = some (r.adapter, r.qmiType))
    (hstep : s.response ad a r qmux = some s') : Inv s' := by
  obtain ⟨⟨hr, -, -⟩, hstep⟩ := Option.ite_none_right_eq_some.mp hstep
  cases hstep
  have hperm : s.outstanding.Perm (r :: (s.sending ++ s.sent.erase r)) :=
    ((List.perm_cons_erase hr).append_left s.sending).trans List.perm_middle
  unfold State.processInboundQMI
  dsimp only
  split_ifs with hctl
  · refine h.countDown hperm (fun a t ht => ?_) rfl
    rw [if_neg fun heq => ht (heq.2.symm.trans hctl), Int.sub_zero]
  · have hlowered : State.lowered ad { s with sent := s.sent.erase r } a
        ⟨r.qmiType, r.clientId, qmux⟩ = some (r.adapter, r.qmiType) := hok hctl
    rw [State.processInboundQMUX, hlowered]
    refine h.countDown (r := r) hperm (fun a t _ => ?_) rfl
    refine (setPending_add (s := { s with sent := s.sent.erase r }) (-1) a t).trans ?_
    split_ifs <;> rfl

/-- An indication lowers no counter. -/
theorem lowered_ind (hmsg : msg.isInd = true) : s.lowered ad a msg = none := by
  have hrsp : isRsp msg = false := by
    rw [Msg.isInd, beq_iff_eq] at hmsg
    rw [isRsp, hmsg]
    rfl
  have hexternal : ∀ b, s.loweredExternal ad b msg = none := by
    intro b
    unfold State.loweredExternal
    split
    · split
      · rw [if_pos (.inr hmsg)]
      · rfl
    · rfl
  unfold State.lowered
  simp [hrsp, hexternal]

theorem processInboundQMI_ind (hmsg : msg.isInd = true) : s.processInboundQMI ad a msg = s := by
  unfold State.processInboundQMI State.processInboundQMUX
  rw [lowered_ind hmsg]
  split_ifs <;> rfl

theorem close_inv (h : Inv s)
    (hok : ∀ r ∈ s.outstanding, r.qmiType ≠ qmuxTypeCtl → r.client ≠ some c) : Inv (s.close c) where
  count := h.count
  client := by
    intro r hr ht
    have hopen := h.client r hr ht
    have hne := hok r hr ht
    cases hclient : r.client with
    | none => rfl
    | some x =>
      rw [hclient] at hopen hne
      have hx : x ≠ c := fun heq => hne (congrArg some heq)
      simpa [State.close, hx] using hopen

theorem purgeQmiQueue_inv (h : Inv s)
    (hok : (s.dev c).qmiType ≠ qmuxTypeCtl →
      s.unfinished (s.dev c).adapter (s.dev c).qmiType = []) : Inv (s.purgeQmiQueue c) where
  count := by
    intro a t ht
    change (s.setPending _ _ 0).pendingCtrlRequests a t = s.counted a t
    by_cases heq : (s.dev c).adapter = a ∧ (s.dev c).qmiType = t
    · obtain ⟨rfl, rfl⟩ := heq
      rw [setPending_self, ← h.length_unfinished ht, hok ht]
      rfl
    · rw [setPending_of_ne heq]
      exact h.count a t ht
  client := h.client

theorem Inv.step {op : Op} (h : Inv s) (hok : op.Steady ad s) (hstep : step ad s op = some s') :
    Inv s' := by
  have hsame {u : State} (hu : some u = some s') (hout : u.outstanding = s.outstanding)
      (hpending : u.pendingCtrlRequests = s.pendingCtrlRequests) (hclosed : u.closed = s.closed) :
      Inv s' := by
    cases hu
    exact h.congr (.of_eq hout) (fun a t _ => by rw [hpending]) hclosed
  cases op with
  | sendControl a msg => exact hsame hstep rfl rfl rfl
  | postWriteRequests a =>
    simp only [Quota.step, State.postWriteRequests] at hstep
    split at hstep
    · split_ifs at hstep <;> exact hsame hstep rfl rfl rfl
    · cases hstep
  | sendPosted a =>
    simp only [Quota.step, State.sendPosted] at hstep
    split at hstep
    · cases hstep
    · rename_i msg hposting
      cases hstep
      have hbefore : Inv { s with posting := Function.update s.posting a none } :=
        h.congr (.refl _) (fun _ _ _ => rfl) rfl
      exact countAndSend_inv hbefore (hok msg hposting)
  | sendControlRequest a msg =>
    cases hstep
    exact countAndSend_inv h hok
  | write c data => exact hsame hstep rfl rfl rfl
  | writeDequeue c =>
    simp only [Quota.step, State.writeDequeue] at hstep
    split at hstep
    · split_ifs at hstep
      exact hsame hstep rfl rfl rfl
    · cases hstep
  | writeSend c =>
    simp only [Quota.step, State.writeSend] at hstep
    split at hstep
    · cases hstep
      have hbefore : Inv { s with bWriteActive := Function.update s.bWriteActive c true } :=
        h.congr (.refl _) (fun _ _ _ => rfl) rfl
      exact countAndSend_inv hbefore hok
    · cases hstep
  | sendCompletes r success => exact sendCompletes_inv h hok hstep
  | response a r qmux => exact response_inv h hok hstep
  | indication a msg =>
    obtain ⟨hmsg, hstep⟩ := Option.ite_none_right_eq_some.mp hstep
    rw [processInboundQMI_ind hmsg] at hstep
    exact hsame hstep rfl rfl rfl
  | close c =>
    cases hstep
    exact close_inv h hok
  | deleteFilterDevice c => exact hsame hstep rfl rfl rfl
  | purgeWriteQueue c => exact hsame hstep rfl rfl rfl
  | purgeQmiQueue c =>
    cases hstep
    exact purgeQmiQueue_inv h hok
  | qmiWorking a working => exact hsame hstep rfl rfl rfl

/-- The counters are right in every run of steady steps. -/
theorem conserved_of_steady (ad : Adapters) (deviceList : List Nat) (dev : Nat → DevInfo)
    (ops : List Op)
    (hok : ∀ p ∈ (quota ad).fires (.start deviceList dev) ops, p.2.Steady ad p.1) :
    ∀ s ∈ (quota ad).visits (.start deviceList dev) ops, s.Conserved := by
  intro s hs
  have hstep : ∀ s op s' o, Inv s → op.Steady ad s → quota ad s op = some (s', o) → Inv s' :=
    fun s op s' o hinv hop hs => hinv.step hop (step_of_quota hs)
  have hinv := Machine.visits_all_of_fires hstep (.start deviceList dev) hok s hs
  exact hinv.conserved

/-- One adapter without multiplexing, whose own WDS client has the id 1. -/
def oneAdapter : Adapters where
  adapterList := [0]
  muxInterface := fun _ => ⟨0, 0, 0, 0⟩
  clientId := fun _ t => if t = qmuxTypeWds then 1 else 0
  isDualIPSupported := fun _ => false
  wdsIpClientContext := fun _ => none
  maxPendingQMIReqs := fun _ => 3

/-- An external WDS client with the id 2. -/
def wdsClient : DevInfo := ⟨0, false, qmuxTypeWds, 2, 0⟩

/-- A request of the driver and one of the client are sent and answered. Then the client purges its
queue and closes. -/
def answeredRun : List Op :=
  [.sendControl 0 ⟨1, 1, [0, 1, 0]⟩, .postWriteRequests 0, .sendPosted 0, .write 0 [0, 2, 0],
    .writeDequeue 0, .writeSend 0, .sendCompletes ⟨0, none, 1, 1⟩ true,
    .sendCompletes ⟨0, some 0, 1, 2⟩ true, .response 0 ⟨0, some 0, 1, 2⟩ [2, 2, 0],
    .indication 0 ⟨1, broadcastCid, [4, 0, 0]⟩, .response 0 ⟨0, none, 1, 1⟩ [2, 1, 0],
    .purgeWriteQueue 0, .purgeQmiQueue 0, .close 0, .deleteFilterDevice 0]

theorem conserved_of_steady_answered :
    (∀ p ∈ (quota oneAdapter).fires (.start [0] fun _ => wdsClient) answeredRun,
      p.2.Steady oneAdapter p.1) ∧
      ∀ s ∈ (quota oneAdapter).visits (.start [0] fun _ => wdsClient) answeredRun,
        s.Conserved := by
  have hok : ∀ p ∈ (quota oneAdapter).fires (.start [0] fun _ => wdsClient) answeredRun,
      p.2.Steady oneAdapter p.1 := by decide +kernel
  exact ⟨hok, conserved_of_steady oneAdapter [0] (fun _ => wdsClient) answeredRun hok⟩

/-- A request whose send fails stays counted. -/
theorem failed_send_counted :
    ∃ s ∈ (quota oneAdapter).visits (.start [0] fun _ => wdsClient)
      [.sendControlRequest 0 ⟨1, 1, [0, 1, 0]⟩, .sendCompletes ⟨0, none, 1, 1⟩ false],
      ¬ s.Conserved := by
  obtain ⟨s, hs, hnone, hcount⟩ :
      ∃ s ∈ (quota oneAdapter).visits (.start [0] fun _ => wdsClient)
        [.sendControlRequest 0 ⟨1, 1, [0, 1, 0]⟩, .sendCompletes ⟨0, none, 1, 1⟩ false],
        s.unfinished 0 qmuxTypeWds = [] ∧ s.pendingCtrlRequests 0 qmuxTypeWds = 1 := by
    decide +kernel
  refine ⟨s, hs, fun h => ?_⟩
  have hzero := h.zero 0 qmuxTypeWds (by decide) hnone
  rw [hcount] at hzero
  cases hzero

end Ndis.Quota
