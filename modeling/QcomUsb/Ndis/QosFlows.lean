-- SUMMARY: QoS flows of the miniport: the flow tables, the filters in the order of their precedence, and the threads that sort packets into flows, change the flows and send the packets.
import QcomUsb.Library.StableOrder
import QcomUsb.Library.Transition
import QcomUsb.Ndis.QosFilter

/-!
# QoS flows

A flow is in one of four tables. The main thread puts each packet of `TxPendingList` on the flow of
the first filter that takes it, or on the default flow. The QMI thread adds, changes and deletes the
flows that the device reports. The dispatch thread sends the packets. Each step is one hold of
`TxLock`.
-/

namespace Ndis.Qos

open Transition

/-- `QOS_FLOW_QUEUE_TYPE`. -/
inductive QosFlowQueueType
  | sendWithData
  | sendWithoutData
  | queued
  | default
deriving DecidableEq

/-- A pointer to a flow: the one inside of the adapter, or one that was allocated. -/
inductive FlowPtr
  | defaultQosFlow
  | entry (address : Nat)
deriving DecidableEq

/-- `MPQOS_FLOW_ENTRY`. -/
structure MpqosFlowEntry (P : Type) where
  flowId : UInt32
  filterList : List Nat
  packets : List P
  flowState : QosFlowQueueType

/-- `QMI_FILTER` in memory, with the flow it belongs to. -/
structure FilterEntry where
  filter : QmiFilter
  flow : FlowPtr

/-- `QOS_FILTER_PRECEDENCE_INVALID`. -/
def qosFilterPrecedenceInvalid : Nat := 256

/-- A filter of a report before it is parsed. -/
def QmiFilter.zeroed : QmiFilter :=
  { index := 0
    ipVersion := 0
    ipv4SrcAddr := 0
    ipv4SrcAddrSubnetMask := 0
    ipv4DestAddr := 0
    ipv4DestAddrSubnetMask := 0
    ipv4NextHdrProtocol := 0
    ipv4TypeOfService := 0
    ipv4TypeOfServiceMask := 0
    tcpSrcPort := ⟨false, 0, 0⟩
    tcpDestPort := ⟨false, 0, 0⟩
    udpSrcPort := ⟨false, 0, 0⟩
    udpDestPort := ⟨false, 0, 0⟩
    icmpFilterMsgType := ⟨false, 0⟩
    icmpFilterCodeField := ⟨false, 0⟩
    tcpUdpSrcPort := ⟨false, 0, 0⟩
    tcpUdpDestPort := ⟨false, 0, 0⟩
    precedence := qosFilterPrecedenceInvalid
    filterId := 0
    ipv6SrcAddr := List.replicate 16 0
    ipv6SrcAddrPrefixLen := 0
    ipv6DestAddr := List.replicate 16 0
    ipv6DestAddrPrefixLen := 0
    ipv6NextHdrProtocol := 0
    ipv6TrafficClass := 0
    ipv6TrafficClassMask := 0
    ipv6FlowLabel := 0
    ipv6SrcAddrMask := ⟨0, 0⟩
    ipv6DestAddrMask := ⟨0, 0⟩
    packetInfoList := [] }

/-- What happens to a packet. -/
inductive Event (P : Type)
  /-- It is put on `TxPendingList`. -/
  | pended (p : P)
  /-- It is put on a flow. -/
  | enqueued (flow : FlowPtr) (p : P)
  /-- It is given to USB. -/
  | sent (flow : FlowPtr) (p : P)
  /-- It is completed with an error. -/
  | failed (flow : FlowPtr) (p : P)
  /-- It goes back to `TxPendingList`. -/
  | requeued (flow : FlowPtr) (p : P)
  /-- It is given to USB after it was completed. -/
  | sentCompleted (flow : FlowPtr) (p : P)
  /-- It is completed with an error before it is on any flow. -/
  | dropped (p : P)

/-- Where the dispatch thread is: at its wait, in the loop over the flows with data, before the
default flow, or before it looks at the default table again. -/
inductive Phase
  | wait
  | flows
  | default
  | recheck
deriving DecidableEq

/-- The flows and the filters are in memory, and the tables and lists hold pointers to them.
`outOfCapacity` says that the last round ended with packets for which there was no room, and `log`
keeps what has happened to the packets. -/
structure State (P : Type) where
  txPendingList : List P
  flowDataQueue : QosFlowQueueType → List FlowPtr
  flow : FlowPtr → MpqosFlowEntry P
  filter : Nat → FilterEntry
  filterPrecedenceList : List Nat
  defaultFlowEnabled : Bool
  qosDispThreadTxEvent : Bool
  phase : Phase
  outOfCapacity : Bool
  log : List (Event P)

/-- What does not change: `MPDisableQoS`, and whether the packets are aggregated. -/
structure Config where
  mpDisableQoS : Bool
  tlp : Bool

/-- `MPUSB_AggregationAvailable`. -/
inductive Aggregation
  | more
  | send
  | none
deriving DecidableEq

/-- What a turn of the dispatch thread meets with: whether the adapter is flagged, whether
`TxBusyList` is empty, whether `NDIS_STATUS_SUCCESS` is in a status that is not set, and what there
is room for. -/
structure Answers where
  flagged : Bool
  txBusyListEmpty : Bool
  unsetSuccess : Bool
  aggregation : Aggregation

/-- `QOS_EVENT_RPT_IND_FLOW_ACTIVATED` and the others. A suspended flow is treated as an activated
one. -/
inductive FlowAction
  | activated
  | modified
  | deleted
  | enabled
  | disabled
  | unknown

/-- What `ProcessQosFlowReport` has read from a report. -/
structure FlowReport where
  flowId : UInt32
  action : FlowAction
  filters : List QmiFilter

variable {P : Type}

namespace State

/-- `MPINI_AllocAdapter`. -/
def initial (flow : FlowPtr → MpqosFlowEntry P) (filter : Nat → FilterEntry) : State P :=
  { txPendingList := []
    flowDataQueue := fun
      | .default => [.defaultQosFlow]
      | _ => []
    flow := Function.update flow .defaultQosFlow
      { flowId := 0, filterList := [], packets := [], flowState := .sendWithData }
    filter := filter
    filterPrecedenceList := []
    defaultFlowEnabled := true
    qosDispThreadTxEvent := false
    phase := .wait
    outOfCapacity := false
    log := [] }

def record (s : State P) (e : Event P) : State P := { s with log := s.log ++ [e] }

/-- The flow is changed in memory. -/
def setFlow (s : State P) (fl : FlowPtr) (entry : MpqosFlowEntry P) : State P :=
  { s with flow := Function.update s.flow fl entry }

/-- The filter is changed in memory. -/
def setFilter (s : State P) (f : Nat) (filter : QmiFilter) : State P :=
  { s with filter := Function.update s.filter f { s.filter f with filter := filter } }

/-! ## The tables -/

/-- The tables that `FindQosFlow` and the threads go through. -/
def tables : List QosFlowQueueType := [.sendWithData, .sendWithoutData, .queued, .default]

/-- `RemoveEntryList` for a flow. -/
def removeEntryList (s : State P) (fl : FlowPtr) : State P :=
  { s with flowDataQueue := fun q => (s.flowDataQueue q).erase fl }

/-- `InsertTailList` on a table. -/
def insertTailList (s : State P) (q : QosFlowQueueType) (fl : FlowPtr) : State P :=
  { s with flowDataQueue := Function.update s.flowDataQueue q (s.flowDataQueue q ++ [fl]) }

def setFlowState (s : State P) (fl : FlowPtr) (q : QosFlowQueueType) : State P :=
  s.setFlow fl { s.flow fl with flowState := q }

/-- The flow leaves its table for the end of another. -/
def move (s : State P) (fl : FlowPtr) (q : QosFlowQueueType) : State P :=
  ((s.setFlowState fl q).removeEntryList fl).insertTailList q fl

/-- `FindQosFlow`. -/
def findQosFlow (s : State P) (queues : List QosFlowQueueType) (flowId : UInt32) : Option FlowPtr :=
  (queues.flatMap s.flowDataQueue).find? fun fl => (s.flow fl).flowId = flowId

/-! ## Filters -/

def precedence (s : State P) (f : Nat) : Nat := (s.filter f).filter.precedence

/-- The turn of `AddQosFilterToPrecedenceList` for a filter: it goes in front of the first filter
with a greater precedence. -/
def addToPrecedenceList (s : State P) (f : Nat) : State P :=
  if s.precedence f ≥ qosFilterPrecedenceInvalid then s
  else
    { s with
      filterPrecedenceList := StableOrder.put s.precedence f s.filterPrecedenceList }

/-- `AddQosFilterToPrecedenceList`. -/
def addQosFilterToPrecedenceList (s : State P) (filterList : List Nat) : State P :=
  filterList.foldl addToPrecedenceList s

/-- `AddQosFilter`. -/
def addQosFilter (s : State P) (fl : FlowPtr) (filterList : List Nat) : State P :=
  let s := s.addQosFilterToPrecedenceList filterList
  { s with
    filter := fun f =>
      if f ∈ filterList then { s.filter f with flow := fl } else s.filter f }.setFlow fl
    { s.flow fl with filterList := (s.flow fl).filterList ++ filterList }

/-- `RemoveQosFilterFromPrecedenceList`. -/
def removeQosFilterFromPrecedenceList (s : State P) (filterList : List Nat) : State P :=
  { s with filterPrecedenceList := s.filterPrecedenceList.filter (· ∉ filterList) }

/-- `MPQOSC_PurgeFilterList` for the filters of a flow. -/
def purgeFilterList (s : State P) (fl : FlowPtr) : State P :=
  (s.removeQosFilterFromPrecedenceList (s.flow fl).filterList).setFlow fl
    { s.flow fl with filterList := [] }

/-! ## Packets -/

/-- `InsertTailList` on the packets of a flow. -/
def insertPacket (s : State P) (fl : FlowPtr) (p : P) : State P :=
  (s.setFlow fl { s.flow fl with packets := (s.flow fl).packets ++ [p] }).record (.enqueued fl p)

/-- The first of some filters that takes a packet, with its flow and the filter after it. There is
no answer if a filter reads outside of the buffer. -/
def firstMatch (s : State P) (mem : Nat → UInt8) (size : Nat) (allocated : Bool) :
    List (FlowPtr × Nat) → Option (Option (FlowPtr × Nat × QmiFilter))
  | [] => some none
  | (fl, f) :: rest =>
    match (s.filter f).filter.doesPktMatchThisFilterEx mem size allocated with
    | none => none
    | some (true, filter) => some (some (fl, f, filter))
    | some (false, _) => s.firstMatch mem size allocated rest

/-- A filter has taken the packet, which goes to a flow. -/
def takenBy (s : State P) (fl : FlowPtr) (f : Nat) (filter : QmiFilter) (p : P)
    (withoutData : Bool) : State P :=
  let t := (s.setFilter f filter).insertPacket fl p
  if withoutData then t.move fl .sendWithData else t

/-- The filters that `MPQOS_EnqueueByPrecedence` goes through. -/
def orderedFilters (s : State P) : List (FlowPtr × Nat) :=
  s.filterPrecedenceList.map fun f => ((s.filter f).flow, f)

/-- The filters without a valid precedence, which `MPQOS_Enqueue` goes through flow by flow. -/
def unorderedFilters (s : State P) : List (FlowPtr × Nat) :=
  ([.sendWithData, .sendWithoutData, .queued].flatMap s.flowDataQueue).flatMap fun fl =>
    ((s.flow fl).filterList.filter fun f => s.precedence f ≥ qosFilterPrecedenceInvalid).map (fl, ·)

/-- `MPQOS_Enqueue`, with `MPQOS_EnqueueByPrecedence`. -/
def enqueue (c : Config) (s : State P) (p : P) (mem : Nat → UInt8) (size : Nat) (allocated : Bool) :
    Option (State P) :=
  match s.firstMatch mem size allocated s.orderedFilters with
  | none => none
  | some (some (fl, f, filter)) =>
    some (s.takenBy fl f filter p ((s.flow fl).flowState = .sendWithoutData))
  | some none =>
    match s.firstMatch mem size allocated (if c.mpDisableQoS then [] else s.unorderedFilters) with
    | none => none
    | some (some (fl, f, filter)) =>
      some (s.takenBy fl f filter p (fl ∈ s.flowDataQueue .sendWithoutData))
    | some none => some (s.insertPacket .defaultQosFlow p)

/-- A turn of the loop of `MPQOS_CategorizePacketsEx`. `data` are the bytes of the packet behind
its Ethernet header in `QosPacketBuffer`, if it can be read. -/
def categorizePacket (c : Config) (s : State P) (flagged : Bool) (data : Option (Nat → UInt8))
    (size : Nat) (allocated : Bool) : Option (State P) :=
  match s.txPendingList with
  | [] => none
  | p :: rest =>
    let s := { s with txPendingList := rest }
    match flagged, data with
    | false, some mem =>
      (s.enqueue c p mem size allocated).map fun s => { s with qosDispThreadTxEvent := true }
    | _, _ => some (s.record (.dropped p))

/-! ## Reports -/

/-- The filters of a report, at their addresses. -/
def allocFilters (s : State P) (addresses : List Nat) (filters : List QmiFilter) : State P :=
  { s with
    filter := (addresses.zip filters).foldl
      (fun memory a => Function.update memory a.1 ⟨a.2, .defaultQosFlow⟩) s.filter }

/-- The pointers that the flows of the tables hold. -/
def Holds (s : State P) (f : Nat) : Prop :=
  ∃ fl ∈ tables.flatMap s.flowDataQueue, f ∈ (s.flow fl).filterList

instance (s : State P) (f : Nat) : Decidable (s.Holds f) :=
  inferInstanceAs (Decidable (∃ fl ∈ tables.flatMap s.flowDataQueue, f ∈ (s.flow fl).filterList))

/-- The addresses that `ExAllocatePool` gives for a flow and for its filters are not in use. -/
def Fresh (s : State P) (address : Nat) (addresses : List Nat) (filters : List QmiFilter) : Prop :=
  .entry address ∉ tables.flatMap s.flowDataQueue ∧ addresses.length = filters.length ∧
    addresses.Nodup ∧ ∀ f ∈ addresses, ¬ s.Holds f

instance (s : State P) (address : Nat) (addresses : List Nat) (filters : List QmiFilter) :
    Decidable (s.Fresh address addresses filters) :=
  inferInstanceAs (Decidable (.entry address ∉ tables.flatMap s.flowDataQueue ∧
    addresses.length = filters.length ∧ addresses.Nodup ∧ ∀ f ∈ addresses, ¬ s.Holds f))

/-- A new flow in the table of those without data. -/
def addFlow (s : State P) (fl : FlowPtr) (flowId : UInt32) : State P :=
  (s.setFlow fl
    { flowId := flowId
      filterList := []
      packets := []
      flowState := .sendWithoutData }).insertTailList .sendWithoutData fl

/-- `QOS_EVENT_RPT_IND_FLOW_ACTIVATED`. -/
def activateFlow (s : State P) (flowId : UInt32) (address : Nat) (addresses : List Nat) : State P :=
  match s.findQosFlow [.sendWithData, .sendWithoutData, .queued] flowId with
  | none => (s.addFlow (.entry address) flowId).addQosFilter (.entry address) addresses
  | some _ => s

/-- `QOS_EVENT_RPT_IND_FLOW_MODIFIED`. -/
def modifyFlow (s : State P) (flowId : UInt32) (addresses : List Nat) : State P :=
  match s.findQosFlow [.sendWithData, .sendWithoutData, .queued] flowId with
  | none => s
  | some fl => (s.purgeFilterList fl).addQosFilter fl addresses

/-- `QOS_EVENT_RPT_IND_FLOW_DELETED`. The flow keeps its packets, in the default table. -/
def deleteFlow (s : State P) (flowId : UInt32) : State P :=
  match s.findQosFlow [.sendWithData, .sendWithoutData, .queued] flowId with
  | none => s
  | some fl =>
    let t := (s.purgeFilterList fl).move fl .default
    if (s.flow fl).packets = [] then t else { t with qosDispThreadTxEvent := true }

/-- `QOS_EVENT_RPT_IND_FLOW_ENABLED`. -/
def enableFlow (s : State P) (flowId : UInt32) : State P :=
  if flowId = 0 then { s with defaultFlowEnabled := true, qosDispThreadTxEvent := true }
  else
    match s.findQosFlow [.queued] flowId with
    | none => s
    | some fl =>
      if (s.flow fl).packets = [] then s.move fl .sendWithoutData
      else { s.move fl .sendWithData with qosDispThreadTxEvent := true }

/-- `QOS_EVENT_RPT_IND_FLOW_DISABLED`. -/
def disableFlow (s : State P) (flowId : UInt32) : State P :=
  if flowId = 0 then { s with defaultFlowEnabled := false }
  else
    match s.findQosFlow [.sendWithData, .sendWithoutData] flowId with
    | none => s
    | some fl => s.move fl .queued

/-- `ProcessQosFlowReport`, once the report is read. -/
def processQosFlowReport (s : State P) (r : FlowReport) (address : Nat) (addresses : List Nat) :
    Option (State P) :=
  if s.Fresh address addresses r.filters then
    let s := s.allocFilters addresses r.filters
    match r.action with
    | .activated => s.activateFlow r.flowId address addresses
    | .modified => s.modifyFlow r.flowId addresses
    | .deleted => s.deleteFlow r.flowId
    | .enabled => s.enableFlow r.flowId
    | .disabled => s.disableFlow r.flowId
    | .unknown => s
  else none

/-! ## Dispatch -/

/-- `MPQOS_DequeuePacket` and `MPQOS_TLPDequeuePacket`. -/
def dequeuePacket (s : State P) (fl : FlowPtr) (answers : Answers) : State P :=
  match (s.flow fl).packets with
  | [] => s
  | p :: rest =>
    let s := s.setFlow fl { s.flow fl with packets := rest }
    if answers.flagged = false then s.record (.sent fl p)
    else if answers.txBusyListEmpty then
      -- the status is not set here
      let s := s.record (.failed fl p)
      if answers.unsetSuccess then s.record (.sentCompleted fl p) else s
    else { s with txPendingList := p :: s.txPendingList }.record (.requeued fl p)

/-- Some flow of the default table has packets. -/
def PacketsPresent (s : State P) : Prop := ∃ fl ∈ s.flowDataQueue .default, (s.flow fl).packets ≠ []

/-- Not every type has decidable equality, but a list is empty or not. -/
instance (fl : FlowPtr) (s : State P) : Decidable ((s.flow fl).packets ≠ []) :=
  decidable_of_iff (¬ (s.flow fl).packets.isEmpty) (by simp)

instance (s : State P) : Decidable s.PacketsPresent :=
  inferInstanceAs (Decidable (∃ fl ∈ s.flowDataQueue .default, (s.flow fl).packets ≠ []))

/-- A flow of the default table that stays there. A deleted flow without packets is freed, but one
with the id zero. -/
def stays (s : State P) (fl : FlowPtr) : Bool :=
  !(s.flow fl).packets.isEmpty || (s.flow fl).flowId = 0 || fl = .defaultQosFlow

/-- `MPQOS_CheckDefaultQueue`. If packets are present and the default flow or one with the id zero
is empty, the default flow goes to the end. -/
def checkDefaultQueue (s : State P) : State P :=
  let t := ((s.flowDataQueue .default).filter fun fl => !s.stays fl).foldl purgeFilterList s
  let t := { t with
    flowDataQueue := Function.update t.flowDataQueue .default
      ((t.flowDataQueue .default).filter t.stays) }
  if s.PacketsPresent then
    let t := { t with qosDispThreadTxEvent := true }
    if (t.flowDataQueue .default).any fun fl => (t.flow fl).packets.isEmpty then
      t.move .defaultQosFlow .default
    else t
  else t

/-- A turn of the loop over the flows with data. Without capacity the loop ends. -/
def flowTurn (c : Config) (s : State P) (answers : Answers) : State P :=
  match s.flowDataQueue .sendWithData with
  | [] => { s with phase := .default }
  | fl :: _ =>
    if (s.flow fl).packets.isEmpty then s.move fl .sendWithoutData
    else
      match c.tlp, answers.aggregation with
      | true, .send => s
      | true, .none => { s with phase := .default, outOfCapacity := true }
      | _, _ =>
        ((s.removeEntryList fl).insertTailList .sendWithData fl).dequeuePacket fl answers

/-- The packet of the default table. -/
def defaultTurn (c : Config) (s : State P) (answers : Answers) : State P :=
  match s.flowDataQueue .default, s.defaultFlowEnabled with
  | fl :: _, true =>
    if (s.flow fl).packets.isEmpty then { s.checkDefaultQueue with phase := .wait }
    else
      match c.tlp, answers.aggregation with
      | true, .send | true, .none => { s with phase := .wait, outOfCapacity := true }
      | _, _ => { s.dequeuePacket fl answers with phase := .recheck }
  | _, _ => { s with phase := .wait }

/-- `MPQOS_DispatchThread`, with `MPQOS_TransmitPackets` and `MPQOS_TLPTransmitPackets`. -/
def dispatchTurn (c : Config) (s : State P) (answers : Answers) : Option (State P) :=
  match s.phase with
  | .wait =>
    if s.qosDispThreadTxEvent then
      some { s with qosDispThreadTxEvent := false, phase := .flows, outOfCapacity := false }
    else none
  | .flows => some (s.flowTurn c answers)
  | .default => some (s.defaultTurn c answers)
  | .recheck => some { s.checkDefaultQueue with phase := .wait }

/-! ## The end -/

/-- A flow is purged by `MPQOS_PurgeQueues`. -/
def purgeFlow (s : State P) (fl : FlowPtr) : State P :=
  let t := (s.removeQosFilterFromPrecedenceList (s.flow fl).filterList).setFlow fl
    { s.flow fl with
      filterList := []
      packets := [] }
  { t with log := s.log ++ (s.flow fl).packets.map (.failed fl) }

/-- `MPQOS_PurgeQueues`. The default flow is back in its table at the end. -/
def purgeQueues (s : State P) : State P :=
  let s := ((tables.flatMap s.flowDataQueue).foldl purgeFlow s).setFlowState .defaultQosFlow .default
  { s with
    flowDataQueue := fun
      | .default => [.defaultQosFlow]
      | _ => [] }

end State

inductive Op (P : Type)
  /-- A packet is put on `TxPendingList`. -/
  | pend (p : P)
  | categorizePacket (flagged : Bool) (data : Option (Nat → UInt8)) (size : Nat) (allocated : Bool)
  | processQosFlowReport (r : FlowReport) (address : Nat) (addresses : List Nat)
  | dispatchTurn (answers : Answers)
  /-- The dispatch thread is signalled otherwise, as when an IRP comes back. -/
  | keSetEvent
  /-- `MPQOS_EnableDefaultFlow`. -/
  | enableDefaultFlow (enable : Bool)
  | purgeQueues

def State.step (c : Config) (s : State P) : Op P → Option (State P)
  | .pend p => some ({ s with txPendingList := s.txPendingList ++ [p] }.record (.pended p))
  | .categorizePacket flagged data size allocated =>
    s.categorizePacket c flagged data size allocated
  | .processQosFlowReport r address addresses => s.processQosFlowReport r address addresses
  | .dispatchTurn answers => s.dispatchTurn c answers
  | .keSetEvent => some { s with qosDispThreadTxEvent := true }
  | .enableDefaultFlow enable => some { s with defaultFlowEnabled := enable }
  | .purgeQueues => some s.purgeQueues

/-- The threads over the flows. -/
def qosMachine (c : Config) : Machine (State P) (Op P) Unit := fun s op =>
  (s.step c op).map fun s' => (s', ())

end Ndis.Qos
