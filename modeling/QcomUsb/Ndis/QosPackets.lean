-- SUMMARY: In every run each flow sends its packets in order, and each packet is in one place.
import QcomUsb.Library.KeyedQueues
import QcomUsb.Ndis.QosFlowTables

/-!
# The packets of the flows over runs

Seen from the packets, `TxPendingList` is a line and the flows are queues behind it. Every step of the
threads moves packets as `KeyedQueues.Moves` says. A flow that is freed has no packets.
-/

namespace Ndis.Qos

open KeyedQueues Transition

variable {P : Type} {s s' : State P} {fl x : FlowPtr}

namespace Event

/-- The packets that were put on `TxPendingList`. -/
def arrived : Event P → Option P
  | .pended p => some p
  | _ => none

/-- The packets that are not the miniport's any more, or that USB has. -/
def done : Event P → Option P
  | .sent _ p | .failed _ p | .dropped p => some p
  | _ => none

def putOn (fl : FlowPtr) : Event P → Option P
  | .enqueued fl' p => if fl' = fl then some p else none
  | _ => none

def leftFrom (fl : FlowPtr) : Event P → Option P
  | .sent fl' p | .failed fl' p | .requeued fl' p => if fl' = fl then some p else none
  | _ => none

end Event

namespace State

/-- The flow is in a table. -/
def InTables (s : State P) (fl : FlowPtr) : Prop := fl ∈ tables.flatMap s.flowDataQueue

instance (s : State P) (fl : FlowPtr) : Decidable (s.InTables fl) :=
  inferInstanceAs (Decidable (fl ∈ tables.flatMap s.flowDataQueue))

/-- The packets of a flow in the tables. -/
def packetsOf (s : State P) (fl : FlowPtr) : List P :=
  if s.InTables fl then (s.flow fl).packets else []

/-- The packets of a state, as a line and queues. -/
def view (s : State P) : View FlowPtr P :=
  { line := s.txPendingList
    queue := s.packetsOf
    arrived := s.log.filterMap Event.arrived
    done := s.log.filterMap Event.done
    put := fun fl => s.log.filterMap (Event.putOn fl)
    gone := fun fl => s.log.filterMap (Event.leftFrom fl) }

theorem inTables_iff : s.InTables fl ↔ ∃ q, fl ∈ s.flowDataQueue q := by
  simp only [InTables, List.mem_flatMap]
  constructor
  · rintro ⟨q, -, hfl⟩
    exact ⟨q, hfl⟩
  · rintro ⟨q, hfl⟩
    exact ⟨q, mem_tables q, hfl⟩

/-! ## The view of a step -/

/-- Changes that are not about packets. A flow may leave the tables if it has none. -/
theorem view_congr (hpending : s'.txPendingList = s.txPendingList) (hlog : s'.log = s.log)
    (hpackets : ∀ fl, s'.packetsOf fl = s.packetsOf fl) : s'.view = s.view := by
  rw [view, hpending, hlog, funext hpackets]
  rfl

theorem packetsOf_congr (hin : s'.InTables fl ↔ s.InTables fl)
    (hpackets : (s'.flow fl).packets = (s.flow fl).packets) : s'.packetsOf fl = s.packetsOf fl := by
  simp only [packetsOf, hin, hpackets]

theorem packetsOf_of_not (h : ¬ s.InTables fl) : s.packetsOf fl = [] := if_neg h

theorem packetsOf_of_mem {q : QosFlowQueueType} (h : fl ∈ s.flowDataQueue q) :
    s.packetsOf fl = (s.flow fl).packets := if_pos (inTables_iff.mpr ⟨q, h⟩)

theorem filterMap_snoc {α β : Type} (f : α → Option β) (l : List α) (a : α) :
    (l ++ [a]).filterMap f = l.filterMap f ++ (f a).toList := by
  rw [List.filterMap_append]
  cases h : f a <;> simp [h]

/-- The history of one flow. -/
theorem snoc_eq_update (g : FlowPtr → List P) (fl : FlowPtr) (p : P) :
    (fun x => g x ++ (if fl = x then some p else none).toList) =
      Function.update g fl (g fl ++ [p]) := by
  funext x
  by_cases hx : x = fl
  · subst hx
    simp
  · simp [hx, Ne.symm hx]

theorem view_record (s : State P) (e : Event P) : (s.record e).view =
    { s.view with
      arrived := s.view.arrived ++ e.arrived.toList
      done := s.view.done ++ e.done.toList
      put := fun fl => s.view.put fl ++ (e.putOn fl).toList
      gone := fun fl => s.view.gone fl ++ (e.leftFrom fl).toList } := by
  refine View.ext rfl rfl (filterMap_snoc _ s.log e) (filterMap_snoc _ s.log e) ?_ ?_
  · exact funext fun fl => filterMap_snoc _ s.log e
  · exact funext fun fl => filterMap_snoc _ s.log e

theorem view_sentCompleted (s : State P) (fl : FlowPtr) (p : P) :
    (s.record (.sentCompleted fl p)).view = s.view := by
  rw [view_record]
  refine View.ext rfl rfl (List.append_nil _) (List.append_nil _) ?_ ?_
  · exact funext fun _ => List.append_nil _
  · exact funext fun _ => List.append_nil _

/-- A packet has left a flow for good. -/
theorem view_record_left (s : State P) (fl : FlowPtr) (p : P) {e : Event P}
    (he : e = .sent fl p ∨ e = .failed fl p) : (s.record e).view =
    { s.view with
      done := s.view.done ++ [p]
      gone := Function.update s.view.gone fl (s.view.gone fl ++ [p]) } := by
  rw [view_record, ← snoc_eq_update]
  rcases he with rfl | rfl
  all_goals exact View.ext rfl rfl (List.append_nil _) rfl (funext fun _ => List.append_nil _) rfl

theorem view_setPackets {q : QosFlowQueueType} (h : fl ∈ s.flowDataQueue q) (ps : List P) :
    (s.setFlow fl { s.flow fl with packets := ps }).view =
      { s.view with queue := Function.update s.view.queue fl ps } := by
  refine View.ext rfl (funext fun x => ?_) rfl rfl rfl rfl
  have hin : s.InTables fl := inTables_iff.mpr ⟨q, h⟩
  change (if s.InTables x then ((s.setFlow fl { s.flow fl with packets := ps }).flow x).packets else []) =
    Function.update s.packetsOf fl ps x
  rw [setFlow_flow]
  by_cases hx : x = fl
  · subst hx
    simp [hin]
  · simp [hx, packetsOf]

theorem view_insertPacket {q : QosFlowQueueType} (h : fl ∈ s.flowDataQueue q) (p : P) :
    (s.insertPacket fl p).view =
      { s.view with
        queue := Function.update s.view.queue fl (s.view.queue fl ++ [p])
        put := Function.update s.view.put fl (s.view.put fl ++ [p]) } := by
  have hqueue : s.view.queue fl = (s.flow fl).packets := packetsOf_of_mem h
  rw [insertPacket, view_record, view_setPackets h, ← snoc_eq_update s.view.put, hqueue]
  refine View.ext rfl rfl (List.append_nil _) (List.append_nil _) rfl ?_
  exact funext fun _ => List.append_nil _

theorem view_pending (s : State P) (l : List P) :
    { s with txPendingList := l }.view = { s.view with line := l } := rfl

/-- The packet at the head of `TxPendingList` goes to a flow. -/
theorem moves_insertPacket {t : State P} {p : P} {rest : List P} {q : QosFlowQueueType}
    (hpending : s.txPendingList = p :: rest) (ht : t.view = { s.view with line := rest })
    (h : fl ∈ t.flowDataQueue q) : Moves s.view (t.insertPacket fl p).view := by
  rw [view_insertPacket h, ht]
  exact .put fl hpending

theorem view_requeued (s : State P) (fl : FlowPtr) (p : P) : (s.record (.requeued fl p)).view =
    { s.view with gone := Function.update s.view.gone fl (s.view.gone fl ++ [p]) } := by
  rw [view_record, ← snoc_eq_update s.view.gone]
  refine View.ext rfl rfl (List.append_nil _) (List.append_nil _) ?_ rfl
  exact funext fun _ => List.append_nil _

/-- The packet at the head of a flow leaves it. -/
theorem moves_dequeuePacket {q : QosFlowQueueType} (h : fl ∈ s.flowDataQueue q) (answers : Answers) :
    Moves s.view (s.dequeuePacket fl answers).view := by
  rw [State.dequeuePacket]
  cases hps : (s.flow fl).packets with
  | nil => exact .keep
  | cons p rest =>
    have hhead : s.view.queue fl = p :: rest := (packetsOf_of_mem h).trans hps
    have hleft : ∀ e : Event P, e = .sent fl p ∨ e = .failed fl p →
        Moves s.view ((s.setFlow fl { s.flow fl with packets := rest }).record e).view := by
      intro e he
      rw [view_record_left _ fl p he, view_setPackets h]
      exact .leave hhead
    dsimp only
    split_ifs
    · exact hleft _ (.inl rfl)
    · rw [view_sentCompleted]
      exact hleft _ (.inr rfl)
    · exact hleft _ (.inr rfl)
    · have hback := view_pending (s.setFlow fl { s.flow fl with packets := rest }) (p :: s.txPendingList)
      rw [view_setPackets h] at hback
      rw [view_requeued]
      refine (congrArg (Moves s.view) ?_).mpr (Moves.back hhead)
      exact congrArg (fun v : View FlowPtr P =>
        { v with gone := Function.update v.gone fl (v.gone fl ++ [p]) }) hback

/-! ## Steps that do not touch packets -/

theorem view_move {q q₀ : QosFlowQueueType} (h : s.Tables) (hfl : fl ∈ s.flowDataQueue q₀) :
    (s.move fl q).view = s.view := by
  refine view_congr rfl rfl fun x => packetsOf_congr ?_ (by rw [move_flow])
  simp only [inTables_iff, mem_move h.nodup]
  constructor
  · rintro ⟨q', hx⟩
    split_ifs at hx with heq
    · exact ⟨q₀, heq ▸ hfl⟩
    · exact ⟨q', hx⟩
  · rintro ⟨q', hx⟩
    by_cases heq : x = fl
    · exact ⟨q, by rw [if_pos heq]⟩
    · exact ⟨q', by rwa [if_neg heq]⟩

theorem view_purgeFilterList (s : State P) (fl : FlowPtr) : (s.purgeFilterList fl).view = s.view :=
  view_congr rfl rfl fun x => packetsOf_congr Iff.rfl (by rw [purgeFilterList_flow])

theorem view_addQosFilter (s : State P) (fl : FlowPtr) (filterList : List Nat) :
    (s.addQosFilter fl filterList).view = s.view := by
  obtain ⟨l, filter, heq⟩ := addQosFilter_frame s fl filterList
  refine view_congr ?_ ?_ fun x => packetsOf_congr ?_ (addQosFilter_packets s fl filterList x)
  · rw [heq]
  · rw [heq]
  · rw [heq]
    exact Iff.rfl

/-- A new flow has no packets. -/
theorem view_addFlow {flowId : UInt32} (hnew : ∀ q, fl ∉ s.flowDataQueue q) :
    (s.addFlow fl flowId).view = s.view := by
  refine view_congr rfl rfl fun x => ?_
  by_cases hx : x = fl
  · subst hx
    have hout : ¬ s.InTables x := fun hin => (inTables_iff.mp hin).elim hnew
    rw [packetsOf_of_not hout, packetsOf_of_mem (mem_addFlow.mpr (.inr ⟨rfl, rfl⟩)), addFlow_flow,
      if_pos rfl]
  · refine packetsOf_congr ?_ (by rw [addFlow_flow, if_neg hx])
    simp [inTables_iff, mem_addFlow, hx]

/-- A flow that is freed has no packets. -/
theorem view_cleanDefaultQueue (s : State P) : s.cleanDefaultQueue.view = s.view := by
  refine view_congr rfl rfl fun x => ?_
  by_cases hx : s.stays x
  · refine packetsOf_congr ?_ rfl
    simp [inTables_iff, mem_cleanDefaultQueue, hx]
  · have hempty : (s.flow x).packets = [] := by
      simp only [stays, Bool.or_eq_true, not_or, Bool.not_eq_true', Bool.not_eq_false] at hx
      exact List.isEmpty_iff.mp hx.1.1
    simp only [packetsOf, hempty, ite_self]
    exact ite_eq_right_iff.mpr fun _ => hempty

theorem view_checkDefaultQueue (h : s.Inv) : s.checkDefaultQueue.view = s.view := by
  rw [checkDefaultQueue_eq h.filters, ← view_cleanDefaultQueue s]
  split_ifs
  · have hset : { s.cleanDefaultQueue with qosDispThreadTxEvent := true }.Tables :=
      h.cleanDefaultQueue.tables.congr rfl (fun _ => rfl) (fun _ => rfl) h.cleanDefaultQueue.tables.noData
    exact view_move hset hset.default
  · rfl
  · rfl

theorem view_activateFlow {flowId : UInt32} {address : Nat} {addresses : List Nat}
    (haddress : ∀ q, .entry address ∉ s.flowDataQueue q) :
    (s.activateFlow flowId address addresses).view = s.view := by
  rw [activateFlow]
  cases s.findQosFlow [.sendWithData, .sendWithoutData, .queued] flowId with
  | some fl => rfl
  | none => exact (view_addQosFilter _ _ _).trans (view_addFlow haddress)

theorem view_modifyFlow (s : State P) (flowId : UInt32) (addresses : List Nat) :
    (s.modifyFlow flowId addresses).view = s.view := by
  rw [modifyFlow]
  cases s.findQosFlow [.sendWithData, .sendWithoutData, .queued] flowId with
  | none => rfl
  | some fl => exact (view_addQosFilter _ _ _).trans (view_purgeFilterList s fl)

theorem view_deleteFlow (h : s.Inv) (flowId : UInt32) : (s.deleteFlow flowId).view = s.view := by
  rw [deleteFlow]
  cases hfind : s.findQosFlow [.sendWithData, .sendWithoutData, .queued] flowId with
  | none => rfl
  | some fl =>
    obtain ⟨⟨q, -, hfl⟩, -⟩ := findQosFlow_some hfind
    have hmoved : ((s.purgeFilterList fl).move fl .default).view = s.view :=
      (view_move (h.tables.purgeFilterList fl) hfl).trans (view_purgeFilterList s fl)
    dsimp only
    split_ifs
    · exact hmoved
    · exact hmoved

theorem view_enableFlow (h : s.Inv) (flowId : UInt32) : (s.enableFlow flowId).view = s.view := by
  rw [enableFlow]
  split_ifs
  · rfl
  · cases hfind : s.findQosFlow [.queued] flowId with
    | none => rfl
    | some fl =>
      obtain ⟨⟨q, -, hfl⟩, -⟩ := findQosFlow_some hfind
      dsimp only
      split_ifs
      · exact view_move h.tables hfl
      · exact view_move (q := .sendWithData) h.tables hfl

theorem view_disableFlow (h : s.Inv) (flowId : UInt32) : (s.disableFlow flowId).view = s.view := by
  rw [disableFlow]
  split_ifs
  · rfl
  · cases hfind : s.findQosFlow [.sendWithData, .sendWithoutData] flowId with
    | none => rfl
    | some fl =>
      obtain ⟨⟨q, -, hfl⟩, -⟩ := findQosFlow_some hfind
      exact view_move h.tables hfl

/-- A report does not touch the packets. -/
theorem view_processQosFlowReport (h : s.Inv) {r : FlowReport} {address : Nat} {addresses : List Nat}
    (hr : s.processQosFlowReport r address addresses = some s') : s'.view = s.view := by
  obtain ⟨a, heq, ha, -, -, haddress, hcases⟩ := processQosFlowReport_cases h hr
  have hview : s.view = a.view := by
    rw [heq]
    rfl
  rw [hview]
  rcases hcases with rfl | rfl | rfl | rfl | rfl | rfl
  · exact view_activateFlow haddress
  · exact view_modifyFlow a r.flowId addresses
  · exact view_deleteFlow ha r.flowId
  · exact view_enableFlow ha r.flowId
  · exact view_disableFlow ha r.flowId
  · rfl

/-! ## Steps that move packets -/

theorem moves_enqueue {c : Config} {p : P} {rest : List P} {mem : Nat → UInt8} {size : Nat}
    {allocated : Bool} (h : s.Inv) (hpending : s.txPendingList = p :: rest)
    (he : { s with txPendingList := rest }.enqueue c p mem size allocated = some s') :
    Moves s.view s'.view := by
  have hrest : { s with txPendingList := rest }.Inv := h.congr rfl rfl rfl rfl
  rcases enqueue_cases hrest.tables hrest.filters he with
    ⟨rfl, -⟩ | ⟨q, fl, f, filter, hq, hfl, -, hmatch, -, -, rfl⟩
  · exact moves_insertPacket hpending rfl h.tables.default
  · obtain ⟨infos, rfl⟩ := doesPktMatchThisFilterEx_eq hmatch
    generalize hfilter : ({ (({ s with txPendingList := rest }.filter f).filter) with
      packetInfoList := infos } : QmiFilter) = filter
    have hset : ({ s with txPendingList := rest }.setFilter f filter).Inv :=
      hrest.setFilter f (by rw [← hfilter])
    split_ifs with hwithout
    · have hmem : fl ∈ (({ s with txPendingList := rest }.setFilter f filter).move fl
          .sendWithData).flowDataQueue .sendWithData := by
        rw [mem_move hset.tables.nodup, if_pos rfl]
      exact moves_insertPacket hpending (view_move hset.tables hfl) hmem
    · exact moves_insertPacket hpending rfl hfl

theorem view_dropped (s : State P) (p : P) :
    (s.record (.dropped p)).view = { s.view with done := s.view.done ++ [p] } := by
  rw [view_record]
  refine View.ext rfl rfl (List.append_nil _) rfl ?_ ?_
  · exact funext fun _ => List.append_nil _
  · exact funext fun _ => List.append_nil _

theorem moves_dropped {p : P} {rest : List P} (hpending : s.txPendingList = p :: rest) :
    Moves s.view ({ s with txPendingList := rest }.record (.dropped p)).view := by
  rw [view_dropped]
  exact .drop hpending

theorem moves_categorizePacket {c : Config} {flagged : Bool} {data : Option (Nat → UInt8)} {size : Nat}
    {allocated : Bool} (h : s.Inv) (hc : s.categorizePacket c flagged data size allocated = some s') :
    Moves s.view s'.view := by
  rw [categorizePacket] at hc
  cases hpending : s.txPendingList with
  | nil => simp [hpending] at hc
  | cons p rest =>
    rw [hpending] at hc
    cases flagged with
    | true => exact Option.some.inj hc ▸ moves_dropped hpending
    | false =>
      cases data with
      | none => exact Option.some.inj hc ▸ moves_dropped hpending
      | some mem =>
        obtain ⟨t, ht, rfl⟩ := Option.map_eq_some_iff.mp hc
        have hmoves : Moves s.view t.view := moves_enqueue h hpending ht
        exact hmoves

theorem moves_flowTurn (h : s.Inv) (c : Config) (answers : Answers) :
    Moves s.view (s.flowTurn c answers).view := by
  rw [flowTurn]
  cases hqueue : s.flowDataQueue .sendWithData with
  | nil => exact .keep
  | cons fl rest =>
    have hfl : fl ∈ s.flowDataQueue .sendWithData := hqueue ▸ List.mem_cons_self
    have hsend : Moves s.view
        (((s.removeEntryList fl).insertTailList .sendWithData fl).dequeuePacket fl answers).view := by
      have hview : (s.move fl .sendWithData).view = s.view := view_move h.tables hfl
      rw [rotate_eq_move h.tables hqueue, ← hview]
      exact moves_dequeuePacket ((mem_move h.tables.nodup).mpr (by rw [if_pos rfl])) answers
    dsimp only
    split_ifs
    · rw [view_move h.tables hfl]
      exact .keep
    · cases c.tlp with
      | false => exact hsend
      | true =>
        cases answers.aggregation with
        | more => exact hsend
        | send => exact .keep
        | none => exact .keep

theorem moves_defaultTurn (h : s.Inv) (c : Config) (answers : Answers) :
    Moves s.view (s.defaultTurn c answers).view := by
  rw [defaultTurn]
  cases hqueue : s.flowDataQueue .default with
  | nil => exact .keep
  | cons fl rest =>
    have hfl : fl ∈ s.flowDataQueue .default := hqueue ▸ List.mem_cons_self
    cases s.defaultFlowEnabled with
    | false => exact .keep
    | true =>
      have hcheck : Moves s.view s.checkDefaultQueue.view := by
        rw [view_checkDefaultQueue h]
        exact .keep
      dsimp only
      split_ifs
      · exact hcheck
      · cases c.tlp with
        | false => exact moves_dequeuePacket hfl answers
        | true =>
          cases answers.aggregation with
          | more => exact moves_dequeuePacket hfl answers
          | send => exact .keep
          | none => exact .keep

theorem moves_dispatchTurn (h : s.Inv) {c : Config} {answers : Answers}
    (hd : s.dispatchTurn c answers = some s') : Moves s.view s'.view := by
  rw [dispatchTurn] at hd
  cases hphase : s.phase with
  | wait =>
    simp only [hphase] at hd
    split_ifs at hd
    exact Option.some.inj hd ▸ .keep
  | flows =>
    simp only [hphase] at hd
    exact Option.some.inj hd ▸ moves_flowTurn h c answers
  | default =>
    simp only [hphase] at hd
    exact Option.some.inj hd ▸ moves_defaultTurn h c answers
  | recheck =>
    simp only [hphase] at hd
    obtain rfl := Option.some.inj hd
    refine (congrArg (Moves s.view) ?_).mpr .keep
    exact view_checkDefaultQueue h

/-! ## The end -/

theorem view_record_failed (fl : FlowPtr) (ps : List P) (s : State P) :
    { s with log := s.log ++ ps.map (Event.failed fl) }.view =
      { s.view with
        done := s.view.done ++ ps
        gone := Function.update s.view.gone fl (s.view.gone fl ++ ps) } := by
  induction ps generalizing s with
  | nil =>
    simp only [List.map_nil, List.append_nil, Function.update_eq_self]
  | cons p ps ih =>
    have hstep := ih (s.record (.failed fl p))
    rw [view_record_left s fl p (.inr rfl)] at hstep
    simpa [record] using hstep

/-- The packets of a flow are completed. -/
theorem leads_purgeFlow (h : s.InTables fl) : Leads s.view (s.purgeFlow fl).view := by
  obtain ⟨q, hfl⟩ := inTables_iff.mp h
  have hleave := leads_leave_all (v := s.view) (packetsOf_of_mem hfl)
  have hpurge : (s.purgeFlow fl).view =
      { s.view with
        queue := Function.update s.view.queue fl []
        done := s.view.done ++ (s.flow fl).packets
        gone := Function.update s.view.gone fl (s.view.gone fl ++ (s.flow fl).packets) } := by
    have hset := view_record_failed fl (s.flow fl).packets (s.setFlow fl { s.flow fl with packets := [] })
    rw [view_setPackets hfl] at hset
    rw [← hset]
    refine view_congr rfl rfl fun x => packetsOf_congr Iff.rfl ?_
    rw [purgeFlow_flow]
    change _ = ((s.setFlow fl { s.flow fl with packets := [] }).flow x).packets
    rw [setFlow_flow]
    split_ifs <;> rfl
  exact hpurge ▸ hleave

theorem leads_foldl_purgeFlow (l : List FlowPtr) (h : ∀ fl ∈ l, s.InTables fl) :
    Leads s.view (l.foldl purgeFlow s).view := by
  induction l generalizing s with
  | nil => exact .refl
  | cons fl l ih =>
    obtain ⟨hfl, hl⟩ := List.forall_mem_cons.mp h
    exact (leads_purgeFlow hfl).trans (ih hl)

theorem foldl_purgeFlow_flowDataQueue (s : State P) (l : List FlowPtr) :
    (l.foldl purgeFlow s).flowDataQueue = s.flowDataQueue := by
  induction l generalizing s with
  | nil => rfl
  | cons fl l ih => exact ih (s.purgeFlow fl)

theorem leads_purgeQueues (h : s.Inv) : Leads s.view s.purgeQueues.view := by
  have hpurged := leads_foldl_purgeFlow (s := s) (tables.flatMap s.flowDataQueue) fun _ hfl => hfl
  have hdefault : .defaultQosFlow ∈ tables.flatMap s.flowDataQueue :=
    List.mem_flatMap.mpr ⟨.default, mem_tables _, h.tables.default⟩
  have hempty : ∀ x, ((tables.flatMap s.flowDataQueue).foldl purgeFlow s).packetsOf x = [] := by
    intro x
    have hin : ((tables.flatMap s.flowDataQueue).foldl purgeFlow s).InTables x ↔
        x ∈ tables.flatMap s.flowDataQueue := by
      rw [InTables, foldl_purgeFlow_flowDataQueue]
    by_cases hx : x ∈ tables.flatMap s.flowDataQueue
    · simp [packetsOf, hin, foldl_purgeFlow_flow, hx]
    · exact packetsOf_of_not fun h => hx (hin.mp h)
  have hview : s.purgeQueues.view = ((tables.flatMap s.flowDataQueue).foldl purgeFlow s).view := by
    refine view_congr rfl rfl fun x => ?_
    rw [hempty]
    by_cases hx : x = .defaultQosFlow
    · subst hx
      simp [packetsOf, purgeQueues, setFlowState, setFlow, foldl_purgeFlow_flow, hdefault]
    · refine packetsOf_of_not fun hin => hx ?_
      obtain ⟨q, hq⟩ := inTables_iff.mp hin
      cases q <;> simp_all [purgeQueues]
  exact hview ▸ hpurged

theorem view_pended (s : State P) (p : P) :
    (s.record (.pended p)).view = { s.view with arrived := s.view.arrived ++ [p] } := by
  rw [view_record]
  refine View.ext rfl rfl rfl (List.append_nil _) ?_ ?_
  · exact funext fun _ => List.append_nil _
  · exact funext fun _ => List.append_nil _

/-- What a step does, seen from the packets. -/
theorem leads_step {c : Config} {op : Op P} (h : s.Inv) (hs : s.step c op = some s') :
    Leads s.view s'.view := by
  cases op with
  | pend p =>
    obtain rfl := Option.some.inj hs
    rw [view_pended]
    exact .single (.arrive p)
  | categorizePacket flagged data size allocated => exact .single (moves_categorizePacket h hs)
  | processQosFlowReport r address addresses =>
    rw [view_processQosFlowReport h hs]
  | dispatchTurn answers => exact .single (moves_dispatchTurn h hs)
  | keSetEvent => exact Option.some.inj hs ▸ .refl
  | enableDefaultFlow enable => exact Option.some.inj hs ▸ .refl
  | purgeQueues => exact Option.some.inj hs ▸ leads_purgeQueues h

/-! ## Runs -/

theorem view_initial (flow : FlowPtr → MpqosFlowEntry P) (filter : Nat → FilterEntry) :
    (initial flow filter).view = .empty := by
  refine View.ext rfl (funext fun x => ?_) rfl rfl rfl rfl
  change (initial flow filter).packetsOf x = []
  by_cases hx : x = .defaultQosFlow
  · subst hx
    simp [packetsOf, initial]
  · refine packetsOf_of_not fun hin => hx ?_
    obtain ⟨q, hq⟩ := inTables_iff.mp hin
    cases q <;> simp_all [initial]

end State

theorem visits_conserved {c : Config} (flow : FlowPtr → MpqosFlowEntry P) (filter : Nat → FilterEntry)
    {ops : List (Op P)} {t : State P} (ht : t ∈ (qosMachine c).visits (.initial flow filter) ops) :
    t.view.Conserved := by
  have hstart : (State.initial flow filter).view.Conserved := by
    rw [State.view_initial]
    exact conserved_empty
  exact (Machine.visits_all (P := fun s => s.Inv ∧ s.view.Conserved)
    (fun _ _ _ _ hinv (_ : True) hstep =>
      have hs := qosMachine_some.mp hstep
      ⟨hinv.1.step hs, hinv.2.leads (State.leads_step hinv.1 hs)⟩)
    ⟨State.inv_initial flow filter, hstart⟩ (fun _ _ => trivial) t ht).2

/-- A packet of version 4. -/
def samplePacket : Nat → UInt8 := fun i => if i = 0 then 0x45 else 0

def sampleOps : List (Op Nat) :=
  [.processQosFlowReport sampleReport 0 [0], .pend 7, .categorizePacket false (some samplePacket) 20 true]

/-- The packet is on the flow. -/
def sampleQueued : State Nat :=
  ((sampleFlow.step ⟨false, false⟩ (.pend 7)).bind fun s =>
    s.step ⟨false, false⟩ (.categorizePacket false (some samplePacket) 20 true)).getD sampleFlow

theorem sampleQueued_visited : sampleQueued ∈ (qosMachine ⟨false, false⟩).visits sampleStart sampleOps :=
  List.mem_cons_of_mem _ (List.mem_cons_of_mem _ (List.mem_cons_of_mem _ List.mem_cons_self))

/-- In every state of a run, the packets that were put on a flow are those that have left it, in the
same order, and behind them the packets that are on the flow. -/
theorem visits_fifo {c : Config} {flow : FlowPtr → MpqosFlowEntry P} {filter : Nat → FilterEntry}
    {ops : List (Op P)} {t : State P} (ht : t ∈ (qosMachine c).visits (.initial flow filter) ops)
    (fl : FlowPtr) : t.log.filterMap (Event.putOn fl) =
      t.log.filterMap (Event.leftFrom fl) ++ if t.InTables fl then (t.flow fl).packets else [] :=
  (visits_conserved flow filter ht).fifo fl

theorem visits_fifo_sample : sampleQueued.log.filterMap (Event.putOn (.entry 0)) = [7] ∧
    sampleQueued.log.filterMap (Event.putOn (.entry 0)) =
      sampleQueued.log.filterMap (Event.leftFrom (.entry 0)) ++
        if sampleQueued.InTables (.entry 0) then (sampleQueued.flow (.entry 0)).packets else [] :=
  ⟨by decide, visits_fifo sampleQueued_visited (.entry 0)⟩

theorem State.Tables.nodup_flatMap {t : State P} (h : t.Tables) :
    (State.tables.flatMap t.flowDataQueue).Nodup := by
  refine List.nodup_flatMap.mpr ⟨fun q _ => h.nodup q, ?_⟩
  have hne : State.tables.Pairwise (· ≠ ·) := by decide
  refine hne.imp fun hqq fl hq hq' => hqq (h.unique hq hq')

end Ndis.Qos
