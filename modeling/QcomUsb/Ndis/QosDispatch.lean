-- SUMMARY: The dispatch thread of the QoS flows forgets no packet, empties the flows when it is left alone, and sends in rounds.
import QcomUsb.Library.RoundRobin
import QcomUsb.Ndis.QosPackets

/-!
# The dispatch thread

Whoever gives the dispatch thread work sets its event, and the thread clears the event before it looks
at the flows. So while it waits there is nothing to send, but for what it had no room for.
-/

namespace Ndis.Qos

open Transition

variable {P : Type} {s s' : State P} {fl x : FlowPtr}

namespace State

/-! ## No packet is forgotten -/

/-- If there is something to send, the dispatch thread will look at it, or had no room for it. -/
structure Signalled (s : State P) : Prop where
  flows : ∀ fl ∈ s.flowDataQueue .sendWithData, (s.flow fl).packets ≠ [] →
    s.qosDispThreadTxEvent = true ∨ s.phase = .flows ∨ s.outOfCapacity = true
  default : s.defaultFlowEnabled = true → s.PacketsPresent →
    s.qosDispThreadTxEvent = true ∨ s.phase ≠ .wait ∨ s.outOfCapacity = true

theorem signalled_of_event (h : s.qosDispThreadTxEvent = true) : s.Signalled :=
  ⟨fun _ _ _ => .inl h, fun _ _ => .inl h⟩

/-- Changes that bring nothing new to send. -/
theorem Signalled.mono (h : s.Signalled) (hevent : s'.qosDispThreadTxEvent = s.qosDispThreadTxEvent)
    (hphase : s'.phase = s.phase) (hcapacity : s'.outOfCapacity = s.outOfCapacity)
    (hflows : ∀ fl ∈ s'.flowDataQueue .sendWithData, (s'.flow fl).packets ≠ [] →
      fl ∈ s.flowDataQueue .sendWithData ∧ (s.flow fl).packets ≠ [])
    (hdefault : s'.defaultFlowEnabled = true → s'.PacketsPresent →
      s.defaultFlowEnabled = true ∧ s.PacketsPresent) : s'.Signalled where
  flows fl hfl hpackets := by
    rw [hevent, hphase, hcapacity]
    obtain ⟨hfl, hpackets⟩ := hflows fl hfl hpackets
    exact h.flows fl hfl hpackets
  default henabled hpresent := by
    rw [hevent, hphase, hcapacity]
    obtain ⟨henabled, hpresent⟩ := hdefault henabled hpresent
    exact h.default henabled hpresent

/-- A flow without packets in the table it comes from, or one that is not sent from the table it
goes to. -/
theorem Signalled.move {q q₀ : QosFlowQueueType} (h : s.Signalled) (ht : s.Tables)
    (hfl : fl ∈ s.flowDataQueue q₀)
    (hq : (s.flow fl).packets = [] ∨ q = .queued ∨ q = .sendWithoutData) : (s.move fl q).Signalled := by
  refine h.mono rfl rfl rfl (fun x hx hpackets => ?_) fun henabled hpresent => ⟨henabled, ?_⟩
  · rw [mem_move ht.nodup] at hx
    rw [move_flow] at hpackets
    split_ifs at hx with heq
    · rcases hq with hempty | rfl | rfl
      · exact absurd (heq ▸ hempty) hpackets
      · simp at hx
      · simp at hx
    · exact ⟨hx, hpackets⟩
  · obtain ⟨x, hx, hpackets⟩ := hpresent
    rw [mem_move ht.nodup] at hx
    rw [move_flow] at hpackets
    split_ifs at hx with heq
    · rcases hq with hempty | rfl | rfl
      · exact absurd (heq ▸ hempty) hpackets
      · simp at hx
      · simp at hx
    · exact ⟨x, hx, hpackets⟩

theorem Signalled.addQosFilter (h : s.Signalled) (fl : FlowPtr) (filterList : List Nat) :
    (s.addQosFilter fl filterList).Signalled := by
  have hpackets := addQosFilter_packets s fl filterList
  obtain ⟨l, filter, heq⟩ := addQosFilter_frame s fl filterList
  rw [heq] at hpackets ⊢
  refine h.mono rfl rfl rfl (fun x hx hne => ⟨hx, hpackets x ▸ hne⟩) fun henabled hpresent => ?_
  obtain ⟨x, hx, hne⟩ := hpresent
  exact ⟨henabled, x, hx, hpackets x ▸ hne⟩

theorem Signalled.purgeFilterList (h : s.Signalled) (fl : FlowPtr) :
    (s.purgeFilterList fl).Signalled := by
  have hpackets : ∀ x, ((s.purgeFilterList fl).flow x).packets = (s.flow x).packets :=
    fun x => by rw [purgeFilterList_flow]
  refine h.mono rfl rfl rfl (fun x hx hne => ⟨hx, hpackets x ▸ hne⟩) fun henabled hpresent => ?_
  obtain ⟨x, hx, hne⟩ := hpresent
  exact ⟨henabled, x, hx, hpackets x ▸ hne⟩

theorem Signalled.addFlow (h : s.Signalled) {flowId : UInt32} (hnew : ∀ q, fl ∉ s.flowDataQueue q) :
    (s.addFlow fl flowId).Signalled := by
  have hold : ∀ {q x}, q ≠ .sendWithoutData → x ∈ (s.addFlow fl flowId).flowDataQueue q →
      x ∈ s.flowDataQueue q ∧ (s.addFlow fl flowId).flow x = s.flow x := by
    intro q x hq hx
    have hx' := (mem_addFlow.mp hx).resolve_right fun h => hq h.1
    refine ⟨hx', ?_⟩
    rw [addFlow_flow, if_neg]
    rintro rfl
    exact hnew q hx'
  refine h.mono rfl rfl rfl (fun x hx hne => ?_) fun henabled hpresent => ?_
  · obtain ⟨hx, heq⟩ := hold (by simp) hx
    exact ⟨hx, heq ▸ hne⟩
  · obtain ⟨x, hx, hne⟩ := hpresent
    obtain ⟨hx, heq⟩ := hold (by simp) hx
    exact ⟨henabled, x, hx, heq ▸ hne⟩

theorem Signalled.activateFlow (h : s.Signalled) {flowId : UInt32} {address : Nat}
    {addresses : List Nat} (haddress : ∀ q, .entry address ∉ s.flowDataQueue q) :
    (s.activateFlow flowId address addresses).Signalled := by
  rw [State.activateFlow]
  cases s.findQosFlow [.sendWithData, .sendWithoutData, .queued] flowId with
  | some fl => exact h
  | none => exact (h.addFlow haddress).addQosFilter _ _

theorem Signalled.modifyFlow (h : s.Signalled) (flowId : UInt32) (addresses : List Nat) :
    (s.modifyFlow flowId addresses).Signalled := by
  rw [State.modifyFlow]
  cases s.findQosFlow [.sendWithData, .sendWithoutData, .queued] flowId with
  | none => exact h
  | some fl => exact (h.purgeFilterList fl).addQosFilter _ _

theorem Signalled.deleteFlow (h : s.Signalled) (hi : s.Inv) (flowId : UInt32) :
    (s.deleteFlow flowId).Signalled := by
  rw [State.deleteFlow]
  cases hfind : s.findQosFlow [.sendWithData, .sendWithoutData, .queued] flowId with
  | none => exact h
  | some fl =>
    obtain ⟨⟨q, -, hfl⟩, -⟩ := findQosFlow_some hfind
    dsimp only
    split_ifs with hempty
    · exact (h.purgeFilterList fl).move (hi.tables.purgeFilterList fl) hfl
        (.inl (by rw [purgeFilterList_flow]; exact hempty))
    · exact signalled_of_event rfl

theorem Signalled.enableFlow (h : s.Signalled) (hi : s.Inv) (flowId : UInt32) :
    (s.enableFlow flowId).Signalled := by
  rw [State.enableFlow]
  split_ifs
  · exact signalled_of_event rfl
  · cases hfind : s.findQosFlow [.queued] flowId with
    | none => exact h
    | some fl =>
      obtain ⟨⟨q, -, hfl⟩, -⟩ := findQosFlow_some hfind
      dsimp only
      split_ifs with hempty
      · exact h.move hi.tables hfl (.inl hempty)
      · exact signalled_of_event rfl

theorem Signalled.disableFlow (h : s.Signalled) (hi : s.Inv) (flowId : UInt32) :
    (s.disableFlow flowId).Signalled := by
  rw [State.disableFlow]
  split_ifs
  · exact ⟨h.flows, fun henabled => absurd henabled (by simp)⟩
  · cases hfind : s.findQosFlow [.sendWithData, .sendWithoutData] flowId with
    | none => exact h
    | some fl =>
      obtain ⟨⟨q, -, hfl⟩, -⟩ := findQosFlow_some hfind
      exact h.move hi.tables hfl (.inr (.inl rfl))

theorem Signalled.processQosFlowReport (h : s.Signalled) (hi : s.Inv) {r : FlowReport}
    {address : Nat} {addresses : List Nat}
    (hr : s.processQosFlowReport r address addresses = some s') : s'.Signalled := by
  obtain ⟨a, heq, ha, -, -, haddress, hcases⟩ := processQosFlowReport_cases hi hr
  have hs : a.Signalled := by
    rw [heq]
    exact h.mono rfl rfl rfl (fun _ hx hne => ⟨hx, hne⟩) fun henabled hpresent => ⟨henabled, hpresent⟩
  rcases hcases with rfl | rfl | rfl | rfl | rfl | rfl
  · exact hs.activateFlow haddress
  · exact hs.modifyFlow r.flowId addresses
  · exact hs.deleteFlow ha r.flowId
  · exact hs.enableFlow ha r.flowId
  · exact hs.disableFlow ha r.flowId
  · exact hs

theorem Signalled.categorizePacket (h : s.Signalled) {c : Config} {flagged : Bool}
    {data : Option (Nat → UInt8)} {size : Nat} {allocated : Bool}
    (hc : s.categorizePacket c flagged data size allocated = some s') : s'.Signalled := by
  have hdropped : ∀ (p : P) rest, ({ s with txPendingList := rest }.record (.dropped p)).Signalled :=
    fun _ _ => h.mono rfl rfl rfl (fun _ hx hne => ⟨hx, hne⟩)
      fun henabled hpresent => ⟨henabled, hpresent⟩
  rw [State.categorizePacket] at hc
  cases hpending : s.txPendingList with
  | nil => simp [hpending] at hc
  | cons p rest =>
    rw [hpending] at hc
    cases flagged with
    | true => exact Option.some.inj hc ▸ hdropped p rest
    | false =>
      cases data with
      | none => exact Option.some.inj hc ▸ hdropped p rest
      | some mem =>
        obtain ⟨t, -, rfl⟩ := Option.map_eq_some_iff.mp hc
        exact signalled_of_event rfl

/-! ## The turns of the dispatch thread -/

/-- A flow gives its first packet away. -/
theorem dequeuePacket_frame (s : State P) (fl : FlowPtr) (answers : Answers) :
    ∃ pending log, s.dequeuePacket fl answers = { s with
      txPendingList := pending
      log := log
      flow := Function.update s.flow fl { s.flow fl with packets := (s.flow fl).packets.tail } } := by
  rw [dequeuePacket]
  cases hps : (s.flow fl).packets with
  | nil =>
    refine ⟨s.txPendingList, s.log, ?_⟩
    have hsame : { s.flow fl with packets := [].tail } = s.flow fl := by
      rw [List.tail_nil, ← hps]
    rw [hsame, Function.update_eq_self]
  | cons p rest =>
    dsimp only
    split_ifs
    all_goals exact ⟨_, _, rfl⟩

theorem dequeuePacket_packets (s : State P) (fl : FlowPtr) (answers : Answers) (x : FlowPtr) :
    ((s.dequeuePacket fl answers).flow x).packets =
      if x = fl then (s.flow fl).packets.tail else (s.flow x).packets := by
  obtain ⟨pending, log, heq⟩ := dequeuePacket_frame s fl answers
  rw [heq]
  by_cases hx : x = fl
  · subst hx
    simp
  · simp [hx]

theorem signalled_of_flows (h : s.phase = .flows) : s.Signalled :=
  ⟨fun _ _ _ => .inr (.inl h), fun _ _ => .inr (.inl (by simp [h]))⟩

theorem signalled_of_outOfCapacity (h : s.outOfCapacity = true) : s.Signalled :=
  ⟨fun _ _ _ => .inr (.inr h), fun _ _ => .inr (.inr h)⟩

theorem checkDefaultQueue_of_not (h : s.Filters) (hpresent : ¬ s.PacketsPresent) :
    s.checkDefaultQueue = s.cleanDefaultQueue := by
  rw [checkDefaultQueue_eq h, if_neg hpresent]

theorem checkDefaultQueue_event (h : s.Filters) (hpresent : s.PacketsPresent) :
    s.checkDefaultQueue.qosDispThreadTxEvent = true := by
  rw [checkDefaultQueue_eq h, if_pos hpresent]
  split_ifs <;> rfl

/-- The thread goes to its wait once the default table was looked at. -/
theorem Signalled.checkDefaultQueue (h : s.Signalled) (hf : s.Filters) (hphase : s.phase ≠ .flows) :
    { s.checkDefaultQueue with phase := .wait }.Signalled := by
  by_cases hpresent : s.PacketsPresent
  · exact signalled_of_event (checkDefaultQueue_event hf hpresent)
  · rw [checkDefaultQueue_of_not hf hpresent]
    constructor
    · intro fl hfl hne
      have hfl : fl ∈ s.flowDataQueue .sendWithData := (mem_cleanDefaultQueue.mp hfl).1
      rcases h.flows fl hfl hne with hevent | hflows | hcapacity
      · exact .inl hevent
      · exact absurd hflows hphase
      · exact .inr (.inr hcapacity)
    · rintro - ⟨fl, hfl, hne⟩
      exact absurd ⟨fl, (mem_cleanDefaultQueue.mp hfl).1, hne⟩ hpresent

theorem Signalled.flowTurn (h : s.Signalled) (hphase : s.phase = .flows) (c : Config)
    (answers : Answers) : (s.flowTurn c answers).Signalled := by
  rw [State.flowTurn]
  cases hqueue : s.flowDataQueue .sendWithData with
  | nil => exact ⟨fun fl hfl => by simp [hqueue] at hfl, fun _ _ => .inr (.inl (by simp))⟩
  | cons fl rest =>
    have hsend : (((s.removeEntryList fl).insertTailList .sendWithData fl).dequeuePacket fl
        answers).Signalled := by
      obtain ⟨pending, log, heq⟩ :=
        dequeuePacket_frame ((s.removeEntryList fl).insertTailList .sendWithData fl) fl answers
      rw [heq]
      exact signalled_of_flows hphase
    dsimp only
    split_ifs
    · exact signalled_of_flows hphase
    · cases c.tlp with
      | false => exact hsend
      | true =>
        cases answers.aggregation with
        | more => exact hsend
        | send => exact h
        | none => exact signalled_of_outOfCapacity rfl

theorem defaultTurn_of_disabled (h : s.defaultFlowEnabled = false) (c : Config) (answers : Answers) :
    s.defaultTurn c answers = { s with phase := .wait } := by
  rw [defaultTurn, h]
  cases s.flowDataQueue .default <;> rfl

theorem Signalled.defaultTurn (h : s.Signalled) (hi : s.Inv) (hphase : s.phase = .default) (c : Config)
    (answers : Answers) : (s.defaultTurn c answers).Signalled := by
  have hwaits : (s.defaultFlowEnabled = true → ¬ s.PacketsPresent) →
      { s with phase := .wait }.Signalled := by
    intro hnone
    refine ⟨fun fl hfl hne => ?_, fun henabled hpresent => absurd hpresent (hnone henabled)⟩
    rcases h.flows fl hfl hne with hevent | hflows | hcapacity
    · exact .inl hevent
    · simp [hphase] at hflows
    · exact .inr (.inr hcapacity)
  by_cases hdisabled : s.defaultFlowEnabled = false
  · rw [defaultTurn_of_disabled hdisabled]
    exact hwaits fun htrue => by simp [hdisabled] at htrue
  · rw [State.defaultTurn, Bool.not_eq_false _ |>.mp hdisabled]
    cases hqueue : s.flowDataQueue .default with
    | nil => exact absurd hi.tables.default (by simp [hqueue])
    | cons fl rest =>
      have hfl : fl ∈ s.flowDataQueue .default := hqueue ▸ List.mem_cons_self
      have hsend : { s.dequeuePacket fl answers with phase := .recheck }.Signalled := by
        have hpackets := dequeuePacket_packets s fl answers
        obtain ⟨pending, log, heq⟩ := dequeuePacket_frame s fl answers
        rw [heq] at hpackets ⊢
        refine ⟨fun x hx hne => ?_, fun _ _ => .inr (.inl (by simp))⟩
        have hxfl : x ≠ fl := by
          rintro rfl
          have hq := hi.tables.unique hfl hx
          simp at hq
        rw [hpackets, if_neg hxfl] at hne
        rcases h.flows x hx hne with hevent | hflows | hcapacity
        · exact .inl hevent
        · simp [hphase] at hflows
        · exact .inr (.inr hcapacity)
      dsimp only
      split_ifs
      · exact h.checkDefaultQueue hi.filters (by simp [hphase])
      · cases c.tlp with
        | false => exact hsend
        | true =>
          cases answers.aggregation with
          | more => exact hsend
          | send => exact signalled_of_outOfCapacity rfl
          | none => exact signalled_of_outOfCapacity rfl

theorem Signalled.dispatchTurn (h : s.Signalled) (hi : s.Inv) {c : Config} {answers : Answers}
    (hd : s.dispatchTurn c answers = some s') : s'.Signalled := by
  rw [State.dispatchTurn] at hd
  cases hphase : s.phase with
  | wait =>
    simp only [hphase] at hd
    split_ifs at hd
    exact Option.some.inj hd ▸ signalled_of_flows rfl
  | flows =>
    simp only [hphase] at hd
    exact Option.some.inj hd ▸ h.flowTurn hphase c answers
  | default =>
    simp only [hphase] at hd
    exact Option.some.inj hd ▸ h.defaultTurn hi hphase c answers
  | recheck =>
    simp only [hphase] at hd
    exact Option.some.inj hd ▸ h.checkDefaultQueue hi.filters (by simp [hphase])

theorem signalled_purgeQueues (h : s.Inv) : s.purgeQueues.Signalled := by
  have hempty : ∀ q, ∀ x ∈ s.purgeQueues.flowDataQueue q, (s.purgeQueues.flow x).packets = [] := by
    intro q x hx
    have hdefault : .defaultQosFlow ∈ State.tables.flatMap s.flowDataQueue :=
      List.mem_flatMap.mpr ⟨.default, mem_tables _, h.tables.default⟩
    cases q <;> simp_all [purgeQueues, setFlowState, setFlow, foldl_purgeFlow_flow]
  refine ⟨fun x hx hne => absurd (hempty _ x hx) hne, fun _ hpresent => ?_⟩
  obtain ⟨x, hx, hne⟩ := hpresent
  exact absurd (hempty _ x hx) hne

/-- `MPQOS_EnableDefaultFlow` sets no event. The miniport calls it when the packets were purged. -/
def Quiet (s : State P) (op : Op P) : Prop :=
  match op with
  | .enableDefaultFlow true => s.defaultFlowEnabled = true ∨ ¬ s.PacketsPresent
  | _ => True

theorem Signalled.step (h : s.Signalled) (hi : s.Inv) {c : Config} {op : Op P} (hquiet : s.Quiet op)
    (hs : s.step c op = some s') : s'.Signalled := by
  cases op with
  | pend p =>
    exact Option.some.inj hs ▸ h.mono rfl rfl rfl (fun _ hx hne => ⟨hx, hne⟩)
      fun henabled hpresent => ⟨henabled, hpresent⟩
  | categorizePacket flagged data size allocated => exact h.categorizePacket hs
  | processQosFlowReport r address addresses => exact h.processQosFlowReport hi hs
  | dispatchTurn answers => exact h.dispatchTurn hi hs
  | keSetEvent => exact Option.some.inj hs ▸ signalled_of_event rfl
  | enableDefaultFlow enable =>
    refine Option.some.inj hs ▸ h.mono rfl rfl rfl (fun _ hx hne => ⟨hx, hne⟩) ?_
    intro henabled hpresent
    obtain rfl : enable = true := henabled
    exact ⟨hquiet.resolve_right fun hnot => hnot hpresent, hpresent⟩
  | purgeQueues => exact Option.some.inj hs ▸ signalled_purgeQueues hi

end State

/-- The adapter is not flagged, and there is room. -/
def Config.Free (c : Config) (answers : Answers) : Prop :=
  answers.flagged = false ∧ (c.tlp = false ∨ answers.aggregation = .more)

namespace State

/-- The first packet of a flow is given to USB. -/
def sendPacket (s : State P) (fl : FlowPtr) (p : P) : State P :=
  (s.setFlow fl { s.flow fl with packets := (s.flow fl).packets.tail }).record (.sent fl p)

theorem dequeuePacket_eq {answers : Answers} {p : P} {ps : List P} (hflagged : answers.flagged = false)
    (hps : (s.flow fl).packets = p :: ps) : s.dequeuePacket fl answers = s.sendPacket fl p := by
  rw [dequeuePacket, hps]
  dsimp only
  rw [if_pos hflagged, sendPacket, hps]
  rfl

/-- What a turn does. -/
theorem dispatchTurn_cases {c : Config} {answers : Answers} (h : s.Tables) (hfree : c.Free answers)
    (hd : s.dispatchTurn c answers = some s') :
    (s.phase = .wait ∧ s.qosDispThreadTxEvent = true ∧
      s' = { s with qosDispThreadTxEvent := false, phase := .flows, outOfCapacity := false }) ∨
    (s.phase = .flows ∧ s.flowDataQueue .sendWithData = [] ∧ s' = { s with phase := .default }) ∨
    (∃ fl rest, s.phase = .flows ∧ s.flowDataQueue .sendWithData = fl :: rest ∧
      (s.flow fl).packets = [] ∧ s' = s.move fl .sendWithoutData) ∨
    (∃ fl rest p ps, s.phase = .flows ∧ s.flowDataQueue .sendWithData = fl :: rest ∧
      (s.flow fl).packets = p :: ps ∧ s' = (s.move fl .sendWithData).sendPacket fl p) ∨
    (s.phase = .default ∧ s.defaultFlowEnabled = false ∧ s' = { s with phase := .wait }) ∨
    (∃ fl rest p ps, s.phase = .default ∧ s.flowDataQueue .default = fl :: rest ∧
      (s.flow fl).packets = p :: ps ∧ s' = { s.sendPacket fl p with phase := .recheck }) ∨
    ((s.phase = .recheck ∨ s.phase = .default ∧
        ((s.flowDataQueue .default).head?.any fun fl => (s.flow fl).packets.isEmpty) = true) ∧
      s' = { s.checkDefaultQueue with phase := .wait }) := by
  obtain ⟨hflagged, hroom⟩ := hfree
  rw [dispatchTurn] at hd
  cases hphase : s.phase with
  | wait =>
    simp only [hphase] at hd
    split_ifs at hd with hevent
    exact .inl ⟨rfl, hevent, (Option.some.inj hd).symm⟩
  | flows =>
    simp only [hphase] at hd
    obtain rfl := Option.some.inj hd
    rw [flowTurn]
    cases hqueue : s.flowDataQueue .sendWithData with
    | nil => exact .inr (.inl ⟨rfl, rfl, rfl⟩)
    | cons fl rest =>
      cases hps : (s.flow fl).packets with
      | nil => exact .inr (.inr (.inl ⟨fl, rest, rfl, rfl, hps, by simp [hps]⟩))
      | cons p ps =>
        refine .inr (.inr (.inr (.inl ⟨fl, rest, p, ps, rfl, rfl, hps, ?_⟩)))
        have hps' : ((s.move fl .sendWithData).flow fl).packets = p :: ps := by rw [move_flow, hps]
        have hsend := dequeuePacket_eq hflagged hps'
        rw [← rotate_eq_move h hqueue] at hsend ⊢
        rw [← hsend]
        rcases hroom with htlp | hmore
        · simp [hps, htlp]
        · simp [hps, hmore]
  | default =>
    simp only [hphase] at hd
    obtain rfl := Option.some.inj hd
    by_cases hdisabled : s.defaultFlowEnabled = false
    · exact .inr (.inr (.inr (.inr (.inl ⟨rfl, hdisabled, defaultTurn_of_disabled hdisabled c answers⟩))))
    · have henabled : s.defaultFlowEnabled = true := Bool.not_eq_false _ |>.mp hdisabled
      cases hqueue : s.flowDataQueue .default with
      | nil => exact absurd h.default (by simp [hqueue])
      | cons fl rest =>
        cases hps : (s.flow fl).packets with
        | nil =>
          refine .inr (.inr (.inr (.inr (.inr (.inr ⟨.inr ⟨rfl, by simp [hps]⟩, ?_⟩)))))
          simp [defaultTurn, hqueue, henabled, hps]
        | cons p ps =>
          refine .inr (.inr (.inr (.inr (.inr (.inl ⟨fl, rest, p, ps, rfl, rfl, hps, ?_⟩)))))
          rw [← dequeuePacket_eq hflagged hps]
          rcases hroom with htlp | hmore
          · simp [defaultTurn, hqueue, henabled, hps, htlp]
          · simp [defaultTurn, hqueue, henabled, hps, hmore]
  | recheck =>
    simp only [hphase] at hd
    exact .inr (.inr (.inr (.inr (.inr (.inr ⟨.inl rfl, (Option.some.inj hd).symm⟩)))))

/-! ## What is left to do -/

/-- The number of packets on the flows of a table. -/
def queued (s : State P) (q : QosFlowQueueType) : Nat :=
  ((s.flowDataQueue q).map fun fl => (s.flow fl).packets.length).sum

/-- There are packets behind an empty flow at the head of the default table. -/
def Blocked (s : State P) : Prop :=
  s.PacketsPresent ∧ ((s.flowDataQueue .default).head?.any fun fl => (s.flow fl).packets.isEmpty) = true

instance (s : State P) : Decidable s.Blocked :=
  inferInstanceAs (Decidable (s.PacketsPresent ∧
    ((s.flowDataQueue .default).head?.any fun fl => (s.flow fl).packets.isEmpty) = true))

def phaseTurns : Phase → Nat
  | .wait => 0
  | .default => 2
  | .flows => 3
  | .recheck => 5

/-- Each turn decreases it. -/
def remaining (s : State P) : Nat :=
  7 * (s.queued .sendWithData + s.queued .default) + (if s.Blocked then 3 else 0) +
    (s.flowDataQueue .sendWithData).length + phaseTurns s.phase +
    if s.qosDispThreadTxEvent then 4 else 0

theorem move_flowDataQueue (s : State P) (fl : FlowPtr) (q q' : QosFlowQueueType) :
    (s.move fl q).flowDataQueue q' =
      (s.flowDataQueue q').erase fl ++ if q' = q then [fl] else [] := by
  by_cases hq : q' = q
  · subst hq
    simp [move, insertTailList, removeEntryList, setFlowState, setFlow]
  · simp [move, insertTailList, removeEntryList, setFlowState, setFlow, hq]

theorem checkDefaultQueue_flow (h : s.Filters) (x : FlowPtr) :
    (s.checkDefaultQueue.flow x).packets = (s.flow x).packets ∧
      (s.checkDefaultQueue.flow x).flowId = (s.flow x).flowId := by
  rw [checkDefaultQueue_eq h]
  split_ifs
  · rw [move_flow]
    exact ⟨rfl, rfl⟩
  · exact ⟨rfl, rfl⟩
  · exact ⟨rfl, rfl⟩

theorem checkDefaultQueue_flowDataQueue (h : s.Inv) {q : QosFlowQueueType} (hq : q ≠ .default) :
    s.checkDefaultQueue.flowDataQueue q = s.flowDataQueue q := by
  have hclean : s.cleanDefaultQueue.flowDataQueue q = s.flowDataQueue q := Function.update_of_ne hq _ _
  rw [checkDefaultQueue_eq h.filters]
  split_ifs
  · rw [move_flowDataQueue, if_neg hq, List.append_nil]
    exact (List.erase_of_not_mem fun hmem => hq (h.tables.unique (hclean ▸ hmem) h.tables.default)).trans
      hclean
  · exact hclean
  · exact hclean

theorem checkDefaultQueue_frame (h : s.Filters) :
    s.checkDefaultQueue.defaultFlowEnabled = s.defaultFlowEnabled ∧
      s.checkDefaultQueue.outOfCapacity = s.outOfCapacity ∧ s.checkDefaultQueue.log = s.log := by
  rw [checkDefaultQueue_eq h]
  split_ifs
  all_goals exact ⟨rfl, rfl, rfl⟩

theorem cleanDefaultQueue_default (s : State P) :
    s.cleanDefaultQueue.flowDataQueue .default = (s.flowDataQueue .default).filter s.stays := by
  simp [cleanDefaultQueue]

theorem checkDefaultQueue_perm (h : s.Inv) : (s.checkDefaultQueue.flowDataQueue .default).Perm
    ((s.flowDataQueue .default).filter s.stays) := by
  have hmem : .defaultQosFlow ∈ (s.flowDataQueue .default).filter s.stays :=
    List.mem_filter.mpr ⟨h.tables.default, stays_defaultQosFlow s⟩
  rw [checkDefaultQueue_eq h.filters]
  split_ifs
  · rw [move_flowDataQueue, if_pos rfl]
    change ((s.cleanDefaultQueue.flowDataQueue .default).erase _ ++ [_]).Perm _
    rw [cleanDefaultQueue_default]
    exact (List.perm_append_singleton _ _).trans (List.perm_cons_erase hmem).symm
  · exact .of_eq (cleanDefaultQueue_default s)
  · exact .of_eq (cleanDefaultQueue_default s)

/-- No deleted flow has the id of the default flow. -/
def IdsNonzero (s : State P) : Prop :=
  ∀ fl ∈ s.flowDataQueue .default, (s.flow fl).flowId = 0 → fl = .defaultQosFlow

/-- A flow that moves leaves the tables alone that it is not in. -/
theorem move_queue_of_ne {q₀ q' : QosFlowQueueType} (h : s.Tables) (hfl : fl ∈ s.flowDataQueue q₀)
    (q : QosFlowQueueType) (hq₀ : q₀ ≠ q') (hq : q' ≠ q) :
    (s.move fl q).flowDataQueue q' = s.flowDataQueue q' := by
  rw [move_flowDataQueue, if_neg hq, List.append_nil,
    List.erase_of_not_mem fun hmem => hq₀ (h.unique hfl hmem)]

/-- What holds while the thread empties the flows of a state: only packets are sent. -/
structure Draining (s t : State P) : Prop where
  inv : t.Inv
  signalled : t.Signalled
  ids : t.IdsNonzero
  capacity : t.outOfCapacity = true → t.phase = .wait ∧ t.qosDispThreadTxEvent = true
  enabled : t.defaultFlowEnabled = s.defaultFlowEnabled
  queued : t.flowDataQueue .queued = s.flowDataQueue .queued
  default : ∀ fl ∈ t.flowDataQueue .default, fl ∈ s.flowDataQueue .default
  sent : ∃ l : List (FlowPtr × P), t.log = s.log ++ l.map fun x => .sent x.1 x.2

theorem Draining.sendPacket_log {t : State P} (h : s.Draining t) (fl : FlowPtr) (p : P) :
    ∃ l : List (FlowPtr × P), t.log ++ [.sent fl p] = s.log ++ l.map fun x => .sent x.1 x.2 := by
  obtain ⟨l, hl⟩ := h.sent
  exact ⟨l ++ [(fl, p)], by simp [hl]⟩

theorem Draining.step {t t' : State P} {c : Config} {answers : Answers} (h : s.Draining t)
    (hfree : c.Free answers) (hd : t.dispatchTurn c answers = some t') : s.Draining t' := by
  have hinv : t'.Inv := h.inv.dispatchTurn hd
  have hsignalled : t'.Signalled := h.signalled.dispatchTurn h.inv hd
  have hcapacity : t.phase ≠ .wait → ¬ t.outOfCapacity = true :=
    fun hphase hout => hphase (h.capacity hout).1
  rcases dispatchTurn_cases h.inv.tables hfree hd with ⟨-, -, rfl⟩ | ⟨hphase, -, rfl⟩ |
    ⟨fl, rest, hphase, hqueue, hps, rfl⟩ | ⟨fl, rest, p, ps, hphase, hqueue, hps, rfl⟩ |
    ⟨hphase, -, rfl⟩ | ⟨fl, rest, p, ps, hphase, hqueue, hps, rfl⟩ | ⟨hphase, rfl⟩
  · exact ⟨hinv, hsignalled, h.ids, fun hout => by simp at hout, h.enabled, h.queued, h.default, h.sent⟩
  · exact ⟨hinv, hsignalled, h.ids,
      fun hout => absurd hout (hcapacity (by simp [hphase])), h.enabled, h.queued,
      h.default, h.sent⟩
  · have hfl : fl ∈ t.flowDataQueue .sendWithData := hqueue ▸ List.mem_cons_self
    have hdefault : (t.move fl .sendWithoutData).flowDataQueue .default = t.flowDataQueue .default :=
      move_queue_of_ne h.inv.tables hfl .sendWithoutData (by simp) (by simp)
    have hqueued : (t.move fl .sendWithoutData).flowDataQueue .queued = t.flowDataQueue .queued :=
      move_queue_of_ne h.inv.tables hfl .sendWithoutData (by simp) (by simp)
    refine ⟨hinv, hsignalled, fun x hx hid => h.ids x (hdefault ▸ hx) ?_,
      fun hout => absurd hout (hcapacity (by simp [hphase])), h.enabled,
      hqueued.trans h.queued, fun x hx => h.default x (hdefault ▸ hx), h.sent⟩
    rwa [move_flow] at hid
  · have hfl : fl ∈ t.flowDataQueue .sendWithData := hqueue ▸ List.mem_cons_self
    have hdefault : (t.move fl .sendWithData).flowDataQueue .default = t.flowDataQueue .default :=
      move_queue_of_ne h.inv.tables hfl .sendWithData (by simp) (by simp)
    have hqueued : (t.move fl .sendWithData).flowDataQueue .queued = t.flowDataQueue .queued :=
      move_queue_of_ne h.inv.tables hfl .sendWithData (by simp) (by simp)
    refine ⟨hinv, hsignalled, fun x hx hid => h.ids x (hdefault ▸ hx) ?_,
      fun hout => absurd hout (hcapacity (by simp [hphase])), h.enabled,
      hqueued.trans h.queued, fun x hx => h.default x (hdefault ▸ hx), h.sendPacket_log fl p⟩
    have hxfl : x ≠ fl := by
      rintro rfl
      have hq := h.inv.tables.unique hfl (hdefault ▸ hx)
      simp at hq
    rw [State.sendPacket, record, setFlow_flow, if_neg hxfl, move_flow] at hid
    exact hid
  · exact ⟨hinv, hsignalled, h.ids,
      fun hout => absurd hout (hcapacity (by simp [hphase])), h.enabled, h.queued,
      h.default, h.sent⟩
  · refine ⟨hinv, hsignalled, fun x hx hid => h.ids x hx ?_,
      fun hout => absurd hout (hcapacity (by simp [hphase])), h.enabled, h.queued,
      h.default, h.sendPacket_log fl p⟩
    have hflow : ((t.sendPacket fl p).flow x).flowId = (t.flow x).flowId := by
      rw [State.sendPacket, record, setFlow_flow]
      split_ifs with hx
      · rw [hx]
      · rfl
    exact hflow.symm.trans hid
  · have hframe := checkDefaultQueue_frame h.inv.filters
    have hmem : ∀ x ∈ t.checkDefaultQueue.flowDataQueue .default, x ∈ t.flowDataQueue .default :=
      fun x hx => (List.mem_filter.mp ((checkDefaultQueue_perm h.inv).mem_iff.mp hx)).1
    have hnotWait : t.phase ≠ .wait := by
      rcases hphase with hphase | ⟨hphase, -⟩
      · simp [hphase]
      · simp [hphase]
    refine ⟨hinv, hsignalled, fun x hx hid => h.ids x (hmem x hx) ?_, fun hout => ?_,
      hframe.1.trans h.enabled,
      (checkDefaultQueue_flowDataQueue h.inv (by simp)).trans h.queued, fun x hx => h.default x (hmem x hx), ?_⟩
    · exact ((checkDefaultQueue_flow h.inv.filters x).2).symm.trans hid
    · exact absurd (hframe.2.1.symm.trans hout) (hcapacity hnotWait)
    · obtain ⟨l, hl⟩ := h.sent
      exact ⟨l, hframe.2.2.trans hl⟩

end State

namespace State

/-- The flows with data as queues that take turns. -/
def ring (s : State P) : List (List (Event P)) :=
  (s.flowDataQueue .sendWithData).map fun fl => (s.flow fl).packets.map (.sent fl)

end State

end Ndis.Qos
