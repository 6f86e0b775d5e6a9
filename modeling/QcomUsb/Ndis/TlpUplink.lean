-- SUMMARY: In every run a receiver finds the accepted packets in what is handed to USB, and the cursors of each item agree.
import QcomUsb.Ndis.TlpFraming
import QcomUsb.Ndis.TlpQueue

/-!
# The uplink in a run

Wherever an item is, it is what putting packets into it has made of it: it waits in the queue or
with a thread, or it was sealed and is in USB.
-/

namespace Ndis.Tlp

open Transition

variable {a : Adapter} {s s' : State}

/-! ## The invariant -/

/-- The item a thread has. -/
def Phase.item : Phase → Option Item
  | .took item _ | .sending item | .restoring item => item
  | .staying item | .full item => some item
  | .entered _ | .stayed => none

/-- The packet a thread has yet to put into an item. -/
def Phase.packet : Phase → Option Packet
  | .entered packet | .took _ packet => packet
  | _ => none

/-- The packet is refused, or its lengths fit. -/
def Packet.Framable (a : Adapter) (packet : Packet) : Prop :=
  packet.refused = false → packet.data ≠ [] → FieldsFit a packet.data

instance (a : Adapter) (packet : Packet) : Decidable (packet.Framable a) := by
  unfold Packet.Framable
  infer_instance

/-- An item that is to take packets. Without a mode it is sent with its first. -/
structure Item.Waits (a : Adapter) (item : Item) : Prop where
  good : item.Good a
  empty : a.mode = .plain → item.dataLength = 0

/-- What a thread has. -/
structure Phase.Carries (a : Adapter) (phase : Phase) : Prop where
  good : ∀ item ∈ phase.item, item.Good a
  empty : (∀ item, phase ≠ .sending item) → a.mode = .plain →
    ∀ item ∈ phase.item, item.dataLength = 0
  packet : ∀ packet ∈ phase.packet, packet.Framable a

structure State.FramingInv (a : Adapter) (s : State) : Prop where
  queue : ∀ item ∈ s.uplinkFreeBufferQueue, item.Waits a
  inside : ∀ phase ∈ s.inside, phase.Carries a
  inUsb : ∀ item ∈ s.inUsb, item.Sealed a
  sent : ∀ sent ∈ s.sent, Received a.mode sent.bytes sent.accepted

/-- The packets of the run can be framed. A MBIM block is short enough for its header, and has as
many datagrams as a purge threw out of its item. -/
def Fitting (a : Adapter) (s : State) : Op → Prop
  | .send packet => packet.Framable a
  | .advance j =>
    match s.inside[j]? with
    | some (.sending (some item)) => a.mode = .mbim → item.thrownOut ≤ item.aggregationCount ∧
      item.dataLength + item.ndpLength < 65536
    | _ => True
  | _ => True

instance (a : Adapter) (s : State) (op : Op) : Decidable (Fitting a s op) := by
  unfold Fitting
  repeat' split
  all_goals infer_instance

theorem State.initial_framingInv (a : Adapter) (numItems : Nat) :
    (State.initial a numItems).FramingInv a := by
  refine ⟨fun item hitem => ?_, fun _ hphase => absurd hphase List.not_mem_nil,
    fun _ hitem => absurd hitem List.not_mem_nil, fun _ hsent => absurd hsent List.not_mem_nil⟩
  rw [(List.mem_replicate.mp hitem).2]
  exact ⟨Item.initial_good a, fun _ => rfl⟩

/-! ## Steps of a thread -/

theorem Phase.carries_none {phase : Phase} (hitem : phase.item = none)
    (hpacket : ∀ packet ∈ phase.packet, packet.Framable a) : phase.Carries a :=
  ⟨fun item h => by simp [hitem] at h, fun _ _ item h => by simp [hitem] at h, hpacket⟩

theorem Phase.Carries.waits {phase : Phase} (h : phase.Carries a)
    (hnot : ∀ item, phase ≠ .sending item) {item : Item} (hitem : phase.item = some item) :
    item.Waits a :=
  ⟨h.good item hitem, fun hmode => h.empty hnot hmode item hitem⟩

theorem Item.Waits.carries {item : Item} (h : item.Waits a) {phase : Phase}
    (hitem : phase.item = some item) (hpacket : phase.packet = none) : phase.Carries a := by
  refine ⟨fun i hi => ?_, fun _ hmode i hi => ?_, fun p hp => by simp [hpacket] at hp⟩
  · obtain rfl := Option.some.inj (hitem.symm.trans hi)
    exact h.good
  · obtain rfl := Option.some.inj (hitem.symm.trans hi)
    exact h.empty hmode

/-- A thread comes to a phase, or leaves. -/
theorem State.FramingInv.goTo (h : s.FramingInv a) (j : Nat) {phase : Option Phase}
    (hphase : ∀ q ∈ phase, q.Carries a) : (s.goTo j phase).FramingInv a := by
  cases phase with
  | none => exact ⟨h.queue, fun q hq => h.inside q (List.mem_of_mem_eraseIdx hq), h.inUsb, h.sent⟩
  | some phase =>
    refine ⟨h.queue, fun q hq => ?_, h.inUsb, h.sent⟩
    rcases List.mem_or_eq_of_mem_set hq with hq | rfl
    · exact h.inside q hq
    · exact hphase q rfl

theorem State.FramingInv.insertHead (h : s.FramingInv a) {item : Item} (hitem : item.Waits a) :
    (s.insertHead item).FramingInv a :=
  ⟨List.forall_mem_cons.mpr ⟨hitem, h.queue⟩, h.inside, h.inUsb, h.sent⟩

theorem State.FramingInv.withTimer (h : s.FramingInv a) (t : Timer) :
    ({ s with timer := t } : State).FramingInv a := ⟨h.queue, h.inside, h.inUsb, h.sent⟩

theorem State.FramingInv.take (h : s.FramingInv a) (j : Nat) {packet : Option Packet}
    (hpacket : ∀ p ∈ packet, p.Framable a) : (s.take j packet).FramingInv a := by
  have htail : ({ s with uplinkFreeBufferQueue := s.uplinkFreeBufferQueue.tail } : State).FramingInv
      a := ⟨fun item hitem => h.queue item (List.mem_of_mem_tail hitem), h.inside, h.inUsb, h.sent⟩
  refine htail.goTo j fun q hq => ?_
  obtain rfl := Option.some.inj hq
  refine ⟨fun item hitem => ?_, fun _ hmode item hitem => ?_, hpacket⟩
  · exact (h.queue item (List.mem_of_mem_head? hitem)).good
  · exact (h.queue item (List.mem_of_mem_head? hitem)).empty hmode

/-- The thread that put its packet into the item keeps it for more packets or sends it. -/
theorem State.FramingInv.filled (h : s.FramingInv a) (j : Nat) {filled : Item}
    (hgood : filled.Good a) :
    (if Item.Stays a filled then s.goTo j (some (.staying filled))
      else if a.mode = .plain then s.goTo j (some (.sending (some filled)))
      else s.goTo j (some (.full filled))).FramingInv a := by
  split
  next hstays =>
    have hplain : a.mode ≠ .plain := fun hmode => by simp [Item.Stays, hmode] at hstays
    refine h.goTo j fun q hq => ?_
    obtain rfl := Option.some.inj hq
    exact Item.Waits.carries ⟨hgood, fun hmode => absurd hmode hplain⟩ rfl rfl
  next =>
    split
    next =>
      refine h.goTo j fun q hq => ?_
      obtain rfl := Option.some.inj hq
      exact ⟨fun item hitem => Option.some.inj hitem ▸ hgood, fun hnot => absurd rfl (hnot _),
        fun _ hp => absurd hp (Option.not_mem_none _)⟩
    next hplain =>
      refine h.goTo j fun q hq => ?_
      obtain rfl := Option.some.inj hq
      exact Item.Waits.carries ⟨hgood, fun hmode => absurd hmode hplain⟩ rfl rfl

theorem State.FramingInv.restore (h : s.FramingInv a) (j : Nat) {item : Option Item}
    (hitem : ∀ i ∈ item, i.Waits a) : (s.goTo j (some (.restoring item))).FramingInv a := by
  refine h.goTo j fun q hq => ?_
  obtain rfl := Option.some.inj hq
  exact ⟨fun i hi => (hitem i hi).good, fun _ hmode i hi => (hitem i hi).empty hmode,
    fun _ hp => absurd hp (Option.not_mem_none _)⟩

theorem State.FramingInv.process (hqos : a.qosEnabled = false) (h : s.FramingInv a) (j : Nat)
    {item : Option Item} {packet : Packet} (hphase : (Phase.took item (some packet)).Carries a) :
    (s.process a j item packet).FramingInv a := by
  have hwaits : ∀ i ∈ item, i.Waits a := fun i hi => hphase.waits (fun _ => Phase.noConfusion) hi
  unfold State.process
  split
  next => exact h.restore j fun i hi => absurd hi (Option.not_mem_none i)
  next item =>
    have hitem := hwaits item rfl
    split
    next => exact h.restore j hwaits
    next haccepted =>
      obtain ⟨hnot, hdata⟩ := not_or.mp haccepted
      have hfields := hphase.packet packet rfl (Bool.not_eq_true _ ▸ hnot) hdata
      split
      next => exact h.restore j hwaits
      next filled hfill =>
        have hgood := hitem.good.fill hqos hitem.empty hdata hfields hfill
        have hsequence : ∀ n, ({ s with ntbSequence := n } : State).FramingInv a := fun n =>
          ⟨h.queue, h.inside, h.inUsb, h.sent⟩
        by_cases hfirst : a.mode = .mbim ∧ item.currentPtr = 0
        · simp only [if_pos hfirst]
          exact (hsequence _).filled j hgood
        · simp only [if_neg hfirst]
          exact h.filled j hgood

/-- The item is sealed and handed to USB. -/
theorem State.FramingInv.prepareIrp (h : s.FramingInv a) (j : Nat) {item : Item}
    (hgood : item.Good a) (hmbim : a.mode = .mbim → item.thrownOut ≤ item.aggregationCount ∧
      item.dataLength + item.ndpLength < 65536) : (s.prepareIrp a j item).FramingInv a := by
  unfold State.prepareIrp
  split
  next hempty =>
    refine h.restore j fun i hi => ?_
    obtain rfl := Option.some.inj hi
    exact ⟨hgood, fun _ => hempty⟩
  next hdata =>
    obtain ⟨hsealed, hreceived⟩ := hgood.seal hdata hmbim
    have haccepted : (item.seal a).accepted = item.accepted := by
      unfold Item.seal
      split <;> rfl
    let s' : State := { s with
      inUsb := s.inUsb ++ [item.seal a]
      sent := s.sent ++ [⟨(item.seal a).sendBuffer, (item.seal a).accepted⟩] }
    have hsent : s'.FramingInv a := by
      refine ⟨h.queue, h.inside, fun i hi => ?_, fun t ht => ?_⟩
      · rcases List.mem_append.mp hi with hi | hi
        · exact h.inUsb i hi
        · rw [List.mem_singleton.mp hi]
          exact hsealed
      · rcases List.mem_append.mp ht with ht | ht
        · exact h.sent t ht
        · rw [List.mem_singleton.mp ht]
          exact hreceived
    exact hsent.goTo j fun _ hq => absurd hq (Option.not_mem_none _)

theorem State.FramingInv.advance (hqos : a.qosEnabled = false) (h : s.FramingInv a) {j : Nat}
    (hop : Fitting a s (.advance j)) (hstep : s.advance a j = some s') : s'.FramingInv a := by
  have hleave : ∀ t : State, t.FramingInv a → (t.goTo j none).FramingInv a := fun t ht =>
    ht.goTo j fun _ hq => absurd hq (Option.not_mem_none _)
  unfold State.advance at hstep
  simp only [Fitting] at hop
  cases hat : s.inside[j]? with
  | none =>
    rw [hat] at hstep
    cases hstep
  | some phase =>
    have hphase := h.inside phase (List.mem_of_getElem? hat)
    rw [hat] at hstep hop
    cases phase with
    | entered packet =>
      obtain rfl := Option.some.inj hstep
      exact h.take j hphase.packet
    | took item packet =>
      cases packet with
      | some packet =>
        obtain rfl := Option.some.inj hstep
        exact h.process hqos j hphase
      | none =>
        obtain rfl := Option.some.inj hstep
        refine h.goTo j fun q hq => ?_
        obtain rfl := Option.some.inj hq
        exact ⟨hphase.good, fun hnot => absurd rfl (hnot _),
          fun _ hp => absurd hp (Option.not_mem_none _)⟩
    | staying item =>
      obtain rfl := Option.some.inj hstep
      have hwaits := hphase.waits (fun _ => Phase.noConfusion) rfl
      refine (h.insertHead hwaits).goTo j fun q hq => ?_
      obtain rfl := Option.some.inj hq
      exact Phase.carries_none rfl fun _ hp => absurd hp (Option.not_mem_none _)
    | stayed =>
      obtain rfl := Option.some.inj hstep
      exact hleave _ (h.withTimer _)
    | full item =>
      obtain rfl := Option.some.inj hstep
      refine (h.withTimer _).goTo j fun q hq => ?_
      obtain rfl := Option.some.inj hq
      exact ⟨hphase.good, fun hnot => absurd rfl (hnot _),
        fun _ hp => absurd hp (Option.not_mem_none _)⟩
    | sending item =>
      cases item with
      | some item =>
        obtain rfl := Option.some.inj hstep
        exact h.prepareIrp j (hphase.good item rfl) hop
      | none =>
        obtain rfl := Option.some.inj hstep
        exact h.restore j fun i hi => absurd hi (Option.not_mem_none i)
    | restoring item =>
      cases item with
      | some item =>
        obtain rfl := Option.some.inj hstep
        exact hleave _ (h.insertHead (hphase.waits (fun _ => Phase.noConfusion) rfl))
      | none =>
        obtain rfl := Option.some.inj hstep
        exact hleave _ h

/-! ## Runs -/

theorem State.FramingInv.enter (h : s.FramingInv a) {packet : Option Packet}
    (hpacket : ∀ p ∈ packet, p.Framable a) (hstep : s.enter a packet = some s') :
    s'.FramingInv a := by
  obtain ⟨-, hstep⟩ := Option.ite_none_right_eq_some.mp hstep
  obtain rfl := Option.some.inj hstep
  refine ⟨h.queue, fun q hq => ?_, h.inUsb, h.sent⟩
  rcases List.mem_append.mp hq with hq | hq
  · exact h.inside q hq
  · rw [List.mem_singleton.mp hq]
    exact Phase.carries_none rfl hpacket

theorem State.FramingInv.complete (h : s.FramingInv a) {k : Nat}
    (hstep : s.complete a k = some s') : s'.FramingInv a := by
  unfold State.complete at hstep
  split at hstep
  · cases hstep
  next item _ =>
    obtain rfl := Option.some.inj hstep
    refine ⟨fun i hi => ?_, h.inside, fun i hi => h.inUsb i (List.mem_of_mem_eraseIdx hi), h.sent⟩
    rcases List.mem_append.mp hi with hi | hi
    · exact h.queue i hi
    · rw [List.mem_singleton.mp hi]
      exact ⟨item.recycle_good a, fun _ => rfl⟩

theorem State.FramingInv.purge (h : s.FramingInv a) (hstep : s.purge a = some s') :
    s'.FramingInv a := by
  obtain ⟨-, hstep⟩ := Option.ite_none_right_eq_some.mp hstep
  obtain rfl := Option.some.inj hstep
  refine ⟨fun i hi => ?_, h.inside, h.inUsb, h.sent⟩
  obtain ⟨item, hitem, rfl⟩ := List.mem_map.mp hi
  exact ⟨(h.queue item hitem).good.purge, fun _ => rfl⟩

theorem step_framingInv (hqos : a.qosEnabled = false) (h : s.FramingInv a) {op : Op}
    (hop : Fitting a s op) (hstep : step a s op = some s') : s'.FramingInv a := by
  have htimer : ∀ t : Option Timer, s.withTimer t = some s' → s'.FramingInv a := fun t ht => by
    obtain ⟨t', -, rfl⟩ := Option.map_eq_some_iff.mp ht
    exact h.withTimer t'
  cases op with
  | send packet =>
    exact h.enter (fun p hp => Option.some.inj hp ▸ hop) hstep
  | flush => exact h.enter (fun _ hp => absurd hp (Option.not_mem_none _)) hstep
  | timerFlush =>
    obtain ⟨-, hstep⟩ := Option.ite_none_right_eq_some.mp hstep
    exact (h.withTimer _).enter (fun _ hp => absurd hp (Option.not_mem_none _)) hstep
  | advance j => exact h.advance hqos hop hstep
  | complete k => exact h.complete hstep
  | purge => exact h.purge hstep
  | timerExpires => exact htimer _ hstep
  | dpcStarts => exact htimer _ hstep
  | dpcEnds => exact htimer _ hstep
  | haltCancels =>
    obtain rfl := Option.some.inj hstep
    exact h.withTimer _
  | deleteLock =>
    obtain rfl := Option.some.inj hstep
    exact h.withTimer _

/-- The items that are not in USB. -/
def State.waiting (s : State) : List Item :=
  s.uplinkFreeBufferQueue ++ s.inside.filterMap Phase.item

/-- The cursors of the items. In MBIM mode `CurrentPtr` of an item in USB is before the NDP. -/
structure State.CursorsAgree (a : Adapter) (s : State) : Prop where
  waiting : ∀ item ∈ s.waiting, item.currentPtr = item.dataLength
  inUsb : ∀ item ∈ s.inUsb,
    item.dataLength = item.currentPtr + if a.mode = .mbim then item.ndpLength else 0
  capacity : ∀ item ∈ s.waiting ++ s.inUsb,
    (item.dataLength : Int) + item.remainingCapacity = a.uplinkTLPSize ∧ 0 ≤ item.remainingCapacity

theorem State.FramingInv.cursorsAgree (h : s.FramingInv a) : s.CursorsAgree a := by
  have hwaiting : ∀ item ∈ s.waiting, item.Good a := fun item hitem => by
    rcases List.mem_append.mp hitem with hitem | hitem
    · exact (h.queue item hitem).good
    · obtain ⟨phase, hphase, hitem⟩ := List.mem_filterMap.mp hitem
      exact (h.inside phase hphase).good item hitem
  refine ⟨fun item hitem => (hwaiting item hitem).pointer,
    fun item hitem => (h.inUsb item hitem).pointer, fun item hitem => ?_⟩
  rcases List.mem_append.mp hitem with hitem | hitem
  · exact ⟨(hwaiting item hitem).capacity, (hwaiting item hitem).room⟩
  · exact ⟨(h.inUsb item hitem).capacity, (h.inUsb item hitem).room⟩

/-- In every run without QoS whose lengths fit, a receiver of the mode finds in each transfer the
packets that its item had accepted, and the cursors of all items agree. -/
theorem uplink_framed (a : Adapter) (numItems : Nat) (hqos : a.qosEnabled = false) (ops : List Op)
    (hok : ∀ p ∈ (tlpMachine a).fires (.initial a numItems) ops, Fitting a p.1 p.2) :
    ∀ s ∈ (tlpMachine a).visits (.initial a numItems) ops,
      (∀ sent ∈ s.sent, Received a.mode sent.bytes sent.accepted) ∧ s.CursorsAgree a := by
  have hstep : ∀ (s : State) op s' o, s.FramingInv a → Fitting a s op →
      tlpMachine a s op = some (s', o) → s'.FramingInv a := by
    intro s op s' o h hop hs
    obtain ⟨t, ht, heq⟩ := Option.map_eq_some_iff.mp hs
    obtain ⟨rfl, -⟩ := Prod.mk.inj heq
    exact step_framingInv hqos h hop ht
  intro s hs
  have h := Machine.visits_all_of_fires hstep (State.initial_framingInv a numItems) hok s hs
  exact ⟨h.sent, h.cursorsAgree⟩

/-- An adapter without QoS in the given mode. -/
def quiet (mode : Mode) : Adapter :=
  ⟨mode, 1, 0x00535049, 100, true, false, 0, false, false, false⟩

/-- The calls that put a packet into the item at the head. -/
def sendPacket (data : List UInt8) : List Op :=
  [.send ⟨data, false, 0⟩, .advance 0, .advance 0, .advance 0, .advance 0]

/-- The calls that flush the item at the head. -/
def flushItem : List Op := [.flush, .advance 0, .advance 0, .advance 0]

/-- Two packets are sent in a block, and after a purge two more. -/
theorem uplink_framed_purge :
    let ops := sendPacket [1, 2, 3] ++ sendPacket [4] ++ flushItem ++ [.complete 0] ++
      sendPacket [5, 6] ++ [.purge] ++ sendPacket [7] ++ sendPacket [8, 9] ++ flushItem
    (∀ s ∈ (tlpMachine (quiet .mbim)).visits (.initial (quiet .mbim) 1) ops,
      (∀ sent ∈ s.sent, Received Mode.mbim sent.bytes sent.accepted) ∧
        s.CursorsAgree (quiet .mbim)) ∧
    ∃ s ∈ (tlpMachine (quiet .mbim)).visits (.initial (quiet .mbim) 1) ops,
      s.sent.map (·.accepted) = [[[1, 2, 3], [4]], [[7], [8, 9]]] :=
  ⟨uplink_framed (quiet .mbim) 1 rfl _ (by decide +kernel), by decide +kernel⟩

/-- An ICMP packet. -/
def icmpPacket : List UInt8 :=
  [0x45, 0, 0, 24, 0, 0, 0, 0, 64, 1, 0, 0, 10, 0, 0, 1, 10, 0, 0, 2, 8, 0, 0x12, 0x34]

/-- `CurrentPtr` stays before the NDP. In V2 the packet arrives with another checksum, after a purge
a datagram of the purged block arrives too, and with QoS the packet arrives with its QoS header and
as many bytes more. -/
theorem uplink_framed_exactly :
    (¬ ∀ (a : Adapter) (numItems : Nat) (ops : List Op),
      ∀ s ∈ (tlpMachine a).visits (.initial a numItems) ops, ∀ item ∈ s.inUsb,
        item.currentPtr = item.dataLength) ∧
    ∀ a ∈ [quiet .qmapV2, quiet .mbim, { quiet .tlp with qosEnabled := true }],
      ¬ ∀ (numItems : Nat) (ops : List Op),
        ∀ s ∈ (tlpMachine a).visits (.initial a numItems) ops, ∀ sent ∈ s.sent,
          receive a.mode sent.bytes = some sent.accepted := by
  constructor
  · intro hall
    have hbefore : ∃ s ∈ (tlpMachine (quiet .mbim)).visits (.initial (quiet .mbim) 1)
        (sendPacket [1] ++ flushItem), ∃ item ∈ s.inUsb, item.currentPtr ≠ item.dataLength := by
      decide +kernel
    obtain ⟨s, hs, item, hitem, hne⟩ := hbefore
    exact hne (hall _ 1 _ s hs item hitem)
  · intro a ha hall
    have hother : ∃ ops, ∃ s ∈ (tlpMachine a).visits (.initial a 1) ops, ∃ sent ∈ s.sent,
        receive a.mode sent.bytes ≠ some sent.accepted := by
      rcases List.mem_cons.mp ha with rfl | ha
      · exact ⟨sendPacket icmpPacket ++ flushItem, by decide +kernel⟩
      · rcases List.mem_cons.mp ha with rfl | ha
        · exact ⟨sendPacket [1] ++ sendPacket [2] ++ [.purge] ++ sendPacket [3] ++ flushItem,
            by decide +kernel⟩
        · obtain rfl := List.mem_singleton.mp ha
          exact ⟨sendPacket [1] ++ flushItem, by decide +kernel⟩
    obtain ⟨ops, s, hs, sent, hsent, hne⟩ := hother
    exact hne (hall 1 ops s hs sent hsent)

end Ndis.Tlp
