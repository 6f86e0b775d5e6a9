-- SUMMARY: The transmit event between the senders and the transmit thread, and which steps lose a kick.
import QcomUsb.Ndis.TlpPending

/-!
# Kicks of the transmit thread

A call of `MPTX_MiniportSendNetBufferListsEx` looks whether `TxPendingList` is empty, lets `TxLock`
go, and takes it again for the insertion. It sets `MPThreadTxEvent` if it saw the list empty. The
transmit thread clears the event and then runs the loop over the list.
-/

namespace Ndis.TxKick

open Transition

/-- A call that has looked at `TxPendingList` for a net buffer list: what it saw, and whether the
list's net buffers are in. -/
structure Sender where
  startTx : Bool
  inserted : Bool

/-- A net buffer of a list, and whether its flow is off: then it waits on another list. -/
structure Nb where
  packet : Tlp.Packet
  flowControlled : Bool

/-- The transmit thread is in a pass while its loop runs. -/
structure State where
  loop : Tlp.TxLoop
  mpThreadTxEvent : Bool
  senders : List Sender

/-- A sender looks, inserts, and sets the event; the thread starts a pass, or takes a turn of its
loop; and USB and the transmit timer go on. -/
inductive Op
  | look
  | insert (i : Nat) (nbs : List Nb)
  | kick (i : Nat)
  | wake
  | iterate (ready txBusy : Bool)
  | beside (op : Tlp.Op)

/-- The packets that go on `TxPendingList`. -/
def unheld (nbs : List Nb) : List Tlp.Packet :=
  (nbs.filter fun nb => !nb.flowControlled).map (·.packet)

namespace State

/-- Before the first call, with any items. -/
def initial (uplink : Tlp.State) : State :=
  ⟨⟨[], uplink, [], 0, false, false, false⟩, false, []⟩

/-- `startTx = IsListEmpty(&pAdapter->TxPendingList)`, under its own hold of the lock. -/
def look (s : State) : State :=
  { s with senders := s.senders ++ [⟨s.loop.txPendingList.isEmpty, false⟩] }

/-- The insertion of a list's net buffers, under another hold. -/
def insert (s : State) (i : Nat) (nbs : List Nb) : Option State :=
  match s.senders[i]? with
  | some ⟨startTx, false⟩ => some { s with
      loop.txPendingList := s.loop.txPendingList ++ unheld nbs
      senders := s.senders.set i ⟨startTx, true⟩ }
  | _ => none

/-- `KeSetEvent`, if the list was seen empty, and the end of the sender. -/
def kick (s : State) (i : Nat) : Option State :=
  match s.senders[i]? with
  | some ⟨startTx, true⟩ => some { s with
      mpThreadTxEvent := s.mpThreadTxEvent || startTx
      senders := s.senders.eraseIdx i }
  | _ => none

/-- `MP_TX_EVENT_INDEX` in `MPMAIN_MPThread`. -/
def wake (s : State) : Option State :=
  if s.mpThreadTxEvent ∧ s.loop.running = false then
    some { s with
      mpThreadTxEvent := false
      loop := { s.loop with
        processed := 0, kicker := false, bCapacityReached := false, running := true } }
  else none

/-- An item that comes back from USB kicks the thread. -/
def beside (a : Tlp.Adapter) (s : State) (op : Tlp.Op) : Option State :=
  (Tlp.step a s.loop.uplink op).map fun uplink =>
    { s with
      loop.uplink := uplink
      mpThreadTxEvent := match op with
        | .complete _ => true
        | _ => s.mpThreadTxEvent }

/-- The look and the insertion under one hold, as in `MPTX_MiniportSendNetBufferLists`. -/
def lookAndInsert (s : State) (nbs : List Nb) : State :=
  { s with
    loop.txPendingList := s.loop.txPendingList ++ unheld nbs
    senders := s.senders ++ [⟨s.loop.txPendingList.isEmpty, true⟩] }

end State

def step (a : Tlp.Adapter) (maxTLPPackets : Nat) (s : State) : Op → Option State
  | .look => some s.look
  | .insert i nbs => s.insert i nbs
  | .kick i => s.kick i
  | .wake => s.wake
  | .iterate ready txBusy =>
    if s.loop.running then some { s with loop := s.loop.iterate a maxTLPPackets ready txBusy }
    else none
  | .beside op => s.beside a op

/-- The senders, the transmit thread and USB. -/
def kickMachine (a : Tlp.Adapter) (maxTLPPackets : Nat) : Machine State Op Unit :=
  fun s op => (step a maxTLPPackets s op).map (·, ())

/-! ## Kicks -/

/-- The sender has not inserted yet, or still sets the event. -/
def Sender.inWindow (c : Sender) : Bool := !c.inserted || c.startTx

/-- With packets pending, no sender on its way and the thread outside its loop, the event is set. -/
def State.Kicked (s : State) : Prop :=
  s.loop.txPendingList ≠ [] → (∀ c ∈ s.senders, c.inWindow = false) → s.loop.running = false →
    s.mpThreadTxEvent = true

instance (s : State) : Decidable s.Kicked :=
  inferInstanceAs (Decidable (s.loop.txPendingList ≠ [] → (∀ c ∈ s.senders, c.inWindow = false) →
    s.loop.running = false → s.mpThreadTxEvent = true))

/-- Some sender found the list empty and will set the event. -/
def State.KickComes (s : State) : Prop := true ∈ s.senders.map (·.startTx)

/-- With packets pending, the event is set, or will be, or the thread is in its loop. -/
def State.Covered (s : State) : Prop :=
  s.loop.txPendingList ≠ [] →
    s.mpThreadTxEvent = true ∨ s.loop.running = true ∨ s.KickComes

/-- A sender that fills an empty list does so while the event is set, or will be, or the thread is in
its loop. The thread does not leave packets behind for want of an item, unless the event is set or
will be. -/
def Op.Covers (s : State) : Op → Prop
  | .insert _ nbs => unheld nbs ≠ [] → s.loop.txPendingList = [] →
    s.mpThreadTxEvent = true ∨ s.loop.running = true ∨ s.KickComes
  | .iterate _ _ => s.loop.txPendingList ≠ [] → s.loop.uplink.uplinkFreeBufferQueue = [] →
    s.mpThreadTxEvent = true ∨ s.KickComes
  | _ => True

variable {a : Tlp.Adapter} {maxTLPPackets : Nat} {s s' : State}

theorem State.Covered.kicked (h : s.Covered) : s.Kicked := by
  intro hpending hsenders hrunning
  rcases h hpending with hevent | hloop | hcomes
  · exact hevent
  · exact Bool.noConfusion (hrunning.symm.trans hloop)
  · obtain ⟨c, hc, hstart⟩ := List.mem_map.mp hcomes
    have hwindow := hsenders c hc
    rw [Sender.inWindow, hstart, Bool.or_true] at hwindow
    cases hwindow

/-! ## One step -/

theorem look_covered (h : s.Covered) : s.look.Covered := by
  intro hpending
  apply (h hpending).imp_right
  apply Or.imp_right
  intro hcomes
  rw [State.KickComes, State.look, List.map_append]
  exact List.mem_append_left _ hcomes

/-- Under one hold no kick is lost. -/
theorem lookAndInsert_covered (h : s.Covered) (nbs : List Nb) : (s.lookAndInsert nbs).Covered := by
  intro _
  by_cases hpending : s.loop.txPendingList = []
  · refine .inr (.inr ?_)
    simp [State.KickComes, State.lookAndInsert, hpending]
  · apply (h hpending).imp_right
    apply Or.imp_right
    intro hcomes
    rw [State.KickComes, State.lookAndInsert, List.map_append]
    exact List.mem_append_left _ hcomes

/-- An insertion leaves the senders' views as they are. -/
theorem startTx_set {senders : List Sender} {i : Nat} {startTx inserted : Bool}
    (h : senders[i]? = some ⟨startTx, inserted⟩) :
    (senders.set i ⟨startTx, true⟩).map (·.startTx) = senders.map (·.startTx) := by
  obtain ⟨hlt, hget⟩ := List.getElem?_eq_some_iff.mp h
  apply List.ext_getElem?
  intro j
  rw [List.getElem?_map, List.getElem?_map, List.getElem?_set]
  by_cases hj : i = j
  · subst hj
    simp [hlt, hget]
  · simp [hj]

theorem insert_covered_iff {i : Nat} {nbs : List Nb} (h : s.Covered)
    (hs : s.insert i nbs = some s') : s'.Covered ↔ (Op.insert i nbs).Covers s := by
  unfold State.insert at hs
  split at hs
  · rename_i startTx hsender
    cases hs
    have hcomes := startTx_set hsender
    simp only [State.Covered, State.KickComes, Op.Covers, hcomes]
    constructor
    · intro hcovered hnew _
      exact hcovered (List.append_ne_nil_of_right_ne_nil _ hnew)
    · intro hcovers happended
      by_cases hpending : s.loop.txPendingList = []
      · rw [hpending, List.nil_append] at happended
        exact hcovers happended hpending
      · exact h hpending
  · cases hs

theorem kick_covered {i : Nat} (h : s.Covered) (hs : s.kick i = some s') : s'.Covered := by
  unfold State.kick at hs
  split at hs
  · rename_i startTx hsender
    cases hs
    intro hpending
    cases startTx with
    | true => exact .inl (Bool.or_true _)
    | false =>
      rcases h hpending with hevent | hloop | hcomes
      · exact .inl (by simp [hevent])
      · exact .inr (.inl hloop)
      · -- the sender that will kick is another one
        obtain ⟨c, hc, hstart⟩ := List.mem_map.mp hcomes
        obtain ⟨j, hj⟩ := List.mem_iff_getElem?.mp hc
        have hother : j ≠ i := by
          rintro rfl
          rw [hsender] at hj
          cases hj
          cases hstart
        have hkept : c ∈ s.senders.eraseIdx i := List.mem_eraseIdx_iff_getElem?.mpr ⟨j, hother, hj⟩
        exact .inr (.inr (List.mem_map.mpr ⟨c, hkept, hstart⟩))
  · cases hs

theorem wake_covered (hs : s.wake = some s') : s'.Covered := by
  obtain ⟨-, heq⟩ := Option.ite_none_right_eq_some.mp hs
  cases heq
  exact fun _ => .inr (.inl rfl)

/-- The loop is left when nothing is pending, or no item is free. -/
theorem iterate_running (a : Tlp.Adapter) (maxTLPPackets : Nat) (l : Tlp.TxLoop)
    (ready txBusy : Bool) (hrunning : l.running = true)
    (hpending : l.txPendingList ≠ []) (hqueue : l.uplink.uplinkFreeBufferQueue ≠ []) :
    (l.iterate a maxTLPPackets ready txBusy).running = true := by
  unfold Tlp.TxLoop.iterate
  split
  · rename_i hnil
    exact absurd hnil hpending
  · obtain ⟨item, rest, heq⟩ := List.exists_cons_of_ne_nil hqueue
    rw [heq, Tlp.aggregationAvailable]
    split
    · split
      · exact hrunning
      · split <;> exact hrunning
    · exact hrunning
    all_goals
      rename_i hanswer
      split at hanswer <;> cases hanswer

theorem iterate_covered_iff {ready txBusy : Bool} (hrunning : s.loop.running = true) :
    State.Covered { s with loop := s.loop.iterate a maxTLPPackets ready txBusy } ↔
      (Op.iterate ready txBusy).Covers s := by
  simp only [State.Covered, State.KickComes, Op.Covers]
  by_cases hpending : s.loop.txPendingList = []
  · have hleft : s.loop.iterate a maxTLPPackets ready txBusy = { s.loop with running := false } := by
      simp only [Tlp.TxLoop.iterate, hpending]
    rw [hleft]
    exact iff_of_true (fun h => absurd hpending h) (fun h => absurd hpending h)
  by_cases hqueue : s.loop.uplink.uplinkFreeBufferQueue = []
  · obtain ⟨packet, rest, heq⟩ := List.exists_cons_of_ne_nil hpending
    have hleft : s.loop.iterate a maxTLPPackets ready txBusy =
        { s.loop with bCapacityReached := true, running := false } := by
      simp only [Tlp.TxLoop.iterate, heq, hqueue, Tlp.aggregationAvailable]
    rw [hleft]
    simp [hpending, hqueue]
  · have hstays := iterate_running a maxTLPPackets s.loop ready txBusy hrunning hpending hqueue
    exact iff_of_true (fun _ => .inr (.inl hstays)) (fun _ h => absurd h hqueue)

theorem beside_covered {op : Tlp.Op} (h : s.Covered) (hs : s.beside a op = some s') :
    s'.Covered := by
  obtain ⟨uplink, -, rfl⟩ := Option.map_eq_some_iff.mp hs
  intro hpending
  refine (h hpending).imp_left fun hevent => ?_
  cases op <;> first | rfl | exact hevent

/-- A step keeps the kicks exactly if it meets its condition. -/
theorem step_covered_iff {op : Op} (h : s.Covered) (hs : step a maxTLPPackets s op = some s') :
    s'.Covered ↔ op.Covers s := by
  cases op with
  | look =>
    cases hs
    exact iff_of_true (look_covered h) trivial
  | insert i nbs => exact insert_covered_iff h hs
  | kick i => exact iff_of_true (kick_covered h hs) trivial
  | wake => exact iff_of_true (wake_covered hs) trivial
  | iterate ready txBusy =>
    obtain ⟨hrunning, heq⟩ := Option.ite_none_right_eq_some.mp hs
    cases heq
    exact iterate_covered_iff hrunning
  | beside op => exact iff_of_true (beside_covered h hs) trivial

/-! ## Runs -/

theorem initial_covered (uplink : Tlp.State) : (State.initial uplink).Covered :=
  fun hpending => absurd rfl hpending

/-- The kicks are kept throughout a run exactly if each of its steps meets its condition. -/
theorem visits_covered_iff (uplink : Tlp.State) (ops : List Op) :
    (∀ t ∈ (kickMachine a maxTLPPackets).visits (.initial uplink) ops, t.Covered) ↔
      ∀ p ∈ (kickMachine a maxTLPPackets).fires (.initial uplink) ops, p.2.Covers p.1 := by
  have hstep : ∀ s op s' o, s.Covered → kickMachine a maxTLPPackets s op = some (s', o) →
      (s'.Covered ↔ op.Covers s) := by
    intro s op s' o hcovered hs
    obtain ⟨t, ht, heq⟩ := Option.map_eq_some_iff.mp hs
    cases heq
    exact step_covered_iff hcovered ht
  exact Machine.visits_iff_fires hstep (initial_covered uplink)

/-- No kick is lost in a run whose steps all meet their conditions. -/
theorem visits_kicked (uplink : Tlp.State) (ops : List Op)
    (hcovers : ∀ p ∈ (kickMachine a maxTLPPackets).fires (.initial uplink) ops, p.2.Covers p.1) :
    ∀ t ∈ (kickMachine a maxTLPPackets).visits (.initial uplink) ops, t.Kicked := by
  intro t ht
  exact ((visits_covered_iff uplink ops).mpr hcovers t ht).kicked

instance (s : State) : Decidable s.KickComes :=
  inferInstanceAs (Decidable (true ∈ s.senders.map (·.startTx)))

instance (s : State) : (op : Op) → Decidable (op.Covers s)
  | .insert _ nbs => inferInstanceAs (Decidable (unheld nbs ≠ [] → s.loop.txPendingList = [] →
      s.mpThreadTxEvent = true ∨ s.loop.running = true ∨ s.KickComes))
  | .iterate _ _ => inferInstanceAs (Decidable (s.loop.txPendingList ≠ [] →
      s.loop.uplink.uplinkFreeBufferQueue = [] → s.mpThreadTxEvent = true ∨ s.KickComes))
  | .look | .kick _ | .wake | .beside _ => .isTrue trivial

/-- A net buffer list with one packet. -/
def onePacket : List Nb := [⟨⟨[0x45], false, 0⟩, false⟩]

/-- The uplink before any packet, with one item. -/
def oneItem : Tlp.State := .initial (Tlp.quiet .qmapV1) 1

/-- Two senders, of which the second to look is the first to insert. -/
def twoSenders : List Op :=
  [.look, .look, .insert 1 onePacket, .insert 0 onePacket, .kick 0, .wake, .iterate true false,
    .kick 0, .iterate true false, .iterate true false, .wake]

theorem visits_kicked_twice :
    (∀ p ∈ (kickMachine (Tlp.quiet .qmapV1) 0).fires (.initial oneItem) twoSenders,
      p.2.Covers p.1) ∧
    ∀ t ∈ (kickMachine (Tlp.quiet .qmapV1) 0).visits (.initial oneItem) twoSenders, t.Kicked :=
  ⟨by decide +kernel, visits_kicked oneItem _ (by decide +kernel)⟩

/-- The thread empties the list between the look of the second sender and its insertion. -/
theorem kick_lost :
    ¬ ∀ uplink ops, ∀ t ∈ (kickMachine (Tlp.quiet .qmapV1) 0).visits (.initial uplink) ops,
      t.Kicked := by
  intro hall
  have hlast := hall oneItem [.look, .insert 0 onePacket, .look, .kick 0, .wake, .iterate true false,
    .iterate true false, .insert 0 onePacket] _ (List.getLast_mem (List.ne_nil_of_mem
      (Machine.start_mem_visits _ _)))
  revert hlast
  decide +kernel

/-! ## What a lost kick leads to -/

/-- Once a kick is lost the senders need only finish, and the packets wait for an event that nobody
is about to set. -/
theorem not_kicked_of_not_covered (h : ¬ s.Covered) :
    ∃ ops, ∃ t ∈ (kickMachine a maxTLPPackets).visits s ops, ¬ t.Kicked := by
  -- by induction on the senders that have not inserted
  generalize hn : s.senders.countP (fun c => !c.inserted) = n
  induction n generalizing s with
  | zero =>
    refine ⟨[], s, List.mem_singleton_self s, fun hkicked => h fun hpending => ?_⟩
    by_contra hnone
    obtain ⟨hevent, hrunning, hcomes⟩ := not_or.mp hnone |>.imp_right not_or.mp
    refine hevent (hkicked hpending (fun c hc => ?_) (Bool.eq_false_of_not_eq_true hrunning))
    have hstart : c.startTx ≠ true := fun hstart =>
      hcomes (List.mem_map.mpr ⟨c, hc, hstart⟩)
    have hinserted := List.countP_eq_zero.mp hn c hc
    simpa [Sender.inWindow, hstart] using hinserted
  | succ n ih =>
    have hsome : 0 < s.senders.countP fun c => !c.inserted := by omega
    obtain ⟨c, hc, hwaits⟩ := List.countP_pos_iff.mp hsome
    obtain ⟨i, hi⟩ := List.mem_iff_getElem?.mp hc
    obtain ⟨startTx, inserted⟩ := c
    obtain rfl : inserted = false := by simpa using hwaits
    obtain ⟨hlt, hget⟩ := List.getElem?_eq_some_iff.mp hi
    -- the sender inserts a list all of whose packets are held back
    have hs : s.insert i [] = some { s with
        loop.txPendingList := s.loop.txPendingList ++ unheld []
        senders := s.senders.set i ⟨startTx, true⟩ } := by
      simp only [State.insert, hi]
    have hfewer : (s.senders.set i ⟨startTx, true⟩).countP (fun c => !c.inserted) = n := by
      rw [List.countP_set hlt, hget]
      simp [hn]
    have hstill : ¬ State.Covered { s with
        loop.txPendingList := s.loop.txPendingList ++ unheld []
        senders := s.senders.set i ⟨startTx, true⟩ } := by
      simpa only [State.Covered, State.KickComes, startTx_set hi, unheld, List.filter_nil,
        List.map_nil, List.append_nil] using h
    obtain ⟨ops, t, ht, hnot⟩ := ih hstill hfewer
    refine ⟨.insert i [] :: ops, t, ?_, hnot⟩
    have hfire : kickMachine a maxTLPPackets s (.insert i []) = some (_, ()) :=
      congrArg (Option.map (·, ())) hs
    rw [Machine.visits_cons_some ops hfire]
    exact List.mem_cons_of_mem _ ht

end Ndis.TxKick
