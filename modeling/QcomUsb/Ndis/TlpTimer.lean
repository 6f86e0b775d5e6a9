-- SUMMARY: Aggregated uplink data is never left without a timer, an event or a thread that sends it.
import QcomUsb.Ndis.TlpQueue

/-!
# The transmit timer

Between two calls of `MPUSB_TLPTxPacketEx` only the item at the head of the queue has data, and then
the timer is armed, its DPC is to run, or the MP thread is to flush. `SetTransmitTimer` holds the
remove lock once for a timer that is armed and once for each DPC that has yet to release it.
-/

namespace Ndis.Tlp

open Transition

/-- Something is to flush. -/
def Timer.Live (t : Timer) : Prop := t.armed ∨ t.dpcQueued ∨ t.txTimerEvent

/-- The timer is armed if it was launched and has not expired, and the lock is held for what is to
release it. -/
structure Timer.Valid (t : Timer) : Prop where
  armed_iff : t.armed = true ↔ t.launched = true ∧ t.signaled = false
  lock : t.acquired = t.released + t.armed.toNat + t.dpcQueued.toNat + t.dpcRunning

/-- Only the item at the head has data. -/
def State.TailEmpty (s : State) : Prop :=
  ∀ item ∈ s.uplinkFreeBufferQueue.tail, item.dataLength = 0

def State.AllEmpty (s : State) : Prop := ∀ item ∈ s.uplinkFreeBufferQueue, item.dataLength = 0

/-- Data in the queue is going to be flushed. -/
def State.Covered (s : State) : Prop :=
  ∀ item ∈ s.uplinkFreeBufferQueue, 0 < item.dataLength → s.timer.Live

/-- What holds while the one thread is in `MPUSB_TLPTxPacketEx`. A flush takes care of the data
itself. -/
def Phase.Good (s : State) : Phase → Prop
  | .entered (some _) => s.TailEmpty ∧ s.Covered
  | .entered none => s.TailEmpty
  | .took item packet =>
    s.AllEmpty ∧ ∀ i ∈ item, packet.isSome → 0 < i.dataLength → s.timer.Live
  | .staying _ => s.AllEmpty
  | .stayed => s.TailEmpty
  | .full _ => s.AllEmpty
  | .sending _ => s.AllEmpty
  | .restoring item => s.AllEmpty ∧ ∀ i ∈ item, 0 < i.dataLength → s.timer.Live

structure State.TimerInv (s : State) : Prop where
  timer : s.timer.Valid
  unlocked : s.timer.lockDeleted = false
  inside : (s.inside = [] ∧ s.TailEmpty ∧ s.Covered) ∨ ∃ phase, s.inside = [phase] ∧ phase.Good s

/-! ## The timer -/

theorem Timer.Valid.set {t : Timer} (h : t.Valid) (hlock : t.lockDeleted = false) :
    t.set.Valid ∧ t.set.Live ∧ t.set.lockDeleted = false := by
  have hcount := h.lock
  simp only [Timer.set, hlock, Bool.false_eq_true, if_false]
  split
  next hset =>
    have hnot : t.armed = false := by
      rcases hset with hsignaled | hlaunched
      · exact Bool.eq_false_iff.mpr fun harmed => by simp [h.armed_iff.mp harmed] at hsignaled
      · exact Bool.eq_false_iff.mpr fun harmed => by simp [h.armed_iff.mp harmed] at hlaunched
    rw [hnot, Bool.toNat_false] at hcount
    refine ⟨⟨by simp, ?_⟩, .inl rfl, rfl⟩
    simp only [Bool.toNat_true]
    omega
  next hset =>
    obtain ⟨hsignaled, hlaunched⟩ := not_or.mp hset
    have harmed : t.armed = true :=
      h.armed_iff.mpr ⟨by simpa using hlaunched, by simpa using hsignaled⟩
    refine ⟨⟨h.armed_iff, ?_⟩, .inl harmed, rfl⟩
    show t.acquired + 1 = t.released + 1 + t.armed.toNat + t.dpcQueued.toNat + t.dpcRunning
    omega

theorem Timer.Valid.cancel {t : Timer} (h : t.Valid) :
    t.cancel.Valid ∧ t.cancel.lockDeleted = t.lockDeleted := by
  have hcount := h.lock
  unfold Timer.cancel
  split
  next harmed =>
    rw [harmed, Bool.toNat_true] at hcount
    refine ⟨⟨by simp, ?_⟩, rfl⟩
    simp only [Bool.toNat_false]
    omega
  next => exact ⟨h, rfl⟩

/-- The timer expires when its DPC is not queued. -/
theorem Timer.Valid.expires {t t' : Timer} (h : t.Valid) (hqueued : t.dpcQueued = false)
    (hstep : t.expires = some t') : t'.Valid ∧ t'.Live ∧ t'.lockDeleted = t.lockDeleted := by
  obtain ⟨harmed, hstep⟩ := Option.ite_none_right_eq_some.mp hstep
  obtain rfl := Option.some.inj hstep
  have hcount := h.lock
  rw [harmed, hqueued, Bool.toNat_true, Bool.toNat_false] at hcount
  refine ⟨⟨by simp, ?_⟩, .inr (.inl rfl), rfl⟩
  simp only [Bool.toNat_true, Bool.toNat_false]
  omega

theorem Timer.Valid.dpcStarts {t t' : Timer} (h : t.Valid) (hstep : t.dpcStarts = some t') :
    t'.Valid ∧ t'.Live ∧ t'.lockDeleted = t.lockDeleted := by
  obtain ⟨hqueued, hstep⟩ := Option.ite_none_right_eq_some.mp hstep
  obtain rfl := Option.some.inj hstep
  have hcount := h.lock
  rw [hqueued, Bool.toNat_true] at hcount
  refine ⟨⟨h.armed_iff, ?_⟩, .inr (.inr rfl), rfl⟩
  simp only [Bool.toNat_false]
  omega

theorem Timer.Valid.dpcEnds {t t' : Timer} (h : t.Valid) (hstep : t.dpcEnds = some t') :
    t'.Valid ∧ (t.Live → t'.Live) ∧ t'.lockDeleted = t.lockDeleted := by
  obtain ⟨hrunning, hstep⟩ := Option.ite_none_right_eq_some.mp hstep
  obtain rfl := Option.some.inj hstep
  have hcount := h.lock
  refine ⟨⟨h.armed_iff, ?_⟩, fun hlive => hlive, rfl⟩
  show t.acquired = t.released + 1 + t.armed.toNat + t.dpcQueued.toNat + (t.dpcRunning - 1)
  omega

/-! ## The queue -/

variable {a : Adapter} {s s' : State}

theorem State.AllEmpty.tailEmpty (h : s.AllEmpty) : s.TailEmpty :=
  fun item hitem => h item (List.mem_of_mem_tail hitem)

theorem State.AllEmpty.covered (h : s.AllEmpty) : s.Covered :=
  fun item hitem hpos => absurd (h item hitem) hpos.ne'

/-- The item at the head is taken, and the rest has no data. -/
theorem State.TailEmpty.tail (h : s.TailEmpty) :
    ({ s with uplinkFreeBufferQueue := s.uplinkFreeBufferQueue.tail } : State).AllEmpty := h

/-- What a thread that waits relies on may only get better. -/
theorem Phase.Good.mono {phase : Phase} (h : phase.Good s) (hall : s.AllEmpty → s'.AllEmpty)
    (htail : s.TailEmpty → s'.TailEmpty) (hcovered : s.Covered → s'.Covered)
    (hlive : s.timer.Live → s'.timer.Live) : phase.Good s' := by
  cases phase with
  | entered packet =>
    cases packet with
    | none => exact htail h
    | some packet => exact ⟨htail h.1, hcovered h.2⟩
  | took item packet => exact ⟨hall h.1, fun i hi hp hpos => hlive (h.2 i hi hp hpos)⟩
  | staying item => exact hall h
  | stayed => exact htail h
  | full item => exact hall h
  | sending item => exact hall h
  | restoring item => exact ⟨hall h.1, fun i hi hpos => hlive (h.2 i hi hpos)⟩

/-- The same for the whole invariant, while the timer stays valid. -/
theorem State.TimerInv.mono (h : s.TimerInv) (htimer : s'.timer.Valid)
    (hlock : s'.timer.lockDeleted = s.timer.lockDeleted) (hinside : s'.inside = s.inside)
    (hall : s.AllEmpty → s'.AllEmpty) (htail : s.TailEmpty → s'.TailEmpty)
    (hlive : s.timer.Live → s'.timer.Live) (hcovered : s.Covered → s'.Covered) : s'.TimerInv := by
  refine ⟨htimer, hlock.trans h.unlocked, ?_⟩
  rcases h.inside with ⟨hnone, hrest, hcov⟩ | ⟨phase, hone, hgood⟩
  · exact .inl ⟨hinside.trans hnone, htail hrest, hcovered hcov⟩
  · exact .inr ⟨phase, hinside.trans hone, hgood.mono hall htail hcovered hlive⟩

/-- A step of the timer keeps the invariant when it leaves something to flush. -/
theorem State.TimerInv.withTimer (h : s.TimerInv) {t : Timer} (htimer : t.Valid)
    (hlock : t.lockDeleted = s.timer.lockDeleted) (hlive : s.timer.Live → t.Live) :
    ({ s with timer := t } : State).TimerInv := by
  have hcovered : s.Covered → ({ s with timer := t } : State).Covered :=
    fun hcov item hitem hpos => hlive (hcov item hitem hpos)
  exact h.mono htimer hlock rfl id id hlive hcovered

theorem State.TimerInv.complete (h : s.TimerInv) {k : Nat} (hstep : s.complete a k = some s') :
    s'.TimerInv := by
  unfold State.complete at hstep
  split at hstep
  · cases hstep
  next item _ =>
    obtain rfl := Option.some.inj hstep
    have hempty : (item.recycle a).dataLength = 0 := rfl
    refine h.mono h.timer rfl rfl (fun hall => ?_) (fun htail => ?_) id fun hcovered => ?_
    · intro i hi
      rcases List.mem_append.mp hi with hi | hi
      · exact hall i hi
      · rwa [List.mem_singleton.mp hi]
    · intro i hi
      cases hq : s.uplinkFreeBufferQueue with
      | nil => simp [hq] at hi
      | cons head rest =>
        have hi : i ∈ rest ++ [item.recycle a] := by simpa [hq] using hi
        rcases List.mem_append.mp hi with hi | hi
        · exact htail i (by simpa [hq] using hi)
        · rwa [List.mem_singleton.mp hi]
    · intro i hi hpos
      rcases List.mem_append.mp hi with hi | hi
      · exact hcovered i hi hpos
      · rw [List.mem_singleton.mp hi, hempty] at hpos
        exact absurd hpos (lt_irrefl 0)

theorem State.TimerInv.purge (h : s.TimerInv) (hstep : s.purge a = some s') : s'.TimerInv := by
  obtain ⟨-, hstep⟩ := Option.ite_none_right_eq_some.mp hstep
  obtain rfl := Option.some.inj hstep
  have hall : ({ s with uplinkFreeBufferQueue :=
      s.uplinkFreeBufferQueue.map (·.purge a) } : State).AllEmpty := by
    intro i hi
    obtain ⟨item, _, rfl⟩ := List.mem_map.mp hi
    rfl
  exact h.mono h.timer rfl rfl (fun _ => hall) (fun _ => hall.tailEmpty) id fun _ => hall.covered

/-! ## The thread -/

/-- The one thread comes to a phase that is good. -/
theorem State.TimerInv.goTo (htimer : s.timer.Valid) (hlock : s.timer.lockDeleted = false)
    {phase phase' : Phase} (hone : s.inside = [phase]) (hgood : phase'.Good s) :
    (s.goTo 0 (some phase')).TimerInv := by
  refine ⟨htimer, hlock, .inr ⟨phase', ?_, ?_⟩⟩
  · simp [State.goTo, hone]
  · exact hgood.mono id id id id

/-- The one thread leaves. -/
theorem State.TimerInv.leave (htimer : s.timer.Valid) (hlock : s.timer.lockDeleted = false)
    {phase : Phase} (hone : s.inside = [phase]) (htail : s.TailEmpty) (hcovered : s.Covered) :
    (s.goTo 0 none).TimerInv := by
  refine ⟨htimer, hlock, .inl ⟨?_, htail, hcovered⟩⟩
  simp [State.goTo, hone]

theorem State.TimerInv.enter (h : s.TimerInv) (hqos : a.qosEnabled = false)
    {packet : Option Packet} (hstep : s.enter a packet = some s') : s'.TimerInv := by
  obtain ⟨hfree, hstep⟩ := Option.ite_none_right_eq_some.mp hstep
  obtain rfl := Option.some.inj hstep
  have hnone : s.inside = [] := by simpa [hqos] using hfree
  rcases h.inside with ⟨-, htail, hcovered⟩ | ⟨phase, hone, -⟩
  · refine ⟨h.timer, h.unlocked, .inr ⟨.entered packet, by simp [hnone], ?_⟩⟩
    cases packet with
    | none => exact htail
    | some packet => exact ⟨htail, hcovered⟩
  · simp [hnone] at hone

/-- The thread takes the only item that may have data. -/
theorem State.TimerInv.take (h : s.TimerInv) {packet : Option Packet}
    (hone : s.inside = [.entered packet]) (hgood : (Phase.entered packet).Good s) :
    (s.take 0 packet).TimerInv := by
  refine goTo (s := { s with uplinkFreeBufferQueue := s.uplinkFreeBufferQueue.tail })
    h.timer h.unlocked hone ?_
  constructor
  · cases packet with
    | none => exact State.TailEmpty.tail hgood
    | some packet => exact State.TailEmpty.tail hgood.1
  · intro i hi hpacket hpos
    obtain ⟨packet, rfl⟩ := Option.isSome_iff_exists.mp hpacket
    exact hgood.2 i (List.mem_of_mem_head? hi) hpos

/-- The thread has its packet in the item, or not. -/
theorem State.TimerInv.process (h : s.TimerInv) {item : Option Item} {packet : Packet}
    (hone : s.inside = [.took item (some packet)])
    (hgood : (Phase.took item (some packet)).Good s) : (s.process a 0 item packet).TimerInv := by
  obtain ⟨hall, hlive⟩ := hgood
  have hrestore : (Phase.restoring item).Good s := ⟨hall, fun i hi => hlive i hi rfl⟩
  unfold State.process
  split
  · exact goTo h.timer h.unlocked hone hrestore
  next item =>
    split
    · exact goTo h.timer h.unlocked hone hrestore
    · split
      · exact goTo h.timer h.unlocked hone hrestore
      next filled _ =>
        obtain ⟨sequence, hsequence⟩ : ∃ sequence, (if a.mode = .mbim ∧ item.currentPtr = 0 then
            { s with ntbSequence := nextSequence s.ntbSequence } else s)
              = { s with ntbSequence := sequence } := by
          split
          · exact ⟨_, rfl⟩
          · exact ⟨s.ntbSequence, rfl⟩
        simp only [hsequence]
        split
        · refine goTo (s := { s with ntbSequence := sequence }) h.timer h.unlocked hone ?_
          exact hall
        · split
          all_goals
            refine goTo (s := { s with ntbSequence := sequence }) h.timer h.unlocked hone ?_
            exact hall

theorem State.TimerInv.prepareIrp (h : s.TimerInv) {item : Item}
    (hone : s.inside = [.sending (some item)]) (hall : s.AllEmpty) :
    (s.prepareIrp a 0 item).TimerInv := by
  unfold State.prepareIrp
  split
  next hempty =>
    refine goTo h.timer h.unlocked hone ?_
    refine ⟨hall, fun i hi hpos => ?_⟩
    obtain rfl := Option.mem_some_iff.mp hi
    omega
  next => exact leave h.timer h.unlocked hone hall.tailEmpty hall.covered

/-- The item of the thread is put back in front of items without data. -/
theorem State.AllEmpty.insertHead (h : s.AllEmpty) (item : Item) :
    (s.insertHead item).TailEmpty := h

theorem State.AllEmpty.insertHead_covered (h : s.AllEmpty) {item : Item}
    (hlive : 0 < item.dataLength → s.timer.Live) : (s.insertHead item).Covered := by
  intro i hi hpos
  rcases List.mem_cons.mp hi with rfl | hi
  · exact hlive hpos
  · exact absurd (h i hi) hpos.ne'

/-- A step of the thread keeps the invariant. -/
theorem State.TimerInv.advance (h : s.TimerInv) {j : Nat} (hstep : s.advance a j = some s') :
    s'.TimerInv := by
  rcases h.inside with ⟨hnone, -⟩ | ⟨phase, hone, hgood⟩
  · simp [State.advance, hnone] at hstep
  obtain rfl : j = 0 := by
    cases j with
    | zero => rfl
    | succ j => simp [State.advance, hone] at hstep
  have hphase : s.inside[0]? = some phase := by simp [hone]
  cases phase with
  | entered packet =>
    obtain rfl : s.take 0 packet = s' := by simpa [State.advance, hphase] using hstep
    exact h.take hone hgood
  | took item packet =>
    cases packet with
    | none =>
      obtain rfl : s.goTo 0 (some (.sending item)) = s' := by
        simpa [State.advance, hphase] using hstep
      refine goTo h.timer h.unlocked hone ?_
      exact hgood.1
    | some packet =>
      obtain rfl : s.process a 0 item packet = s' := by
        simpa [State.advance, hphase] using hstep
      exact h.process hone hgood
  | staying item =>
    obtain rfl : (s.insertHead item).goTo 0 (some .stayed) = s' := by
      simpa [State.advance, hphase] using hstep
    have hone' : (s.insertHead item).inside = [.staying item] := hone
    refine goTo (s := s.insertHead item) h.timer h.unlocked hone' ?_
    exact State.AllEmpty.insertHead hgood item
  | stayed =>
    obtain rfl : { s with timer := s.timer.set }.goTo 0 none = s' := by
      simpa [State.advance, hphase] using hstep
    obtain ⟨htimer, hlive, hlock⟩ := h.timer.set h.unlocked
    have hone' : ({ s with timer := s.timer.set } : State).inside = [.stayed] := hone
    exact leave htimer hlock hone' hgood fun _ _ _ => hlive
  | full item =>
    obtain rfl : { s with timer := s.timer.cancel }.goTo 0 (some (.sending (some item))) = s' := by
      simpa [State.advance, hphase] using hstep
    obtain ⟨htimer, hlock⟩ := h.timer.cancel
    have hone' : ({ s with timer := s.timer.cancel } : State).inside = [.full item] := hone
    refine goTo htimer (hlock.trans h.unlocked) hone' ?_
    exact hgood
  | sending item =>
    cases item with
    | none =>
      obtain rfl : s.goTo 0 (some (.restoring none)) = s' := by
        simpa [State.advance, hphase] using hstep
      refine goTo h.timer h.unlocked hone ?_
      exact ⟨hgood, by simp⟩
    | some item =>
      obtain rfl : s.prepareIrp a 0 item = s' := by simpa [State.advance, hphase] using hstep
      exact h.prepareIrp hone hgood
  | restoring item =>
    obtain ⟨hall, hlive⟩ := hgood
    cases item with
    | none =>
      obtain rfl : s.goTo 0 none = s' := by simpa [State.advance, hphase] using hstep
      exact leave h.timer h.unlocked hone hall.tailEmpty hall.covered
    | some item =>
      obtain rfl : (s.insertHead item).goTo 0 none = s' := by
        simpa [State.advance, hphase] using hstep
      have hone' : (s.insertHead item).inside = [.restoring (some item)] := hone
      exact leave (s := s.insertHead item) h.timer h.unlocked hone' (hall.insertHead item)
        (hall.insertHead_covered (hlive item rfl))

/-! ## Runs -/

/-- `MPMAIN_MiniportHalt` has not begun, and the DPC of one expiry has begun before the next. -/
def Punctual (s : State) : Op → Prop
  | .haltCancels | .deleteLock => False
  | .timerExpires => s.timer.dpcQueued = false
  | _ => True

instance (s : State) (op : Op) : Decidable (Punctual s op) := by
  unfold Punctual
  split <;> infer_instance

/-- Only the item at the head has data, and then the timer is armed, its DPC is to run or runs, or
the MP thread is to flush. -/
structure State.NotStranded (s : State) : Prop where
  head : ∀ item ∈ s.uplinkFreeBufferQueue.tail, item.dataLength = 0
  flushed : ∀ item ∈ s.uplinkFreeBufferQueue, 0 < item.dataLength →
    s.timer.armed ∨ (s.timer.dpcQueued ∨ 0 < s.timer.dpcRunning) ∨ s.timer.txTimerEvent

/-- What is to release the remove lock: the timer while it is armed, and each DPC. -/
def Timer.outstanding (t : Timer) : Nat := t.armed.toNat + t.dpcQueued.toNat + t.dpcRunning

theorem State.initial_timerInv (a : Adapter) (numItems : Nat) :
    (State.initial a numItems).TimerInv := by
  have hall : (State.initial a numItems).AllEmpty := by
    intro item hitem
    rw [List.eq_of_mem_replicate hitem]
    rfl
  exact ⟨⟨by simp [initial, Timer.initial], rfl⟩, rfl, .inl ⟨rfl, hall.tailEmpty, hall.covered⟩⟩

/-- A punctual step keeps the invariant when there is no QoS. -/
theorem step_timerInv {op : Op} (hqos : a.qosEnabled = false) (h : s.TimerInv)
    (hop : Punctual s op) (hstep : step a s op = some s') : s'.TimerInv := by
  cases op with
  | send packet => exact h.enter hqos hstep
  | flush => exact h.enter hqos hstep
  | timerFlush =>
    obtain ⟨-, hstep⟩ := Option.ite_none_right_eq_some.mp hstep
    obtain ⟨hfree, hstep⟩ := Option.ite_none_right_eq_some.mp hstep
    obtain rfl := Option.some.inj hstep
    have hnone : s.inside = [] := by simpa [hqos] using hfree
    -- the event is cleared, and the flush takes over
    rcases h.inside with ⟨-, htail, -⟩ | ⟨phase, hone, -⟩
    · exact ⟨⟨h.timer.armed_iff, h.timer.lock⟩, h.unlocked,
        .inr ⟨.entered none, by simp [hnone], htail⟩⟩
    · simp [hnone] at hone
  | advance j => exact h.advance hstep
  | complete k => exact h.complete hstep
  | purge => exact h.purge hstep
  | timerExpires =>
    obtain ⟨t, ht, rfl⟩ := Option.map_eq_some_iff.mp hstep
    obtain ⟨hvalid, hlive, hlock⟩ := h.timer.expires hop ht
    exact h.withTimer hvalid hlock fun _ => hlive
  | dpcStarts =>
    obtain ⟨t, ht, rfl⟩ := Option.map_eq_some_iff.mp hstep
    obtain ⟨hvalid, hlive, hlock⟩ := h.timer.dpcStarts ht
    exact h.withTimer hvalid hlock fun _ => hlive
  | dpcEnds =>
    obtain ⟨t, ht, rfl⟩ := Option.map_eq_some_iff.mp hstep
    obtain ⟨hvalid, hlive, hlock⟩ := h.timer.dpcEnds ht
    exact h.withTimer hvalid hlock hlive
  | haltCancels => exact absurd hop id
  | deleteLock => exact absurd hop id

/-- Outside `MPUSB_TLPTxPacketEx` no data is stranded. -/
theorem State.TimerInv.notStranded (h : s.TimerInv) (hnone : s.inside = []) : s.NotStranded := by
  rcases h.inside with ⟨-, htail, hcovered⟩ | ⟨phase, hone, -⟩
  · refine ⟨htail, fun item hitem hpos => ?_⟩
    rcases hcovered item hitem hpos with harmed | hqueued | hevent
    · exact .inl harmed
    · exact .inr (.inl (.inl hqueued))
    · exact .inr (.inr hevent)
  · simp [hnone] at hone

/-- In every punctual run without QoS no uplink data is stranded, and the remove lock is held for
what is to release it. -/
theorem uplink_notStranded (a : Adapter) (numItems : Nat) (hqos : a.qosEnabled = false)
    (ops : List Op)
    (hok : ∀ p ∈ (tlpMachine a).fires (.initial a numItems) ops, Punctual p.1 p.2) :
    ∀ s ∈ (tlpMachine a).visits (.initial a numItems) ops, s.inside = [] →
      s.NotStranded ∧ s.timer.acquired = s.timer.released + s.timer.outstanding := by
  have hstep : ∀ (s : State) op s' o, s.TimerInv → Punctual s op →
      tlpMachine a s op = some (s', o) → s'.TimerInv := by
    intro s op s' o h hop hs
    obtain ⟨t, ht, heq⟩ := Option.map_eq_some_iff.mp hs
    obtain ⟨rfl, -⟩ := Prod.mk.inj heq
    exact step_timerInv hqos h hop ht
  intro s hs hnone
  have h := Machine.visits_all_of_fires hstep (State.initial_timerInv a numItems) hok s hs
  have hlock := h.timer.lock
  refine ⟨h.notStranded hnone, ?_⟩
  unfold Timer.outstanding
  omega

/-- TLP without QoS. -/
def plainTlp : Adapter := ⟨.tlp, 0, 0, 100, true, false, 0, false, false, false⟩

/-- The calls that put one packet into the item at the head. -/
def sendOne : List Op :=
  [.send ⟨[1, 2, 3], false, 0⟩, .advance 0, .advance 0, .advance 0, .advance 0]

/-- Two packets stay, the timer expires, and the MP thread flushes them. -/
def sendTwoAndFlush : List Op :=
  sendOne ++ sendOne ++ [.timerExpires, .dpcStarts, .timerFlush, .advance 0, .dpcEnds, .advance 0,
    .advance 0, .complete 0]

theorem uplink_notStranded_flush :
    (∀ p ∈ (tlpMachine plainTlp).fires (.initial plainTlp 2) sendTwoAndFlush, Punctual p.1 p.2) ∧
      ∀ s ∈ (tlpMachine plainTlp).visits (.initial plainTlp 2) sendTwoAndFlush, s.inside = [] →
        s.NotStranded ∧ s.timer.acquired = s.timer.released + s.timer.outstanding := by
  have hok : ∀ p ∈ (tlpMachine plainTlp).fires (.initial plainTlp 2) sendTwoAndFlush,
      Punctual p.1 p.2 := by
    decide +kernel
  exact ⟨hok, uplink_notStranded plainTlp 2 rfl sendTwoAndFlush hok⟩

/-- The halt cancels the timer over data, and the timer is armed again before its DPC has run, when
the lock is held twice. -/
theorem uplink_notStranded_halt :
    (¬ ∀ (a : Adapter) (numItems : Nat) (ops : List Op),
      ∀ s ∈ (tlpMachine a).visits (.initial a numItems) ops, s.inside = [] → s.NotStranded) ∧
    ¬ ∀ (a : Adapter) (numItems : Nat) (ops : List Op),
      ∀ s ∈ (tlpMachine a).visits (.initial a numItems) ops, s.inside = [] →
        s.timer.acquired = s.timer.released +
          if s.timer.armed ∨ s.timer.dpcQueued ∨ 0 < s.timer.dpcRunning then 1 else 0 := by
  constructor
  · intro hall
    have hstranded : ∃ s ∈ (tlpMachine plainTlp).visits (.initial plainTlp 2)
        (sendOne ++ [.haltCancels]), s.inside = [] ∧
        ∃ item ∈ s.uplinkFreeBufferQueue, 0 < item.dataLength ∧
          ¬ (s.timer.armed ∨ (s.timer.dpcQueued ∨ 0 < s.timer.dpcRunning) ∨
            s.timer.txTimerEvent) := by decide +kernel
    obtain ⟨s, hs, hnone, item, hitem, hpos, hdead⟩ := hstranded
    exact hdead ((hall plainTlp 2 _ s hs hnone).flushed item hitem hpos)
  · intro hall
    have htwice : ∃ s ∈ (tlpMachine plainTlp).visits (.initial plainTlp 2)
        (sendOne ++ [.timerExpires] ++ sendOne), s.inside = [] ∧
        s.timer.acquired ≠ s.timer.released +
          if s.timer.armed ∨ s.timer.dpcQueued ∨ 0 < s.timer.dpcRunning then 1 else 0 := by
      decide +kernel
    obtain ⟨s, hs, hnone, hne⟩ := htwice
    exact hne (hall plainTlp 2 _ s hs hnone)

end Ndis.Tlp
