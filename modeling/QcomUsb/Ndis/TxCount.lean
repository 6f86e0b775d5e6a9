-- SUMMARY: The counter of unfinished sends in the aggregating modes: when it is right, and when a pause may return.
import QcomUsb.Ndis.TxLive

/-!
# Unfinished sends

`nBusyTx` goes up when a net buffer is queued and down in `MP_TxIRPCompleteEx`. The purges of the
flow-control lists decrement it once more, and `MPMAIN_CleanupTxQueues` sets it to zero.
-/

namespace Ndis.Tx

open Transition Places

/-- `nBusyTx` is the number of unfinished net buffers, and no pause returned with one unfinished. -/
structure State.Counted (s : State) : Prop where
  intact : s.intact = true
  count : s.nBusyTx = s.unfinished
  paused : ∀ n ∈ s.pauses, n = 0

/-- The purges find no packet held back, a clean-up ends with nothing unfinished, no packet is taken
for a list, the items are purged empty, and an entry that is given up has a neighbour that is still
pending, or had none. -/
def Op.Counts (quickTx : Bool) (s : State) : Op → Prop
  | .purgeQmap => s.qmapFlowControlList = []
  | .purgeFlow version => s.flowControlList version = []
  | .cleanupNext => s.txPendingList = [] → s.unfinished = 0
  | .processPendingTlpEx _ => s.txPendingList = []
  | .purgeTLP => ∀ item ∈ s.uplinkFreeBufferQueue, item.packetList = []
  | .fail => s.LinkHolds quickTx
  | _ => True

variable {s s' : State} {quickTx : Bool}

theorem Moves.counted {dropped : List Nb} (hm : Moves s s' dropped) (h : s.Counted) :
    s'.Counted where
  intact := hm.intact.trans h.intact
  count := by rw [hm.busy, unfinished_of_progress hm.progress, h.count]
  paused := hm.pauses ▸ h.paused

theorem Marks.counted {nb : Nb} (hm : Marks s s' nb) (h : s.Counted) : s'.Counted where
  intact := hm.intact.trans h.intact
  count := by rw [hm.busy, hm.unfinished, h.count]
  paused := hm.pauses ▸ h.paused

/-- A net buffer is finished and counted down once. -/
theorem Finishes.counted {nb : Nb} (hf : Finishes s s' nb) (hs : s.Sound) (h : s.Counted)
    (hbusy : s'.nBusyTx = s.nBusyTx - 1) : s'.Counted where
  intact := hf.intact.trans h.intact
  count := by
    have hone := hf.unfinished (hs.live_open nb hf.mem_live)
    have hcount := h.count
    omega
  paused := hf.pauses ▸ h.paused

/-- Counted down twice, the counter is wrong. -/
theorem Finishes.not_counted {nb : Nb} (hf : Finishes s s' nb) (hs : s.Sound) (h : s.Counted)
    (hbusy : s'.nBusyTx = s.nBusyTx - 2) : ¬ s'.Counted := by
  intro h'
  have hone := hf.unfinished (hs.live_open nb hf.mem_live)
  have hcount := h.count
  have hcount' := h'.count
  omega

theorem fail_counted (hs : s.Sound) (h : s.Counted) (hstep : s.fail quickTx = some s') :
    (s.LinkHolds quickTx → s'.Sound) ∧ (s'.Counted ↔ s.LinkHolds quickTx) := by
  have hgood (hlink : s.LinkHolds quickTx) := moves_fail hlink hstep
  refine ⟨fun hlink => (hgood hlink).sound hs, fun h' => ?_, fun hlink => (hgood hlink).counted h⟩
  intro hquick nb next item htx
  by_contra hmem
  have hbroken : s'.intact = false := by
    simp only [State.fail, htx, hquick, Bool.false_eq_true, if_false, State.removeEntryList,
      if_neg hmem, Option.some.injEq] at hstep
    rw [← hstep]
  exact Bool.false_ne_true (hbroken.symm.trans h'.intact)

theorem processPendingTlpEx_not_counted {ready : Bool} (hs : s.Sound) (h : s.Counted)
    (hstep : s.processPendingTlpEx ready = some s') :
    s.txPendingList ≠ [] ∧ ¬ s'.Counted := by
  unfold State.processPendingTlpEx at hstep
  split at hstep
  next nb rest _ hpending =>
    refine ⟨by simp [hpending], fun h' => ?_⟩
    cases ready with
    | true =>
      obtain rfl := Option.some.inj hstep
      exact Bool.false_ne_true h'.intact
    | false =>
      simp only [Bool.false_eq_true, if_false, Option.some.injEq] at hstep
      subst hstep
      have hmem : nb ∈ s.live := by simp [State.live, hpending]
      obtain ⟨c, b, hc, hb, hfinished⟩ := hs.live_open nb hmem
      have hnone : c.giveBack.nbContext.countP (! ·.finished) = 0 := by
        simp [TxContextNbl.giveBack]
      have hpos : 0 < c.nbContext.countP (! ·.finished) :=
        List.countP_pos_iff.mpr ⟨b, List.mem_of_getElem? hb, by simp [hfinished]⟩
      have hcount := h.count
      have hcount' := h'.count
      simp only [State.unfinished] at hcount hcount'
      rw [((modify_perm _ hc).map _).sum_eq, List.map_cons, List.sum_cons, hnone] at hcount'
      rw [((perm_cons_eraseIdx hc).map _).sum_eq, List.map_cons, List.sum_cons] at hcount
      push_cast at hcount hcount'
      omega
  next => cases hstep

theorem purgeTLP_counted (hs : s.Sound) (h : s.Counted) (hstep : s.purgeTLP = some s') :
    ((∀ item ∈ s.uplinkFreeBufferQueue, item.packetList = []) → s'.Sound) ∧
      (s'.Counted ↔ ∀ item ∈ s.uplinkFreeBufferQueue, item.packetList = []) := by
  have hgood (hempty : ∀ item ∈ s.uplinkFreeBufferQueue, item.packetList = []) :=
    moves_purgeTLP hempty hstep
  refine ⟨fun he => (hgood he).sound hs, fun h' => ?_, fun he => (hgood he).counted h⟩
  unfold State.purgeTLP at hstep
  split at hstep
  next =>
    split at hstep
    next hall => simpa using hall
    next =>
      obtain rfl := Option.some.inj hstep
      exact absurd h'.intact Bool.false_ne_true
  next => cases hstep

theorem cleanupNext_counted (hs : s.Sound) (h : s.Counted) (hstep : s.cleanupNext = some s') :
    s'.Sound ∧ (s'.Counted ↔ (s.txPendingList = [] → s.unfinished = 0)) := by
  unfold State.cleanupNext at hstep
  split at hstep
  next => cases hstep
  next nb rest _ hpending =>
    obtain rfl := Option.some.inj hstep
    have hf := finishes_pending hpending
    refine ⟨hf.sound hs, iff_of_true (hf.counted hs h rfl) fun hnil => ?_⟩
    simp [hpending] at hnil
  next hpending =>
    obtain rfl := Option.some.inj hstep
    refine ⟨⟨hs.nodup, hs.live_open⟩, fun h' _ => ?_, fun hnone => ?_⟩
    · have hzero : (0 : Int) = s.unfinished := h'.count
      exact_mod_cast hzero.symm
    · have hzero : (0 : Int) = s.unfinished := by
        rw [hnone hpending]
        rfl
      exact { h with count := hzero }

theorem send_counted (hs : s.Sound) (h : s.Counted) (cancelId : Nat) (canceld : Bool)
    (versions : List (Option IPVer)) (allocated : Bool) :
    (s.send cancelId canceld versions allocated).Sound ∧
      (s.send cancelId canceld versions allocated).Counted := by
  by_cases hsent : versions ≠ [] ∧ allocated = true
  · obtain ⟨hne, rfl⟩ := hsent
    refine ⟨hs.send cancelId canceld hne, ?_, ?_, ?_⟩
    · rw [s.send_eq cancelId canceld hne]
      exact h.intact
    · rw [unfinished_send s cancelId canceld hne, s.send_eq cancelId canceld hne]
      simp [h.count]
    · rw [s.send_eq cancelId canceld hne]
      exact h.paused
  · obtain ⟨hsound, hunfinished⟩ := hs.send_refused cancelId canceld hsent
    refine ⟨hsound, ?_, ?_, ?_⟩
    · rw [s.send_refused cancelId canceld hsent]
      exact h.intact
    · rw [hunfinished, s.send_refused cancelId canceld hsent]
      exact h.count
    · rw [s.send_refused cancelId canceld hsent]
      exact h.paused

theorem pauseReturns_counted (hs : s.Sound) (h : s.Counted) (hstep : s.pauseReturns = some s') :
    s'.Sound ∧ s'.Counted := by
  unfold State.pauseReturns at hstep
  split at hstep
  next => cases hstep
  next hidle =>
    obtain rfl := Option.some.inj hstep
    refine ⟨⟨hs.nodup, hs.live_open⟩, h.intact, h.count, ?_⟩
    refine List.forall_mem_cons.mpr ⟨?_, h.paused⟩
    have hcount := h.count
    omega

theorem step_counted {op : Op} (hs : s.Sound) (h : s.Counted)
    (hstep : s.step quickTx op = some s') :
    (op.Counts quickTx s → s'.Sound) ∧ (s'.Counted ↔ op.Counts quickTx s) := by
  have quiet {P : Prop} (hboth : s'.Sound ∧ s'.Counted) (hP : P) :
      (P → s'.Sound) ∧ (s'.Counted ↔ P) := ⟨fun _ => hboth.1, iff_of_true hboth.2 hP⟩
  have moved {dropped : List Nb} (hm : Moves s s' dropped) : s'.Sound ∧ s'.Counted :=
    ⟨hm.sound hs, hm.counted h⟩
  have finished {nb : Nb} (hf : Finishes s s' nb) (hbusy : s'.nBusyTx = s.nBusyTx - 1) :
      s'.Sound ∧ s'.Counted := ⟨hf.sound hs, hf.counted hs h hbusy⟩
  cases op with
  | send cancelId canceld versions allocated =>
    obtain rfl := Option.some.inj hstep
    exact quiet (send_counted hs h cancelId canceld versions allocated) trivial
  | take ready => exact quiet (moved (moves_take hstep)) trivial
  | flush => exact quiet (moved (moves_flush hstep)) trivial
  | takeItem => exact quiet (moved (moves_takeItem hstep)) trivial
  | mark =>
    obtain ⟨nb, -, -, -, hm⟩ := marks_mark hstep
    exact quiet ⟨hm.sound hs, hm.counted h⟩ trivial
  | accept stays => exact quiet (moved (moves_accept hstep)) trivial
  | fail => exact fail_counted hs h hstep
  | finish =>
    obtain ⟨nb, -, -, -, hf, hbusy⟩ := finishes_finish hstep
    exact quiet (finished hf hbusy) trivial
  | letGo => exact quiet (moved (moves_letGo hstep)) trivial
  | usbCompletes k => exact quiet (moved (moves_usbCompletes hstep)) trivial
  | completeNext k =>
    rcases completeNext_cases hstep with hm | ⟨-, nb, -, -, hf, hbusy⟩
    · exact quiet (moved hm) trivial
    · exact quiet (finished hf hbusy) trivial
  | cancelSend cancelId =>
    obtain rfl := Option.some.inj hstep
    exact quiet (moved (moves_cancelSend s cancelId)) trivial
  | cancelNext k =>
    rcases cancelNext_cases hstep with hm | ⟨nb, -, -, hf, hbusy⟩
    · exact quiet (moved hm) trivial
    · exact quiet (finished hf hbusy) trivial
  | processPendingTlpEx ready =>
    obtain ⟨hne, hwrong⟩ := processPendingTlpEx_not_counted hs h hstep
    exact ⟨fun hnil => absurd hnil hne, iff_of_false hwrong hne⟩
  | purgeQmap =>
    obtain ⟨nb, rest, hheld, hf, hbusy⟩ := finishes_purgeQmap hstep
    refine ⟨fun _ => hf.sound hs, iff_of_false (hf.not_counted hs h hbusy) fun hnil => ?_⟩
    exact List.cons_ne_nil nb rest (hheld.symm.trans hnil)
  | purgeFlow version =>
    obtain ⟨nb, rest, hheld, hf, hbusy⟩ := finishes_purgeFlow hstep
    refine ⟨fun _ => hf.sound hs, iff_of_false (hf.not_counted hs h hbusy) fun hnil => ?_⟩
    exact List.cons_ne_nil nb rest (hheld.symm.trans hnil)
  | cleanup =>
    simp only [State.step, State.cleanup] at hstep
    split at hstep
    · obtain rfl := Option.some.inj hstep
      exact quiet ⟨⟨hs.nodup, hs.live_open⟩, h.intact, h.count, h.paused⟩ trivial
    · cases hstep
  | cleanupNext =>
    obtain ⟨hsound, hiff⟩ := cleanupNext_counted hs h hstep
    exact ⟨fun _ => hsound, hiff⟩
  | purgeTLP => exact purgeTLP_counted hs h hstep
  | purgeTLPNext =>
    simp only [State.step, State.purgeTLPNext] at hstep
    split at hstep
    · cases hstep
    next nb rest _ hpending =>
      obtain rfl := Option.some.inj hstep
      exact quiet (finished (finishes_pending hpending) rfl) trivial
    · obtain rfl := Option.some.inj hstep
      exact quiet ⟨⟨hs.nodup, hs.live_open⟩, h.intact, h.count, h.paused⟩ trivial
  | qmapFlowControlCall flowControlled =>
    obtain rfl := Option.some.inj hstep
    exact quiet (moved (moves_qmapFlowControlCall s flowControlled)) trivial
  | flowControlCall version flowControlled =>
    obtain rfl := Option.some.inj hstep
    exact quiet (moved (moves_flowControlCall s version flowControlled)) trivial
  | mediaConnect =>
    obtain rfl := Option.some.inj hstep
    exact quiet ⟨⟨hs.nodup, hs.live_open⟩, h.intact, h.count, h.paused⟩ trivial
  | mediaDisconnect disconnectAll =>
    obtain rfl := Option.some.inj hstep
    exact quiet ⟨⟨hs.nodup, hs.live_open⟩, h.intact, h.count, h.paused⟩ trivial
  | pauseReturns => exact quiet (pauseReturns_counted hs h hstep) trivial

theorem start_sound (items : Nat) : (start items).Sound := by
  have hlive : (start items).live = [] := by
    simp [State.live, start, TxThread.nbs, List.flatMap_replicate]
  exact ⟨hlive ▸ List.nodup_nil, fun nb hnb => absurd (hlive ▸ hnb) List.not_mem_nil⟩

/-- The counter is right over a run exactly if every step meets its condition. -/
theorem txQueues_visits_counted (quickTx : Bool) (items : Nat) (ops : List Op) :
    (∀ s ∈ (txQueues quickTx).visits (start items) ops, s.Counted) ↔
      ∀ p ∈ (txQueues quickTx).fires (start items) ops, p.2.Counts quickTx p.1 := by
  have hkept : ∀ s op s' (o : Unit), State.Sound s → s.Counted → op.Counts quickTx s →
      txQueues quickTx s op = some (s', o) → s'.Sound := fun s op s' o hs h hop hstep =>
    (step_counted hs h (txQueues_step hstep)).1 hop
  have hiff : ∀ s op s' (o : Unit), State.Sound s → s.Counted →
      txQueues quickTx s op = some (s', o) → (s'.Counted ↔ op.Counts quickTx s) :=
    fun s op s' o hs h hstep => (step_counted hs h (txQueues_step hstep)).2
  refine Machine.visits_all_iff_fires_of_ok hkept hiff (start_sound items) ⟨rfl, rfl, ?_⟩
  exact fun n hn => absurd hn List.not_mem_nil

end Ndis.Tx
