-- SUMMARY: The aggregation with its timer and tasklet, and when it strands a datagram.
import QcomUsb.UsbNet.Aggregation.History

/-!
# The flush timer

Parked datagrams are flushed by a tasklet that an hrtimer schedules. The machine below
interleaves packets, timer expiries and tasklet runs. A packet that arrives while
nothing is running is stranded if its call gets no buffer, since only the exit that
waits for more frames starts the timer.
-/

namespace UsbNet

open GreedyFill Transition

/-- `cdc_ncm_tx_timer_cb`. The timer is not restarted. -/
def cdcNcmTxTimerCb (cfg : AggrCfg) (ctx : RmCdcNcmCtx) : RmCdcNcmCtx :=
  { ctx with txTimer := false, bh := ctx.bh || !cfg.stop }

/-- `cdc_ncm_txpath_bh`: wait another round, or flush through `usbnet_start_xmit`. -/
def cdcNcmTxpathBh (cfg : AggrCfg) (ctx : RmCdcNcmCtx) (alloc : Bool) :
    Option (RmCdcNcmCtx × Option SentSkb) :=
  if ctx.txTimerPending ≠ 0 then
    some (cdcNcmTxTimeoutStart cfg { ctx with txTimerPending := ctx.txTimerPending - 1 }, none)
  else (aggrTxFrame cfg ctx none alloc).map fun res => (res.ctx, res.skbOut)

inductive TxEvent where
  | xmit (skb : Packet) (alloc : Bool)
  | timerExpiry
  | tasklet (alloc : Bool)
  deriving DecidableEq, Repr

/-- The transition system. A timer that is not active does not expire, and a tasklet
that is not scheduled does not run. -/
def txStep (cfg : AggrCfg) : Machine RmCdcNcmCtx TxEvent (Option SentSkb)
  | ctx, .xmit skb alloc =>
    (aggrTxFrame cfg ctx (some skb) alloc).map fun res => (res.ctx, res.skbOut)
  | ctx, .timerExpiry => if ctx.txTimer then some (cdcNcmTxTimerCb cfg ctx, none) else none
  | ctx, .tasklet alloc =>
    if ctx.bh then cdcNcmTxpathBh cfg { ctx with bh := false } alloc else none

/-- The timer is armed or the tasklet is scheduled. -/
def RmCdcNcmCtx.Armed (ctx : RmCdcNcmCtx) : Prop := ctx.txTimer = true ∨ ctx.bh = true

instance (ctx : RmCdcNcmCtx) : Decidable ctx.Armed := inferInstanceAs (Decidable (_ ∨ _))

/-- A datagram waits only while something will flush it. -/
def NoStrand (ctx : RmCdcNcmCtx) : Prop :=
  ctx.currBytes ≠ [] ∨ ctx.txRemSkb.isSome → ctx.Armed

instance (ctx : RmCdcNcmCtx) : Decidable (NoStrand ctx) :=
  inferInstanceAs (Decidable (_ ∨ _ → _))

/-- The condition on a step. A packet that arrives while nothing is armed needs a slot
and a buffer, and so does a remaining packet that the tasklet flushes. -/
def FindsBuffer (cfg : AggrCfg) (ctx : RmCdcNcmCtx) : TxEvent → Prop
  | .xmit _ alloc =>
    ctx.Armed ∨ 0 < cfg.txMaxDatagrams.toNat ∧ (ctx.txCurrSkb.isSome ∨ alloc = true)
  | .timerExpiry => True
  | .tasklet alloc =>
    ctx.txTimerPending ≠ 0 ∨ ctx.txTimer = true ∨ ctx.txRemSkb = none ∨
      (ctx.txCurrSkb.isSome ∨ alloc = true)

/-- The packets that are sent: not empty, and not too long for a buffer. -/
def TxEvent.Admissible (cfg : AggrCfg) : TxEvent → Prop
  | .xmit skb _ => 1 ≤ skb.length ∧ skb.length ≤ cfg.txMax.toNat
  | _ => True

/-! ## What holds in every run -/

/-- The invariant of every run, stranding or not. -/
structure Sound (cfg : AggrCfg) (ctx : RmCdcNcmCtx) (cur : List Packet) : Prop where
  held : Buffered cfg ctx cur
  cur_ne : ∀ p ∈ cur, p ≠ []
  rem_ok : ∀ p ∈ ctx.txRemSkb, p ≠ [] ∧ p.length ≤ cfg.txMax.toNat
  rem : 0 < cfg.txMaxDatagrams.toNat → ctx.txCurrSkb.isSome → ctx.txRemSkb = none
  idle : cfg.txMaxDatagrams.toNat = 0 → ¬ ctx.Armed

namespace Sound

variable {cfg : AggrCfg} {ctx : RmCdcNcmCtx} {cur : List Packet}

theorem probe (cfg : AggrCfg) : Sound cfg .probe [] where
  held := .of_none rfl
  cur_ne := fun _ hp => nomatch hp
  rem_ok := fun _ hp => nomatch hp
  rem := fun _ _ => rfl
  idle := fun _ => by simp [RmCdcNcmCtx.Armed, RmCdcNcmCtx.probe]

theorem tidy (h : Sound cfg ctx cur) (hmax : 0 < cfg.txMaxDatagrams.toNat) : Tidy cfg ctx where
  rem := h.rem hmax
  fits := fun p hp => (h.rem_ok p hp).2

/-- The buffer has bytes if it has packets. -/
theorem currBytes (h : Sound cfg ctx cur) : ctx.currBytes = [] ↔ cur = [] := by
  rw [h.held.currBytes, List.flatten_eq_nil_iff]
  constructor
  · intro hall
    by_contra hne
    obtain ⟨p, hp⟩ := List.exists_mem_of_ne_nil cur hne
    exact h.cur_ne p hp (hall p hp)
  · rintro rfl
    simp

/-- The packets of a call's queue are as good as the ones in the context. -/
theorem queue_ok {skb : Option Packet} (h : Sound cfg ctx cur)
    (hskb : ∀ p ∈ skb, p ≠ [] ∧ p.length ≤ cfg.txMax.toNat) :
    ∀ p ∈ ctx.txRemSkb.toList ++ skb.toList, p ≠ [] ∧ p.length ≤ cfg.txMax.toNat := by
  intro p hp
  rcases List.mem_append.mp hp with hp | hp
  · exact h.rem_ok p (by simpa using hp)
  · exact hskb p (by simpa using hp)

/-- A call never stops the timer, and without slots it does not start it. -/
theorem ending_timer {timer ready : Bool} {cur : List Packet} {res : AggrResult}
    (h : Ending cfg timer cur ready res) :
    (timer = true → res.ctx.txTimer = true) ∧ (cur = [] → res.ctx.txTimer = timer) := by
  cases h with
  | park _ _ idle => exact ⟨fun ht => idle.trans ht, fun _ => idle⟩
  | wait nonempty _ _ _ _ armed =>
    refine ⟨fun ht => ?_, fun hnil => absurd hnil nonempty⟩
    rw [armed, ht, Bool.true_or]
  | send nonempty _ _ _ idle => exact ⟨fun ht => idle.trans ht, fun hnil => absurd hnil nonempty⟩

/-- Every call keeps the invariant. -/
theorem call {skb : Option Packet} {alloc : Bool} {res : AggrResult} (h : Sound cfg ctx cur)
    (hskb : ∀ p ∈ skb, p ≠ [] ∧ p.length ≤ cfg.txMax.toNat) (hbh : res.ctx.bh = ctx.bh)
    (hspec : CallSpec cfg ctx cur (ctx.txRemSkb.toList ++ skb.toList) skb.isNone alloc res) :
    ∃ cur', Sound cfg res.ctx cur' := by
  have hqueue := h.queue_ok hskb
  rcases hspec with ⟨-, -, habort⟩ | ⟨-, taken, rest, hp⟩
  · refine ⟨[], .of_none habort.buf, List.forall_mem_nil _, ?_, ?_, ?_⟩
    · intro p hp
      rw [habort.rem] at hp
      exact hqueue p ((leftover_sublist 0 _).subset (by simpa using hp))
    · intro _ hsome
      rw [habort.buf] at hsome
      cases hsome
    · intro hmax
      rw [RmCdcNcmCtx.Armed, habort.timer, hbh]
      exact h.idle hmax
  · obtain ⟨ready, -, hend⟩ := hp.ending
    have htaken : ∀ p ∈ cur ++ taken, p ≠ [] := by
      intro p hmem
      rcases List.mem_append.mp hmem with hmem | hmem
      · exact h.cur_ne p hmem
      · exact (hqueue p (hp.cut ▸ List.mem_append_left _ hmem)).1
    have hrem : ∀ p ∈ res.ctx.txRemSkb, p ≠ [] ∧ p.length ≤ cfg.txMax.toNat := by
      intro p hmem
      rw [hp.rem] at hmem
      have : p ∈ rest := (leftover_sublist _ rest).subset (by simpa using hmem)
      exact hqueue p (hp.cut ▸ List.mem_append_right _ this)
    have htidy (hmax : 0 < cfg.txMaxDatagrams.toNat) : Tidy cfg res.ctx :=
      (hp.conserves (h.tidy hmax) h.held hmax fun p hmem => (hskb p hmem).2).2.2
    have hidle : cfg.txMaxDatagrams.toNat = 0 → ¬ res.ctx.Armed := by
      intro hmax
      have hcur : cur = [] := by
        rcases h.held.slot with hnil | hlt
        · exact hnil
        · omega
      have hnone : taken = [] := by
        have hle := hp.taken_le
        simp only [AggrCfg.slots, hmax, Nat.zero_sub, Nat.le_zero] at hle
        exact List.eq_nil_of_length_eq_zero hle
      rw [RmCdcNcmCtx.Armed, (ending_timer hend).2 (by simp [hcur, hnone]), hbh]
      exact h.idle hmax
    rcases hend.next with ⟨-, hbuf⟩ | ⟨-, hbuf, -, -⟩
    · exact ⟨_, hbuf, htaken, hrem, fun hmax => (htidy hmax).rem, hidle⟩
    · exact ⟨_, hbuf, List.forall_mem_nil _, hrem, fun hmax => (htidy hmax).rem, hidle⟩

/-- The fields the timer changes are none of the aggregation's. -/
theorem timing {ctx' : RmCdcNcmCtx} (h : Sound cfg ctx cur)
    (hcurr : ctx'.txCurrSkb = ctx.txCurrSkb) (hrem : ctx'.txRemSkb = ctx.txRemSkb)
    (hnum : ctx'.txCurrFrameNum = ctx.txCurrFrameNum) (hsize : ctx'.txCurrSize = ctx.txCurrSize)
    (hpayload : ctx'.txCurrFramePayload = ctx.txCurrFramePayload)
    (hidle : cfg.txMaxDatagrams.toNat = 0 → ¬ ctx'.Armed) : Sound cfg ctx' cur where
  held := by
    refine ⟨fun hnone => h.held.fresh (hcurr ▸ hnone), fun skbOut hsome => ?_, h.held.slot⟩
    rw [hnum, hsize, hpayload]
    exact h.held.filled skbOut (hcurr ▸ hsome)
  cur_ne := h.cur_ne
  rem_ok := hrem ▸ h.rem_ok
  rem := by rw [hcurr, hrem]; exact h.rem
  idle := hidle

end Sound

/-! ## One step -/

section

variable {cfg : AggrCfg} {ctx : RmCdcNcmCtx} {cur : List Packet}

theorem NoStrand.of_armed (h : ctx.Armed) : NoStrand ctx := fun _ => h

theorem NoStrand.of_empty (hcurr : ctx.currBytes = []) (hrem : ctx.txRemSkb = none) :
    NoStrand ctx := by
  rintro (hne | hsome)
  · exact absurd hcurr hne
  · rw [hrem] at hsome
    cases hsome

/-- With nothing armed, a state that strands nothing holds nothing. -/
theorem NoStrand.empty (h : NoStrand ctx) (hidle : ¬ ctx.Armed) :
    ctx.currBytes = [] ∧ ctx.txRemSkb = none := by
  constructor
  · by_contra hne
    exact hidle (h (.inl hne))
  · by_contra hne
    exact hidle (h (.inr (Option.isSome_iff_ne_none.mpr hne)))

theorem Buffered.currBytes_none (h : ctx.txCurrSkb = none) : ctx.currBytes = [] := by
  simp [RmCdcNcmCtx.currBytes, h]

/-- A packet that finds room in an empty buffer is taken, and nothing is left. -/
theorem pack_single {skb : Packet} (h : Buffered cfg ctx [])
    (hmax : 0 < cfg.txMaxDatagrams.toNat) (hskb : skb.length ≤ cfg.txMax.toNat) :
    pack (ctx.room cfg) (cfg.slots []) [skb] = ([skb], []) := by
  obtain ⟨slots, hslots⟩ : ∃ slots, cfg.slots [] = slots + 1 :=
    Nat.exists_eq_add_one.mpr (h.slots_pos hmax)
  rw [hslots, h.room_empty, pack, fill_fits hskb, fill_nil]

/-- A packet is stranded exactly if nothing is armed and its call has no slot or gets no
buffer. -/
theorem xmit_noStrand {skb : Packet} {alloc : Bool} {res : AggrResult} (h : Sound cfg ctx cur)
    (hg : NoStrand ctx) (hstop : cfg.stop = false) (hskb : skb.length ≤ cfg.txMax.toNat)
    (hbh : res.ctx.bh = ctx.bh)
    (hspec : CallSpec cfg ctx cur (ctx.txRemSkb.toList ++ [skb]) false alloc res) :
    NoStrand res.ctx ↔ FindsBuffer cfg ctx (.xmit skb alloc) := by
  by_cases harmed : ctx.Armed
  · -- a call stops neither the timer nor the tasklet
    have harmed' : res.ctx.Armed := by
      rcases harmed with ht | hb
      · rcases hspec with ⟨-, -, habort⟩ | ⟨-, taken, rest, hp⟩
        · exact .inl (habort.timer.trans ht)
        · obtain ⟨ready, -, hend⟩ := hp.ending
          exact .inl ((Sound.ending_timer hend).1 ht)
      · exact .inr (hbh.trans hb)
    exact iff_of_true (.of_armed harmed') (.inl harmed)
  · obtain ⟨hbytes, hrem⟩ := hg.empty harmed
    obtain rfl : cur = [] := h.currBytes.mp hbytes
    have hidle (ht : res.ctx.txTimer = ctx.txTimer) : ¬ res.ctx.Armed := by
      rwa [RmCdcNcmCtx.Armed, ht, hbh]
    have hlost (hr : res.ctx.txRemSkb = some skb) (ht : res.ctx.txTimer = ctx.txTimer) :
        ¬ NoStrand res.ctx := fun hgood => by
      have := (hgood.empty (hidle ht)).2
      rw [hr] at this
      cases this
    rw [hrem] at hspec
    rcases hspec with ⟨hnone, hfail, habort⟩ | ⟨hbuf, taken, rest, hp⟩
    · -- no buffer: the packet remains
      refine iff_of_false (hlost habort.rem habort.timer) ?_
      rintro (harm | ⟨-, hsome | halloc⟩)
      · exact harmed harm
      · rw [hnone] at hsome
        cases hsome
      · rw [hfail] at halloc
        cases halloc
    · obtain ⟨ready, -, hend⟩ := hp.ending
      rcases Nat.eq_zero_or_pos cfg.txMaxDatagrams.toNat with hmax | hmax
      · -- no slot: the packet remains
        have hslots : cfg.slots [] = 0 := by simp [AggrCfg.slots, hmax]
        have hpacked := hp.packed
        rw [hslots, pack, fill_no_slots] at hpacked
        cases hpacked
        have hr : res.ctx.txRemSkb = some skb := by
          rw [hp.rem, hslots]
          rfl
        refine iff_of_false (hlost hr ((Sound.ending_timer hend).2 rfl)) ?_
        rintro (harm | ⟨hpos, -⟩)
        · exact harmed harm
        · omega
      · -- the packet goes into the buffer, and the timer starts or the buffer is sent
        have hpacked := hp.packed
        rw [Option.toList_none, List.nil_append, pack_single h.held hmax hskb] at hpacked
        cases hpacked
        refine iff_of_true ?_ (.inr ⟨hmax, hbuf⟩)
        cases hend with
        | park empty => cases empty
        | wait _ _ _ _ _ armed =>
          refine .of_armed (.inl ?_)
          rw [armed, hstop, Bool.not_false, Bool.or_true]
        | send _ _ _ _ _ buf =>
          refine .of_empty (Buffered.currBytes_none buf) ?_
          rw [hp.rem, leftover]
          split <;> rfl

/-- A flush that has a buffer leaves nothing behind. -/
theorem flush_empties {timer : Bool} {res : AggrResult} {taken rest : List Packet}
    (h : Sound cfg ctx cur) (hmax : 0 < cfg.txMaxDatagrams.toNat)
    (hp : Packed cfg timer (ctx.room cfg) cur (ctx.txRemSkb.toList ++ (none : Option Packet).toList)
      true res taken rest) : NoStrand res.ctx := by
  have hnil : ∀ p ∈ (none : Option Packet), p.length ≤ cfg.txMax.toNat := fun _ hp => nomatch hp
  obtain ⟨hqueue, -, htidy⟩ := hp.conserves (h.tidy hmax) h.held hmax hnil
  rw [Option.toList_none, List.append_nil] at hqueue
  obtain ⟨ready, hready, hend⟩ := hp.ending
  cases hend with
  | park _ _ _ buf held => exact .of_empty held.currBytes (htidy.rem buf)
  | wait _ _ notReady =>
    rw [notReady] at hready
    exact absurd (hready.mpr (.inl rfl)) Bool.false_ne_true
  | send nonempty _ _ _ _ buf =>
    refine .of_empty (Buffered.currBytes_none buf) ?_
    cases hr : ctx.txRemSkb with
    | none =>
      have := congrArg List.length hqueue
      simp only [hr, Option.toList_none, List.length_nil, List.length_append] at this
      rw [← Option.toList_eq_nil_iff]
      exact List.eq_nil_of_length_eq_zero (by omega)
    | some skb =>
      -- the remaining packet found an empty buffer, so it is the one taken
      have hcur : cur = [] := by
        refine h.held.fresh ?_
        by_contra hne
        rw [h.rem hmax (Option.isSome_iff_ne_none.mpr hne)] at hr
        cases hr
      have htaken : 0 < taken.length := by
        rw [hcur, List.nil_append] at nonempty
        exact List.length_pos_iff.mpr nonempty
      have := congrArg List.length hqueue
      simp only [hr, Option.toList_some, List.length_cons, List.length_nil,
        List.length_append] at this
      rw [← Option.toList_eq_nil_iff]
      exact List.eq_nil_of_length_eq_zero (by omega)

/-- A flush while the tasklet runs strands a packet exactly if the timer is idle, a packet
remains, and there is no buffer for it. -/
theorem flush_noStrand {alloc : Bool} {res : AggrResult} (h : Sound cfg ctx cur)
    (hmax : 0 < cfg.txMaxDatagrams.toNat) (hidle : ctx.bh = false) (hbh : res.ctx.bh = ctx.bh)
    (hspec : CallSpec cfg ctx cur (ctx.txRemSkb.toList ++ (none : Option Packet).toList) true alloc
      res) :
    NoStrand res.ctx ↔ ctx.txTimer = true ∨ ctx.txRemSkb = none ∨
      (ctx.txCurrSkb.isSome ∨ alloc = true) := by
  rcases hspec with ⟨hnone, hfail, habort⟩ | ⟨hbuf, taken, rest, hp⟩
  · have hrem : res.ctx.txRemSkb = ctx.txRemSkb := by
      rw [habort.rem, Option.toList_none, List.append_nil]
      cases ctx.txRemSkb <;> rfl
    constructor
    · intro hgood
      by_contra hbad
      simp only [not_or] at hbad
      have hquiet : ¬ res.ctx.Armed := by
        rw [RmCdcNcmCtx.Armed, habort.timer, hbh, hidle]
        simp [hbad.1]
      have := (hgood.empty hquiet).2
      exact hbad.2.1 (hrem ▸ this)
    · rintro (ht | hr | hsome | halloc)
      · exact .of_armed (.inl (habort.timer.trans ht))
      · exact .of_empty (Buffered.currBytes_none habort.buf) (hrem.trans hr)
      · rw [hnone] at hsome
        cases hsome
      · rw [hfail] at halloc
        cases halloc
  · exact iff_of_true (flush_empties h hmax hp) (.inr (.inr hbuf))

/-- What one step does to the invariant, and when it strands a datagram. -/
theorem txStep_spec {ev : TxEvent} {ctx' : RmCdcNcmCtx} {out : Option SentSkb}
    (h : Sound cfg ctx cur) (hstop : cfg.stop = false) (hev : ev.Admissible cfg)
    (hstep : txStep cfg ctx ev = some (ctx', out)) :
    (∃ cur', Sound cfg ctx' cur') ∧
      (NoStrand ctx → (NoStrand ctx' ↔ FindsBuffer cfg ctx ev)) := by
  cases ev with
  | xmit skb alloc =>
    obtain ⟨hpos, hle⟩ := hev
    obtain ⟨res, hres, hbh, hspec⟩ := aggrTxFrame_spec (some skb) alloc h.held
    rw [txStep, hres] at hstep
    cases hstep
    have hskb : ∀ p ∈ some skb, p ≠ [] ∧ p.length ≤ cfg.txMax.toNat := by
      rintro p ⟨rfl⟩
      exact ⟨List.length_pos_iff.mp hpos, hle⟩
    exact ⟨h.call hskb hbh hspec, fun hg => xmit_noStrand h hg hstop hle hbh hspec⟩
  | timerExpiry =>
    by_cases ht : ctx.txTimer = true
    · rw [txStep, if_pos ht] at hstep
      cases hstep
      have harmed : (cdcNcmTxTimerCb cfg ctx).Armed := by
        refine .inr ?_
        rw [cdcNcmTxTimerCb, hstop, Bool.not_false, Bool.or_true]
      have hidle : cfg.txMaxDatagrams.toNat = 0 → ¬ (cdcNcmTxTimerCb cfg ctx).Armed :=
        fun hmax => absurd (.inl ht) (h.idle hmax)
      exact ⟨⟨cur, h.timing rfl rfl rfl rfl rfl hidle⟩,
        fun _ => iff_of_true (.of_armed harmed) trivial⟩
    · rw [txStep, if_neg ht] at hstep
      cases hstep
  | tasklet alloc =>
    by_cases hb : ctx.bh = true
    · have hmax : 0 < cfg.txMaxDatagrams.toNat := by
        rcases Nat.eq_zero_or_pos cfg.txMaxDatagrams.toNat with hz | hpos
        · exact absurd (.inr hb) (h.idle hz)
        · exact hpos
      rw [txStep, if_pos hb, cdcNcmTxpathBh] at hstep
      by_cases hpending : ctx.txTimerPending ≠ 0
      · rw [if_pos hpending, cdcNcmTxTimeoutStart_eq] at hstep
        cases hstep
        refine ⟨⟨cur, h.timing rfl rfl rfl rfl rfl fun hz => by omega⟩, fun _ => ?_⟩
        refine iff_of_true (.of_armed (.inl ?_)) (.inl hpending)
        simp [hstop]
      · rw [if_neg hpending] at hstep
        have hrun : Sound cfg { ctx with bh := false } cur :=
          h.timing rfl rfl rfl rfl rfl fun hz => by omega
        obtain ⟨res, hres, hbh, hspec⟩ := aggrTxFrame_spec none alloc hrun.held
        rw [hres] at hstep
        cases hstep
        have hnone : ∀ p ∈ (none : Option Packet), p ≠ [] ∧ p.length ≤ cfg.txMax.toNat :=
          fun _ hp => nomatch hp
        refine ⟨hrun.call hnone hbh hspec, fun _ => ?_⟩
        rw [flush_noStrand hrun hmax rfl hbh hspec]
        exact ⟨.inr, fun hok => hok.resolve_left hpending⟩
    · rw [txStep, if_neg hb] at hstep
      cases hstep

end

/-! ## Runs -/

/-- A run from the context of the probe never strands a datagram exactly if every packet
that arrives while nothing is armed, and every remaining packet that is flushed, finds a
buffer. -/
theorem noStrand_iff_findsBuffer (cfg : AggrCfg) (hstop : cfg.stop = false)
    (evs : List TxEvent) (hevs : ∀ ev ∈ evs, ev.Admissible cfg) :
    (∀ ctx ∈ (txStep cfg).visits .probe evs, NoStrand ctx) ↔
      ∀ p ∈ (txStep cfg).fires .probe evs, FindsBuffer cfg p.1 p.2 := by
  have haux : ∀ ctx ev ctx' out, (∃ cur, Sound cfg ctx cur) → ev.Admissible cfg →
      txStep cfg ctx ev = some (ctx', out) → ∃ cur, Sound cfg ctx' cur := by
    rintro ctx ev ctx' out ⟨cur, h⟩ hev hstep
    exact (txStep_spec h hstop hev hstep).1
  have hok : ∀ ctx ev ctx' out, (∃ cur, Sound cfg ctx cur) → NoStrand ctx → ev.Admissible cfg →
      txStep cfg ctx ev = some (ctx', out) → (NoStrand ctx' ↔ FindsBuffer cfg ctx ev) := by
    rintro ctx ev ctx' out ⟨cur, h⟩ hg hev hstep
    exact (txStep_spec h hstop hev hstep).2 hg
  have hprobe : NoStrand .probe := .of_empty rfl rfl
  exact Machine.visits_all_iff_fires haux hok ⟨[], Sound.probe cfg⟩ hprobe hevs

theorem noStrand_iff_findsBuffer_flush :
    (∀ ctx ∈ (txStep ⟨16, 2, 1, false⟩).visits .probe
        [.xmit [0] true, .timerExpiry, .tasklet true], NoStrand ctx) ↔
      ∀ p ∈ (txStep ⟨16, 2, 1, false⟩).fires .probe
        [.xmit [0] true, .timerExpiry, .tasklet true], FindsBuffer ⟨16, 2, 1, false⟩ p.1 p.2 :=
  noStrand_iff_findsBuffer _ rfl _ (by simp [TxEvent.Admissible])

/-- The first packet after the probe is stranded if `alloc_skb` fails for it. -/
theorem xmit_strands_without_buffer :
    ¬ ∀ (cfg : AggrCfg) (evs : List TxEvent), cfg.stop = false → cfg.timerInterval > 0 →
      (∀ ev ∈ evs, ev.Admissible cfg) →
      ∀ ctx ∈ (txStep cfg).visits .probe evs, NoStrand ctx := by
  intro hall
  have hbad := hall ⟨0x7C00, 0x20, 2000000, false⟩ [.xmit (txFrame (.mpNetDev, [0x45])) false] rfl
    (by decide) (by simp [TxEvent.Admissible, QmapHdr.size, paddingCount])
  revert hbad
  decide

end UsbNet
