-- SUMMARY: Which packets aggr_tx_frame frees without having copied them, in every context it can be called in.
import QcomUsb.UsbNet.Aggregation.History

/-!
# Oversized packets

A packet that fits the buffer is to reach an output buffer. `aggrFreed` follows a call of
`aggr_tx_frame` and gathers the packets it frees without having copied them. Between two
calls a packet remains only next to an empty buffer, so the outcome of a call depends on
the remaining packet and the new one alone.
-/

namespace UsbNet

open GreedyFill Transition

/-! ## The freed packets -/

/-- The packets the loop and the exit behind it free uncopied. -/
def aggrLoopFreed : Nat → AggrVars → List Packet
  -- free up any dangling skb
  | 0, v => v.skb.toList
  | slots + 1, v =>
    let v := v.takeUp
    match v.skb with
    | none => []
    | some skb =>
      -- the packet without room takes the place of the one that is stored
      if v.txCurrSize < skb.length then v.txRemSkb.toList
      else
        match skbPut v.skbOut skb with
        | none => []
        | some skbOut => aggrLoopFreed slots (v.count skb skbOut)

/-- The packets `aggrFrames` frees uncopied. -/
def aggrFramesFreed (cfg : AggrCfg) (ctx : RmCdcNcmCtx) (skb : Option Packet) (ready2send : Bool)
    (skbOut : SkBuff) : List Packet :=
  aggrLoopFreed (cfg.txMaxDatagrams.toNat - ctx.txCurrFrameNum)
    { skb := skb
      txRemSkb := ctx.txRemSkb
      skbOut := skbOut
      txCurrSize := ctx.txCurrSize
      txCurrFramePayload := ctx.txCurrFramePayload
      n := ctx.txCurrFrameNum
      ready2send := ready2send
      txDropped := 0 }

/-- The packets `aggrResume` frees uncopied. -/
def aggrResumeFreed (cfg : AggrCfg) (ctx : RmCdcNcmCtx) (skb : Option Packet)
    (ready2send alloc : Bool) : List Packet :=
  match ctx.txCurrSkb with
  | some skbOut => aggrFramesFreed cfg ctx skb ready2send skbOut
  | none =>
    let ctx := { ctx with txCurrSize := cfg.txMax.toNat }
    if alloc then
      aggrFramesFreed cfg { ctx with txCurrFrameNum := 0, txCurrFramePayload := 0 } skb ready2send
        (allocSkb ctx.txCurrSize)
    else skb.toList

/-- The packets a call of `aggr_tx_frame` frees uncopied. -/
def aggrFreed (cfg : AggrCfg) (ctx : RmCdcNcmCtx) (skb : Option Packet) (alloc : Bool) :
    List Packet :=
  match skb with
  | some p => aggrResumeFreed cfg { ctx with txRemSkb := some p } ctx.txRemSkb false alloc
  | none => aggrResumeFreed cfg ctx none true alloc

/-- The loop frees what it leaves behind the first packet that found no room. Without a
turn the exit frees the older packet. -/
theorem aggrLoopFreed_eq {txMax slots : Nat} {v : AggrVars} {cur : List Packet}
    (h : Filled txMax v.skbOut v.txCurrSize v.txCurrFramePayload v.n cur) :
    aggrLoopFreed slots v =
      if slots = 0 then v.skb.toList else (pack v.txCurrSize slots v.queue).2.tail := by
  induction slots generalizing v cur with
  | zero => rfl
  | succ slots ih =>
    rw [aggrLoopFreed, if_neg (Nat.succ_ne_zero slots)]
    cases hq : v.queue with
    | nil =>
      obtain ⟨htake, hskb, -⟩ := AggrVars.takeUp_nil hq
      simp [htake, hskb]
    | cons x rest =>
      obtain ⟨htake, hrest⟩ := AggrVars.takeUp_cons hq
      simp only [htake]
      have hone : rest.head?.toList = rest := by
        rw [← List.take_one, List.take_of_length_le hrest]
      rcases Nat.lt_or_ge v.txCurrSize x.length with hno | hfit
      · rw [if_pos hno, pack, fill_no_room hno]
        exact hone
      · obtain ⟨skbOut', hput, hfilled⟩ := h.put hfit
        simp only [Nat.not_lt.mpr hfit, if_false, hput]
        have hpack : (pack v.txCurrSize (slots + 1) (x :: rest)).2 =
            (pack (v.txCurrSize - x.length) slots rest).2 := by
          rw [pack, fill_fits hfit]
        rw [ih (v := AggrVars.count { v with skb := some x, txRemSkb := rest.head? } x skbOut')
          hfilled, hpack]
        simp only [AggrVars.count_skb, AggrVars.count_queue, AggrVars.count_txCurrSize, hone]
        split
        · next hs =>
          -- the last slot is taken, and at most one packet is left
          rw [hs, pack, fill_no_slots]
          have hnil : rest.tail = [] := List.drop_one ▸ List.drop_eq_nil_of_le hrest
          exact hnil.symm
        · rfl

/-! ## One call -/

section

variable {cfg : AggrCfg} {ctx : RmCdcNcmCtx} {cur : List Packet}

/-- What a call frees that has a buffer. -/
theorem aggrResumeFreed_eq (h : Buffered cfg ctx cur) (skb : Option Packet) (ready2send : Bool) :
    aggrResumeFreed cfg ctx skb ready2send true =
      if cfg.slots cur = 0 then skb.toList
      else (pack (ctx.room cfg) (cfg.slots cur) (skb.toList ++ ctx.txRemSkb.toList)).2.tail := by
  unfold aggrResumeFreed
  cases hcurr : ctx.txCurrSkb with
  | some skbOut =>
    have hfilled := h.filled skbOut hcurr
    have hroom : ctx.room cfg = ctx.txCurrSize := by simp [RmCdcNcmCtx.room, hcurr]
    have hslots : cfg.txMaxDatagrams.toNat - ctx.txCurrFrameNum = cfg.slots cur := by
      rw [AggrCfg.slots, hfilled.count]
    simp only [aggrFramesFreed, hslots, hroom]
    exact aggrLoopFreed_eq hfilled
  | none =>
    obtain rfl : cur = [] := h.fresh hcurr
    have hroom : ctx.room cfg = cfg.txMax.toNat := by simp [RmCdcNcmCtx.room, hcurr]
    simp only [aggrFramesFreed, hroom, if_true]
    exact aggrLoopFreed_eq (Filled.alloc cfg.txMax.toNat)

/-- A queue of one packet loses none. -/
theorem pack_rest_tail_nil {room slots : Nat} {queue : List Packet} (h : queue.length ≤ 1) :
    (pack room slots queue).2.tail = [] := by
  have happend : (pack room slots queue).1.length + (pack room slots queue).2.length =
      queue.length := by
    rw [← List.length_append, fill_append]
  apply List.eq_nil_of_length_eq_zero
  rw [List.length_tail]
  omega

/-- The new packet and the remaining one do not stand in each other's way: a remaining
packet that never fits does not meet one that does. Where no datagram is allowed, every
remaining packet has to make room. -/
def Unobstructed (cfg : AggrCfg) (ctx : RmCdcNcmCtx) (skb : Option Packet) : Prop :=
  ∀ p ∈ skb, ∀ q ∈ ctx.txRemSkb,
    if cfg.txMaxDatagrams.toNat = 0 then cfg.txMax.toNat < q.length
    else p.length ≤ cfg.txMax.toNat → q.length ≤ cfg.txMax.toNat

/-- A call with a buffer frees only packets that never fit exactly if the two packets it
meets do not obstruct each other. -/
theorem aggrFreed_oversized_iff (h : Buffered cfg ctx cur) (hrem : ctx.txRemSkb.isSome → cur = [])
    (skb : Option Packet) :
    (∀ x ∈ aggrFreed cfg ctx skb true, cfg.txMax.toNat < x.length) ↔
      Unobstructed cfg ctx skb := by
  cases skb with
  | none =>
    have hnone : aggrFreed cfg ctx none true = [] := by
      rw [aggrFreed, aggrResumeFreed_eq h none true]
      split
      · rfl
      · apply pack_rest_tail_nil
        cases ctx.txRemSkb <;> simp
    simp [hnone, Unobstructed]
  | some p =>
    have hswapped : Buffered cfg { ctx with txRemSkb := some p } cur := ⟨h.fresh, h.filled, h.slot⟩
    rw [aggrFreed, aggrResumeFreed_eq hswapped ctx.txRemSkb false]
    cases hq : ctx.txRemSkb with
    | none =>
      have hclear : Unobstructed cfg ctx (some p) := by simp [Unobstructed, hq]
      refine iff_of_true ?_ hclear
      split
      · simp
      · rw [pack_rest_tail_nil (by simp)]
        simp
    | some q =>
      obtain rfl : cur = [] := hrem (by simp [hq])
      have hroom : RmCdcNcmCtx.room cfg { ctx with txRemSkb := some p } = cfg.txMax.toNat :=
        hswapped.room_empty
      have hslots : cfg.slots [] = cfg.txMaxDatagrams.toNat := rfl
      have hcond : Unobstructed cfg ctx (some p) ↔
          if cfg.txMaxDatagrams.toNat = 0 then cfg.txMax.toNat < q.length
          else p.length ≤ cfg.txMax.toNat → q.length ≤ cfg.txMax.toNat := by
        simp [Unobstructed, hq]
      rw [hroom, hslots, hcond]
      cases hmax : cfg.txMaxDatagrams.toNat with
      | zero => simp
      | succ slots =>
        rw [if_neg (Nat.succ_ne_zero slots), if_neg (Nat.succ_ne_zero slots)]
        simp only [Option.toList_some, List.cons_append, List.nil_append]
        rcases Nat.lt_or_ge cfg.txMax.toNat q.length with hno | hfit
        · rw [pack, fill_no_room hno]
          simp only [List.tail_cons, List.mem_singleton, forall_eq]
          omega
        · have hone : (pack cfg.txMax.toNat (slots + 1) [q, p]).2.tail = [] := by
            rw [pack, fill_fits hfit]
            exact pack_rest_tail_nil (by simp)
          simp [hone, hfit]

end

/-! ## Every context -/

/-- A packet remains only next to an empty buffer. -/
def Parked (cfg : AggrCfg) (ctx : RmCdcNcmCtx) : Prop :=
  ∃ cur, Buffered cfg ctx cur ∧ (ctx.txRemSkb.isSome → cur = [])

theorem Parked.step {cfg : AggrCfg} {ctx ctx' : RmCdcNcmCtx} {call : TxCall} {res : AggrResult}
    (h : Parked cfg ctx) (hstep : aggrStep cfg ctx call = some (ctx', res)) : Parked cfg ctx' := by
  obtain ⟨cur, hheld, -⟩ := h
  obtain ⟨res', hres, -, hspec⟩ := aggrTxFrame_spec call.skb call.alloc hheld
  rw [aggrStep, hres, Option.map_some, Option.some.injEq, Prod.mk.injEq] at hstep
  obtain ⟨rfl, rfl⟩ := hstep
  rcases hspec with ⟨-, -, habort⟩ | ⟨-, taken, rest, hp⟩
  · exact ⟨[], .of_none habort.buf, fun _ => rfl⟩
  · obtain ⟨ready, hready, hend⟩ := hp.ending
    cases hend with
    | park _ _ _ _ held => exact ⟨[], held, fun _ => rfl⟩
    | send _ _ _ _ _ buf => exact ⟨[], .of_none buf, fun _ => rfl⟩
    | wait _ slot notReady _ _ _ _ held =>
      refine ⟨cur ++ taken, held, fun hsome => ?_⟩
      -- a packet that found no room would have sent the buffer
      have hfree : taken.length < cfg.slots cur := by
        rw [List.length_append] at slot
        unfold AggrCfg.slots
        omega
      have hrest : rest = [] := by
        by_contra hne
        rw [notReady] at hready
        exact absurd (hready.mpr (.inr ⟨hfree, hne⟩)) Bool.false_ne_true
      simp [hp.rem, hrest, leftover] at hsome

/-- In every context that any packets and allocations lead to, a call with a buffer frees
no packet of at most `tx_max` bytes uncopied exactly if the packets it meets do not
obstruct each other. -/
theorem aggrFreed_fitting_iff (cfg : AggrCfg) (calls : List TxCall) (ctx : RmCdcNcmCtx)
    (hctx : ctx ∈ (aggrStep cfg).visits .probe calls) (skb : Option Packet) :
    (∀ x ∈ aggrFreed cfg ctx skb true, ¬ x.length ≤ cfg.txMax.toNat) ↔
      Unobstructed cfg ctx skb := by
  have hstart : Parked cfg .probe := ⟨[], .of_none rfl, fun _ => rfl⟩
  have hkeeps : ∀ s call s' res, Parked cfg s → True → aggrStep cfg s call = some (s', res) →
      Parked cfg s' := fun s call s' res hs _ hstep => hs.step hstep
  have hall : ∀ t ∈ (aggrStep cfg).visits .probe calls, Parked cfg t :=
    Machine.visits_all hkeeps hstart fun _ _ => trivial
  obtain ⟨cur, hheld, hrem⟩ := hall ctx hctx
  simp only [Nat.not_le]
  exact aggrFreed_oversized_iff hheld hrem skb

theorem aggrFreed_fitting_iff_second :
    let ctx := ((aggrStep ⟨4, 2, 1, false⟩).next .probe ⟨some [1, 2, 3], true⟩)
    (∀ x ∈ aggrFreed ⟨4, 2, 1, false⟩ ctx (some [4, 5]) true, ¬ x.length ≤ 4) ↔
      Unobstructed ⟨4, 2, 1, false⟩ ctx (some [4, 5]) :=
  aggrFreed_fitting_iff ⟨4, 2, 1, false⟩ [⟨some [1, 2, 3], true⟩] _ (by decide) _

/-- A packet of three bytes stays in front of every later packet of a buffer for two. -/
theorem aggrFreed_starved :
    ∃ (cfg : AggrCfg) (calls : List TxCall), ∃ ctx ∈ (aggrStep cfg).visits .probe calls,
      ∃ p : Packet, p.length ≤ cfg.txMax.toNat ∧ aggrFreed cfg ctx (some p) true = [p] :=
  ⟨⟨2, 10, 1, false⟩, [⟨some [1, 2, 3], true⟩],
    (aggrStep ⟨2, 10, 1, false⟩).next .probe ⟨some [1, 2, 3], true⟩, by decide, [7], by decide⟩

end UsbNet
