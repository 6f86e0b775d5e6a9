-- SUMMARY: What one call of aggr_tx_frame does: it packs its queue greedily and ends in one of three ways.
import QcomUsb.Library.GreedyFill
import QcomUsb.UsbNet.Aggregation.Model

/-!
# One call of the aggregation

A call works on a queue of at most two packets, the remaining one and the new one.
`aggrLoop_spec` says which of them it takes, `Ending` in which of the three ways it
ends, and `aggrTxFrame_spec` puts the two together.
-/

namespace UsbNet

open GreedyFill

/-! ## The buffer under construction -/

/-- The buffer holds the packets `cur`, and the counters agree with it. -/
structure Filled (txMax : Nat) (skbOut : SkBuff) (txCurrSize payload n : Nat)
    (cur : List Packet) : Prop where
  data : skbOut.data = cur.flatten
  size : skbOut.size = txMax
  room : txCurrSize + skbOut.data.length = txMax
  count : n = cur.length
  payload : payload = (cur.map payloadLen).sum % 2 ^ 32

theorem Filled.alloc (txMax : Nat) : Filled txMax (allocSkb txMax) txMax 0 0 [] where
  data := rfl
  size := rfl
  room := rfl
  count := rfl
  payload := by simp

/-- A packet for which there is room is put inside the buffer. -/
theorem Filled.put {txMax txCurrSize payload n : Nat} {skbOut : SkBuff} {cur : List Packet}
    {skb : Packet} (h : Filled txMax skbOut txCurrSize payload n cur)
    (hfit : skb.length ≤ txCurrSize) :
    ∃ skbOut', skbPut skbOut skb = some skbOut' ∧
      Filled txMax skbOut' (txCurrSize - skb.length) ((payload + payloadLen skb) % 2 ^ 32) (n + 1)
        (cur ++ [skb]) := by
  have hroom := h.room
  have hsize := h.size
  refine ⟨{ skbOut with data := skbOut.data ++ skb }, if_pos (by omega), ?_⟩
  refine ⟨by simp [h.data], hsize, ?_, by simp [h.count], ?_⟩
  · simp only [List.length_append]
    omega
  · calc (payload + payloadLen skb) % 2 ^ 32
        = ((cur.map payloadLen).sum % 2 ^ 32 + payloadLen skb) % 2 ^ 32 := by rw [← h.payload]
      _ = ((cur.map payloadLen).sum + payloadLen skb) % 2 ^ 32 := Nat.mod_add_mod _ _ _
      _ = ((cur ++ [skb]).map payloadLen).sum % 2 ^ 32 := by
        rw [List.map_append, List.sum_append, List.map_singleton, List.sum_singleton]

/-- The packets a call works on, in the order it takes them up. -/
def AggrVars.queue (v : AggrVars) : List Packet := v.skb.toList ++ v.txRemSkb.toList

/-- The packets the loop takes from a queue, and the packets it leaves. -/
abbrev pack (room slots : Nat) (queue : List Packet) : List Packet × List Packet :=
  fill List.length room slots queue

/-- How the loop ends: it packs greedily. It leaves at most one packet behind, drops the
others, and asks to send once a packet found no room. Without a turn nothing happens. -/
structure LoopSpec (txMax slots : Nat) (v : AggrVars) (cur : List Packet) (v' : AggrVars) :
    Prop where
  filled : Filled txMax v'.skbOut v'.txCurrSize v'.txCurrFramePayload v'.n
    (cur ++ (pack v.txCurrSize slots v.queue).1)
  idle : slots = 0 → v' = v
  skb : slots ≠ 0 → v'.skb = none
  rem : slots ≠ 0 → v'.txRemSkb = (pack v.txCurrSize slots v.queue).2.head?
  dropped : slots ≠ 0 →
    v'.txDropped = v.txDropped + ((pack v.txCurrSize slots v.queue).2.length - 1)
  ready : v'.ready2send = true ↔ v.ready2send = true ∨
    (pack v.txCurrSize slots v.queue).1.length < slots ∧ (pack v.txCurrSize slots v.queue).2 ≠ []

section

variable (v : AggrVars) (skb : Packet) (skbOut : SkBuff)

@[simp] theorem AggrVars.count_skb : (v.count skb skbOut).skb = none := rfl

@[simp] theorem AggrVars.count_txRemSkb : (v.count skb skbOut).txRemSkb = v.txRemSkb := rfl

@[simp] theorem AggrVars.count_queue : (v.count skb skbOut).queue = v.txRemSkb.toList := rfl

@[simp] theorem AggrVars.count_txCurrSize :
    (v.count skb skbOut).txCurrSize = v.txCurrSize - skb.length := rfl

@[simp] theorem AggrVars.count_ready2send : (v.count skb skbOut).ready2send = v.ready2send := rfl

@[simp] theorem AggrVars.count_txDropped : (v.count skb skbOut).txDropped = v.txDropped := rfl

end

/-- With an empty queue there is nothing to take up. -/
theorem AggrVars.takeUp_nil {v : AggrVars} (h : v.queue = []) :
    v.takeUp = v ∧ v.skb = none ∧ v.txRemSkb = none := by
  obtain ⟨skb, rem, _, _, _, _, _, _⟩ := v
  cases skb with
  | none =>
    cases rem with
    | none => exact ⟨rfl, rfl, rfl⟩
    | some p => simp [queue] at h
  | some p => simp [queue] at h

/-- Otherwise the first packet of the queue is taken up, and only `tx_rem_skb` is left. -/
theorem AggrVars.takeUp_cons {v : AggrVars} {x : Packet} {rest : List Packet}
    (h : v.queue = x :: rest) :
    v.takeUp = { v with skb := some x, txRemSkb := rest.head? } ∧ rest.length ≤ 1 := by
  obtain ⟨skb, rem, _, _, _, _, _, _⟩ := v
  cases skb <;> cases rem <;> simp [queue, takeUp] at h ⊢
  all_goals
    obtain ⟨rfl, rfl⟩ := h
    simp

theorem aggrLoop_spec {txMax slots : Nat} {v : AggrVars} {cur : List Packet}
    (h : Filled txMax v.skbOut v.txCurrSize v.txCurrFramePayload v.n cur) :
    ∃ v', aggrLoop slots v = some v' ∧ LoopSpec txMax slots v cur v' := by
  induction slots generalizing v cur with
  | zero =>
    refine ⟨v, rfl, ?_⟩
    exact ⟨by simpa using h, fun _ => rfl, by simp, by simp, by simp, by simp⟩
  | succ slots ih =>
    unfold aggrLoop
    cases hq : v.queue with
    | nil =>
      obtain ⟨htake, hskb, hrem⟩ := AggrVars.takeUp_nil hq
      refine ⟨v, by simp only [htake, hskb], ?_⟩
      exact ⟨by simpa [hq] using h, by simp, fun _ => hskb, by simp [hq, hrem], by simp [hq],
        by simp [hq]⟩
    | cons x rest =>
      obtain ⟨htake, hrest⟩ := AggrVars.takeUp_cons hq
      simp only [htake]
      rcases Nat.lt_or_ge v.txCurrSize x.length with hno | hfit
      · -- no room for the packet
        have hpack : pack v.txCurrSize (slots + 1) v.queue = ([], x :: rest) := by
          rw [hq, pack, fill_no_room hno]
        rw [if_pos hno]
        refine ⟨_, rfl, ?_⟩
        refine ⟨by simpa [hpack] using h, by simp, fun _ => rfl, by simp [hpack], ?_,
          by simp [hpack]⟩
        intro _
        rw [hpack]
        cases rest with
        | nil => rfl
        | cons y rest =>
          have : rest = [] := List.eq_nil_of_length_eq_zero (by simpa using hrest)
          simp [this]
      · obtain ⟨skbOut', hput, hfilled⟩ := h.put hfit
        simp only [Nat.not_lt.mpr hfit, if_false, hput]
        have hqueue : rest.head?.toList = rest := by
          cases rest with
          | nil => rfl
          | cons y rest =>
            have : rest = [] := List.eq_nil_of_length_eq_zero (by simpa using hrest)
            simp [this]
        obtain ⟨v', hloop, hspec⟩ :=
          ih (v := AggrVars.count { v with skb := some x, txRemSkb := rest.head? } x skbOut') hfilled
        refine ⟨v', hloop, ?_⟩
        have hpack : pack v.txCurrSize (slots + 1) v.queue =
            (x :: (pack (v.txCurrSize - x.length) slots rest).1,
              (pack (v.txCurrSize - x.length) slots rest).2) := by
          rw [hq, pack, fill_fits hfit]
        obtain ⟨hf, hidle, hskb, hrem, hdrop, hready⟩ := hspec
        simp only [AggrVars.count_queue, AggrVars.count_txCurrSize, AggrVars.count_ready2send,
          AggrVars.count_txDropped, hqueue] at hf hrem hdrop hready
        refine ⟨by simpa [hpack] using hf, by simp, ?_, ?_, ?_, by simpa [hpack] using hready⟩
        · intro _
          by_cases hs : slots = 0
          · rw [hidle hs, AggrVars.count_skb]
          · exact hskb hs
        · intro _
          by_cases hs : slots = 0
          · subst hs
            simp [hidle rfl, hpack]
          · rw [hrem hs, hpack]
        · intro _
          by_cases hs : slots = 0
          · subst hs
            have hone : rest.length - 1 = 0 := by omega
            simp [hidle rfl, hpack, hone]
          · rw [hdrop hs, hpack]

/-! ## One call -/

/-- The context between two calls: `cur` are the packets in `tx_curr_skb`. A buffer that
waits has a slot left, unless it is empty. -/
structure Buffered (cfg : AggrCfg) (ctx : RmCdcNcmCtx) (cur : List Packet) : Prop where
  fresh : ctx.txCurrSkb = none → cur = []
  filled : ∀ skbOut, ctx.txCurrSkb = some skbOut →
    Filled cfg.txMax.toNat skbOut ctx.txCurrSize ctx.txCurrFramePayload ctx.txCurrFrameNum cur
  slot : cur = [] ∨ cur.length < cfg.txMaxDatagrams.toNat

theorem Buffered.of_none {cfg : AggrCfg} {ctx : RmCdcNcmCtx} (h : ctx.txCurrSkb = none) :
    Buffered cfg ctx [] where
  fresh := fun _ => rfl
  filled := fun skbOut hsome => by
    rw [h] at hsome
    cases hsome
  slot := .inl rfl

/-- What `aggr_tx_frame` returns for a buffer with the packets `cur`. -/
def sentOf (cur : List Packet) : SentSkb where
  data := cur.flatten
  packets := cur.length
  bytesDelta := ((cur.map payloadLen).sum % 2 ^ 32 : Nat) - cur.flatten.length

/-- The ways a call ends that has the packets `cur` in its buffer. `timer` tells whether
the timer was running before. -/
inductive Ending (cfg : AggrCfg) (timer : Bool) (cur : List Packet) (ready : Bool)
    (res : AggrResult) : Prop where
  /-- Nothing to send. -/
  | park (empty : cur = []) (out : res.skbOut = none) (idle : res.ctx.txTimer = timer)
      (buf : res.ctx.txCurrSkb.isSome) (held : Buffered cfg res.ctx [])
  /-- Wait for more frames, with the timer running. -/
  | wait (nonempty : cur ≠ []) (slot : cur.length < cfg.txMaxDatagrams.toNat)
      (notReady : ready = false) (interval : cfg.timerInterval > 0) (out : res.skbOut = none)
      (armed : res.ctx.txTimer = (timer || !cfg.stop)) (buf : res.ctx.txCurrSkb.isSome)
      (held : Buffered cfg res.ctx cur)
  /-- The frame goes out. -/
  | send (nonempty : cur ≠ [])
      (now : ¬ (cur.length < cfg.txMaxDatagrams.toNat ∧ ready = false ∧ cfg.timerInterval > 0))
      (out : res.skbOut = some (sentOf cur)) (fits : cur.flatten.length ≤ cfg.txMax.toNat) (idle : res.ctx.txTimer = timer)
      (buf : res.ctx.txCurrSkb = none)

theorem cdcNcmTxTimeoutStart_eq (cfg : AggrCfg) (ctx : RmCdcNcmCtx) :
    cdcNcmTxTimeoutStart cfg ctx = { ctx with txTimer := ctx.txTimer || !cfg.stop } := by
  obtain ⟨timer, _, _, _, _, _, _, _, _, _⟩ := ctx
  unfold cdcNcmTxTimeoutStart
  cases timer <;> cases cfg.stop <;> rfl

/-- A buffer that is pushed keeps its packets. -/
theorem Filled.push {cfg : AggrCfg} {ctx : RmCdcNcmCtx} {v : AggrVars} {cur : List Packet}
    (h : Filled cfg.txMax.toNat v.skbOut v.txCurrSize v.txCurrFramePayload v.n cur)
    (hslot : cur = [] ∨ cur.length < cfg.txMaxDatagrams.toNat) (pending : Int) (timer : Bool) :
    Buffered cfg { (ctx.update v).push v.skbOut pending with txTimer := timer } cur where
  fresh := fun hnone => nomatch hnone
  filled := fun skbOut hsome => by
    obtain rfl : v.skbOut = skbOut := Option.some.inj hsome
    exact h
  slot := hslot

theorem aggrExit_ending {cfg : AggrCfg} {ctx : RmCdcNcmCtx} {v : AggrVars} {cur : List Packet}
    (h : Filled cfg.txMax.toNat v.skbOut v.txCurrSize v.txCurrFramePayload v.n cur) :
    Ending cfg ctx.txTimer cur v.ready2send (aggrExit cfg ctx v) := by
  have hcount : v.n = cur.length := h.count
  unfold aggrExit
  by_cases hn : v.n = 0
  · have hnil : cur = [] := List.eq_nil_of_length_eq_zero (by omega)
    subst hnil
    rw [if_pos hn, exitNoSkb, if_neg (by omega)]
    exact .park rfl rfl rfl rfl (h.push (.inl rfl) _ _)
  · have hne : cur ≠ [] := by
      rintro rfl
      exact hn hcount
    rw [if_neg hn]
    by_cases hwait : v.Waits cfg
    · have hslot : cur.length < cfg.txMaxDatagrams.toNat := hcount ▸ hwait.1
      rw [if_pos hwait, exitNoSkb, if_pos ⟨rfl, Nat.pos_of_ne_zero hn⟩, cdcNcmTxTimeoutStart_eq]
      exact .wait hne hslot hwait.2.1 hwait.2.2 rfl rfl rfl (h.push (.inr hslot) _ _)
    · have hroom := h.room
      rw [if_neg hwait]
      refine .send hne ?_ ?_ ?_ rfl rfl
      · rwa [← hcount]
      · rw [AggrVars.sent, h.payload, h.count, h.data, sentOf]
      · rw [← h.data]
        omega

/-- A call keeps the packets in its buffer or sends them all. -/
theorem Ending.next {cfg : AggrCfg} {timer ready : Bool} {cur : List Packet} {res : AggrResult}
    (h : Ending cfg timer cur ready res) :
    (res.skbOut = none ∧ Buffered cfg res.ctx cur) ∨
    (res.skbOut = some (sentOf cur) ∧ Buffered cfg res.ctx [] ∧ cur ≠ [] ∧
      cur.flatten.length ≤ cfg.txMax.toNat) := by
  cases h with
  | park empty out _ _ held => exact .inl ⟨out, empty ▸ held⟩
  | wait _ _ _ _ out _ _ held => exact .inl ⟨out, held⟩
  | send nonempty _ out fits _ buf => exact .inr ⟨out, .of_none buf, nonempty, fits⟩

/-- What leaving the loop does to everything else. -/
theorem aggrExit_frame (cfg : AggrCfg) (ctx : RmCdcNcmCtx) (v : AggrVars) :
    (aggrExit cfg ctx v).ctx.bh = ctx.bh ∧ (aggrExit cfg ctx v).ctx.txRemSkb = v.txRemSkb ∧
      (aggrExit cfg ctx v).txDropped = v.txDropped + if v.skb.isSome then 1 else 0 := by
  unfold aggrExit exitNoSkb
  simp only [cdcNcmTxTimeoutStart_eq]
  refine ⟨?_, ?_, ?_⟩ <;> split_ifs <;> rfl

/-- The room a call finds, in a buffer that waits or in a fresh one. -/
def RmCdcNcmCtx.room (cfg : AggrCfg) (ctx : RmCdcNcmCtx) : Nat :=
  if ctx.txCurrSkb.isSome then ctx.txCurrSize else cfg.txMax.toNat

/-- The number of packets a buffer with the packets `cur` still takes. -/
def AggrCfg.slots (cfg : AggrCfg) (cur : List Packet) : Nat :=
  cfg.txMaxDatagrams.toNat - cur.length

/-- The packet that stays in `tx_rem_skb`. Without a slot the loop does not run, so the
newest one stays there. -/
def leftover {α : Type} (slots : Nat) (rest : List α) : Option α :=
  if slots = 0 then rest.getLast? else rest.head?

theorem leftover_map {α β : Type} (f : α → β) (slots : Nat) (rest : List α) :
    leftover slots (rest.map f) = (leftover slots rest).map f := by
  unfold leftover
  split
  · exact List.getLast?_map
  · exact List.head?_map

theorem leftover_sublist {α : Type} (slots : Nat) (rest : List α) :
    List.Sublist (leftover slots rest).toList rest := by
  unfold leftover
  split
  · cases h : rest.getLast? with
    | none => simp
    | some x => simpa using List.mem_of_getLast? h
  · cases rest <;> simp

/-- A call without a buffer: the older packet is dropped for the newer one. -/
structure Aborted (timer : Bool) (queue : List Packet) (res : AggrResult) : Prop where
  out : res.skbOut = none
  buf : res.ctx.txCurrSkb = none
  rem : res.ctx.txRemSkb = leftover 0 queue
  dropped : res.txDropped = queue.length - 1
  timer : res.ctx.txTimer = timer

/-- A call with a buffer: it packs the queue greedily, and keeps one of the packets that
are left. -/
structure Packed (cfg : AggrCfg) (timer : Bool) (room : Nat) (cur queue : List Packet)
    (ready2send : Bool) (res : AggrResult) (taken rest : List Packet) : Prop where
  packed : pack room (cfg.slots cur) queue = (taken, rest)
  rem : res.ctx.txRemSkb = leftover (cfg.slots cur) rest
  dropped : res.txDropped = rest.length - 1
  ending : ∃ ready, (ready = true ↔ ready2send = true ∨
    taken.length < cfg.slots cur ∧ rest ≠ []) ∧ Ending cfg timer (cur ++ taken) ready res

/-- The swap leaves the newest packet in `tx_rem_skb`. -/
theorem getLast?_swapped {skb rem : Option Packet} (h : skb.isSome → rem.isSome) :
    (skb.toList ++ rem.toList).getLast? = rem := by
  cases skb <;> cases rem <;> simp at h ⊢

theorem length_swapped {skb rem : Option Packet} (h : skb.isSome → rem.isSome) :
    (skb.toList ++ rem.toList).length - 1 = if skb.isSome then 1 else 0 := by
  cases skb <;> cases rem <;> simp at h ⊢

/-- The packets taken and the packets left are the queue. -/
theorem Packed.cut {cfg : AggrCfg} {timer ready2send : Bool} {room : Nat}
    {cur queue taken rest : List Packet} {res : AggrResult}
    (h : Packed cfg timer room cur queue ready2send res taken rest) : taken ++ rest = queue := by
  have happend := fill_append List.length room (cfg.slots cur) queue
  have hpacked : fill List.length room (cfg.slots cur) queue = (taken, rest) := h.packed
  rwa [hpacked] at happend

/-- The buffer never gets more packets than it has slots. -/
theorem Packed.taken_le {cfg : AggrCfg} {timer ready2send : Bool} {room : Nat}
    {cur queue taken rest : List Packet} {res : AggrResult}
    (h : Packed cfg timer room cur queue ready2send res taken rest) :
    taken.length ≤ cfg.slots cur := by
  have hle := fill_length_le List.length room (cfg.slots cur) queue
  have hpacked : fill List.length room (cfg.slots cur) queue = (taken, rest) := h.packed
  rwa [hpacked] at hle

theorem aggrFrames_spec {cfg : AggrCfg} {ctx : RmCdcNcmCtx} {skb : Option Packet}
    {skbOut : SkBuff} {cur : List Packet} (ready2send : Bool)
    (h : Filled cfg.txMax.toNat skbOut ctx.txCurrSize ctx.txCurrFramePayload ctx.txCurrFrameNum cur)
    (hswap : skb.isSome → ctx.txRemSkb.isSome) :
    ∃ res taken rest, aggrFrames cfg ctx skb ready2send skbOut = some res ∧
      res.ctx.bh = ctx.bh ∧ Packed cfg ctx.txTimer ctx.txCurrSize cur
        (skb.toList ++ ctx.txRemSkb.toList) ready2send res taken rest := by
  have hslots : cfg.txMaxDatagrams.toNat - ctx.txCurrFrameNum = cfg.slots cur := by
    rw [AggrCfg.slots, h.count]
  let v : AggrVars := ⟨skb, ctx.txRemSkb, skbOut, ctx.txCurrSize, ctx.txCurrFramePayload,
    ctx.txCurrFrameNum, ready2send, 0⟩
  obtain ⟨v', hloop, hspec⟩ : ∃ v', aggrLoop (cfg.slots cur) v = some v' ∧
      LoopSpec cfg.txMax.toNat (cfg.slots cur) v cur v' := aggrLoop_spec h
  obtain ⟨hbh, hrem, hdrop⟩ := aggrExit_frame cfg ctx v'
  refine ⟨aggrExit cfg ctx v', _, _, ?_, hbh, rfl, ?_, ?_, v'.ready2send, hspec.ready,
    aggrExit_ending hspec.filled⟩
  · simp only [aggrFrames, hslots]
    exact congrArg (Option.map (aggrExit cfg ctx)) hloop
  · rw [hrem, leftover]
    by_cases hs : cfg.slots cur = 0
    · rw [hspec.idle hs, if_pos hs, hs, fill_no_slots]
      exact (getLast?_swapped hswap).symm
    · rw [hspec.rem hs, if_neg hs]
      rfl
  · rw [hdrop]
    by_cases hs : cfg.slots cur = 0
    · rw [hspec.idle hs, hs, fill_no_slots]
      change 0 + _ = _
      rw [Nat.zero_add]
      exact (length_swapped hswap).symm
    · rw [hspec.dropped hs, hspec.skb hs]
      exact Nat.zero_add _

/-- A call either finds no buffer or packs its queue into one. -/
def CallSpec (cfg : AggrCfg) (ctx : RmCdcNcmCtx) (cur queue : List Packet)
    (ready2send alloc : Bool) (res : AggrResult) : Prop :=
  (ctx.txCurrSkb = none ∧ alloc = false ∧ Aborted ctx.txTimer queue res) ∨
  ((ctx.txCurrSkb.isSome ∨ alloc = true) ∧
    ∃ taken rest, Packed cfg ctx.txTimer (ctx.room cfg) cur queue ready2send res taken rest)

theorem aggrResume_spec {cfg : AggrCfg} {ctx : RmCdcNcmCtx} {cur : List Packet}
    {skb : Option Packet} (ready2send alloc : Bool) (h : Buffered cfg ctx cur)
    (hswap : skb.isSome → ctx.txRemSkb.isSome) :
    ∃ res, aggrResume cfg ctx skb ready2send alloc = some res ∧ res.ctx.bh = ctx.bh ∧
      CallSpec cfg ctx cur (skb.toList ++ ctx.txRemSkb.toList) ready2send alloc res := by
  unfold aggrResume
  cases hcurr : ctx.txCurrSkb with
  | some skbOut =>
    have hroom : ctx.room cfg = ctx.txCurrSize := by simp [RmCdcNcmCtx.room, hcurr]
    obtain ⟨res, taken, rest, hres, hbh, hpacked⟩ :=
      aggrFrames_spec ready2send (h.filled skbOut hcurr) hswap
    exact ⟨res, hres, hbh, .inr ⟨.inl (by simp [hcurr]), taken, rest, hroom ▸ hpacked⟩⟩
  | none =>
    have hroom : ctx.room cfg = cfg.txMax.toNat := by simp [RmCdcNcmCtx.room, hcurr]
    obtain rfl : cur = [] := h.fresh hcurr
    cases alloc with
    | true =>
      let fresh : RmCdcNcmCtx :=
        { ctx with
          txCurrSize := cfg.txMax.toNat
          txCurrFrameNum := 0
          txCurrFramePayload := 0 }
      have hfresh : Filled cfg.txMax.toNat (allocSkb cfg.txMax.toNat) fresh.txCurrSize
          fresh.txCurrFramePayload fresh.txCurrFrameNum [] := Filled.alloc _
      obtain ⟨res, taken, rest, hres, hbh, hpacked⟩ := aggrFrames_spec ready2send hfresh hswap
      exact ⟨res, hres, hbh, .inr ⟨.inr rfl, taken, rest, hroom ▸ hpacked⟩⟩
    | false =>
      refine ⟨_, rfl, ?_, .inl ⟨hcurr, rfl, ?_⟩⟩
      · simp [exitNoSkb]
      · refine ⟨rfl, ?_, ?_, ?_, ?_⟩
        · simp [exitNoSkb]
        · simp [exitNoSkb, leftover, getLast?_swapped hswap]
        · exact (length_swapped hswap).symm
        · simp [exitNoSkb]

/-- One call. The remaining packet goes first, then the new one. The call never runs over
the end of the buffer. -/
theorem aggrTxFrame_spec {cfg : AggrCfg} {ctx : RmCdcNcmCtx} {cur : List Packet}
    (skb : Option Packet) (alloc : Bool) (h : Buffered cfg ctx cur) :
    ∃ res, aggrTxFrame cfg ctx skb alloc = some res ∧ res.ctx.bh = ctx.bh ∧
      CallSpec cfg ctx cur (ctx.txRemSkb.toList ++ skb.toList) skb.isNone alloc res := by
  cases skb with
  | some p =>
    have hswapped : Buffered cfg { ctx with txRemSkb := some p } cur := ⟨h.fresh, h.filled, h.slot⟩
    exact aggrResume_spec false alloc hswapped fun _ => rfl
  | none =>
    have hswap : (none : Option Packet).isSome → ctx.txRemSkb.isSome := fun hs => nomatch hs
    obtain ⟨res, hres, hbh, hspec⟩ := aggrResume_spec true alloc h hswap
    refine ⟨res, hres, hbh, ?_⟩
    simpa using hspec

end UsbNet
