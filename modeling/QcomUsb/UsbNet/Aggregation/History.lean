-- SUMMARY: Whole histories of the uplink aggregation: nothing is lost, and every buffer keeps its limits.
import QcomUsb.Library.Transition
import QcomUsb.UsbNet.Aggregation.Call

/-!
# Histories of the aggregation

The calls of `aggr_tx_frame` as a machine. While packets fit the buffer and
allocation succeeds, every packet is in exactly one of three places: sent, in
`tx_curr_skb`, or in `tx_rem_skb`. Whatever the packets and allocations are, a buffer
that is sent keeps its limits and its byte count.
-/

namespace UsbNet

open GreedyFill Transition

/-- A call of `aggr_tx_frame`: the packet, if any, and whether `alloc_skb` would succeed. -/
structure TxCall where
  skb : Option Packet
  alloc : Bool
  deriving DecidableEq, Repr

/-- The calls as a machine. It stops where `skb_put` runs over the buffer. -/
def aggrStep (cfg : AggrCfg) : Machine RmCdcNcmCtx TxCall AggrResult := fun ctx call =>
  (aggrTxFrame cfg ctx call.skb call.alloc).map fun res => (res.ctx, res)

/-- The buffers returned, in order. -/
def sentSkbs (outs : List AggrResult) : List SentSkb := outs.filterMap AggrResult.skbOut

/-- The packets submitted, in order. -/
def submitted (calls : List TxCall) : List Packet := calls.filterMap TxCall.skb

@[simp] theorem sentSkbs_append (outs : List AggrResult) (res : AggrResult) :
    sentSkbs (outs ++ [res]) = sentSkbs outs ++ res.skbOut.toList := by
  cases h : res.skbOut <;> simp [sentSkbs, h]

@[simp] theorem submitted_append (calls : List TxCall) (call : TxCall) :
    submitted (calls ++ [call]) = submitted calls ++ call.skb.toList := by
  cases h : call.skb <;> simp [submitted, h]

/-! ## The contents of the context -/

/-- The bytes in `tx_curr_skb`. -/
def RmCdcNcmCtx.currBytes (ctx : RmCdcNcmCtx) : List UInt8 :=
  (ctx.txCurrSkb.map SkBuff.data).getD []

/-- The bytes in `tx_rem_skb`. -/
def RmCdcNcmCtx.remBytes (ctx : RmCdcNcmCtx) : List UInt8 := ctx.txRemSkb.getD []

namespace Buffered

variable {cfg : AggrCfg} {ctx : RmCdcNcmCtx} {cur : List Packet}

theorem currBytes (h : Buffered cfg ctx cur) : ctx.currBytes = cur.flatten := by
  unfold RmCdcNcmCtx.currBytes
  cases hcurr : ctx.txCurrSkb with
  | none => simp [h.fresh hcurr]
  | some skbOut => simpa using (h.filled skbOut hcurr).data

/-- An empty buffer has room for everything up to `tx_max`. -/
theorem room_empty (h : Buffered cfg ctx []) : ctx.room cfg = cfg.txMax.toNat := by
  unfold RmCdcNcmCtx.room
  cases hcurr : ctx.txCurrSkb with
  | none => rfl
  | some skbOut =>
    have hfilled := h.filled skbOut hcurr
    have hroom := hfilled.room
    rw [hfilled.data] at hroom
    simpa using hroom

theorem slots_pos (h : Buffered cfg ctx cur) (hmax : 0 < cfg.txMaxDatagrams.toNat) :
    0 < cfg.slots cur := by
  unfold AggrCfg.slots
  rcases h.slot with rfl | hlt
  · simpa using hmax
  · omega

end Buffered

/-! ## Nothing is lost -/

/-- As long as packets fit the buffer, a packet remains only while there is no buffer. -/
structure Tidy (cfg : AggrCfg) (ctx : RmCdcNcmCtx) : Prop where
  rem : ctx.txCurrSkb.isSome → ctx.txRemSkb = none
  fits : ∀ p ∈ ctx.txRemSkb, p.length ≤ cfg.txMax.toNat

theorem Tidy.probe (cfg : AggrCfg) : Tidy cfg .probe where
  rem := fun _ => rfl
  fits := fun p hp => by simp [RmCdcNcmCtx.probe] at hp

section

variable {cfg : AggrCfg} {ctx : RmCdcNcmCtx} {cur : List Packet} {skb : Option Packet}

/-- Every packet of a call's queue fits an empty buffer. -/
theorem Tidy.queue_fits (ht : Tidy cfg ctx) (hskb : ∀ p ∈ skb, p.length ≤ cfg.txMax.toNat) :
    ∀ p ∈ ctx.txRemSkb.toList ++ skb.toList, p.length ≤ cfg.txMax.toNat := by
  intro p hp
  rcases List.mem_append.mp hp with hp | hp
  · exact ht.fits p (by simpa using hp)
  · exact hskb p (by simpa using hp)

/-- A call leaves at most one packet behind, and none if its buffer stays empty. -/
theorem Tidy.rest_length {taken rest : List Packet} (ht : Tidy cfg ctx)
    (h : Buffered cfg ctx cur) (hmax : 0 < cfg.txMaxDatagrams.toNat)
    (hskb : ∀ p ∈ skb, p.length ≤ cfg.txMax.toNat)
    (hpack : pack (ctx.room cfg) (cfg.slots cur) (ctx.txRemSkb.toList ++ skb.toList) =
      (taken, rest)) : rest.length ≤ 1 ∧ (cur ++ taken = [] → rest = []) := by
  have hfits := ht.queue_fits hskb
  have hlen : (ctx.txRemSkb.toList ++ skb.toList).length ≤ 2 := by
    cases ctx.txRemSkb <;> cases skb <;> simp
  obtain ⟨slots, hslots⟩ : ∃ slots, cfg.slots cur = slots + 1 :=
    Nat.exists_eq_add_one.mpr (h.slots_pos hmax)
  rw [hslots] at hpack
  cases hq : ctx.txRemSkb.toList ++ skb.toList with
  | nil =>
    rw [hq, pack, fill_nil] at hpack
    cases hpack
    simp
  | cons x queue =>
    rw [hq] at hpack hlen hfits
    rcases Nat.lt_or_ge (ctx.room cfg) x.length with hno | hfit
    · -- the buffer is not empty, so no packet remains from the last call
      rw [pack, fill_no_room hno] at hpack
      cases hpack
      have hx : x.length ≤ cfg.txMax.toNat := hfits x (by simp)
      have hne : cur ≠ [] := by
        rintro rfl
        have := h.room_empty
        omega
      have hsome : ctx.txCurrSkb.isSome := by
        rw [Option.isSome_iff_ne_none]
        exact fun hnone => hne (h.fresh hnone)
      rw [ht.rem hsome] at hq
      refine ⟨?_, fun hnil => absurd (List.append_eq_nil_iff.mp hnil).1 hne⟩
      cases skb with
      | none => cases hq
      | some p =>
        cases hq
        simp
    · rw [pack, fill_fits hfit] at hpack
      have hrest := fill_rest_length List.length (ctx.room cfg - x.length) slots queue
      cases hpack
      refine ⟨?_, by simp⟩
      rw [List.length_cons] at hlen
      omega

/-- A call that has a buffer loses no packet. -/
theorem Packed.conserves {timer ready : Bool} {res : AggrResult} {taken rest : List Packet}
    (ht : Tidy cfg ctx) (h : Buffered cfg ctx cur) (hmax : 0 < cfg.txMaxDatagrams.toNat)
    (hskb : ∀ p ∈ skb, p.length ≤ cfg.txMax.toNat)
    (hp : Packed cfg timer (ctx.room cfg) cur (ctx.txRemSkb.toList ++ skb.toList) ready res
      taken rest) :
    ctx.txRemSkb.toList ++ skb.toList = taken ++ res.ctx.txRemSkb.toList ∧ res.txDropped = 0 ∧
      Tidy cfg res.ctx := by
  obtain ⟨hlen, hnil⟩ := ht.rest_length h hmax hskb hp.packed
  have hslots : cfg.slots cur ≠ 0 := (h.slots_pos hmax).ne'
  have hcut := hp.cut
  have hrem : res.ctx.txRemSkb = rest.head? := by rw [hp.rem, leftover, if_neg hslots]
  have hrest : rest = res.ctx.txRemSkb.toList := by
    rw [hrem]
    cases rest with
    | nil => rfl
    | cons x tail =>
      have htail : tail = [] := List.eq_nil_of_length_eq_zero (by simpa using hlen)
      rw [htail]
      rfl
  refine ⟨by rw [← hrest, hcut], ?_, ?_, ?_⟩
  · rw [hp.dropped]
    omega
  · intro hsome
    rw [hrem]
    obtain ⟨ready', hready, hend⟩ := hp.ending
    cases hend with
    | park empty => simp [hnil empty]
    | wait _ slot notReady =>
      -- a packet that found no room would have sent the buffer
      have hfree : taken.length < cfg.slots cur := by
        rw [List.length_append] at slot
        unfold AggrCfg.slots
        omega
      have : rest = [] := by
        by_contra hne
        rw [notReady] at hready
        exact absurd (hready.mpr (.inr ⟨hfree, hne⟩)) Bool.false_ne_true
      rw [this, List.head?_nil]
    | send _ _ _ _ _ buf => simp [buf] at hsome
  · intro p hmem
    rw [hrem] at hmem
    have : p ∈ rest := List.mem_of_mem_head? (Option.mem_def.mp hmem)
    exact ht.queue_fits hskb p (hcut ▸ List.mem_append_right _ this)

end

/-- The bytes of the buffers returned. -/
def sentBytes (outs : List AggrResult) : List UInt8 := ((sentSkbs outs).map SentSkb.data).flatten

/-- What is known after a history without losses. -/
structure Conserved (cfg : AggrCfg) (ctx : RmCdcNcmCtx) (calls : List TxCall)
    (outs : List AggrResult) : Prop where
  tidy : Tidy cfg ctx
  held : ∃ cur, Buffered cfg ctx cur
  bytes : sentBytes outs ++ ctx.currBytes ++ ctx.remBytes = (submitted calls).flatten
  dropped : ∀ res ∈ outs, res.txDropped = 0

/-- The calls whose packet fits the buffer and that get a buffer when they need one. -/
def TxCall.Fits (cfg : AggrCfg) (call : TxCall) : Prop :=
  call.alloc = true ∧ ∀ p ∈ call.skb, 1 ≤ p.length ∧ p.length ≤ cfg.txMax.toNat

theorem Conserved.step {cfg : AggrCfg} {ctx : RmCdcNcmCtx} {calls : List TxCall}
    {outs : List AggrResult} {call : TxCall} (hmax : 0 < cfg.txMaxDatagrams.toNat)
    (h : Conserved cfg ctx calls outs) (hcall : call.Fits cfg) :
    ∃ ctx' res, aggrStep cfg ctx call = some (ctx', res) ∧
      Conserved cfg ctx' (calls ++ [call]) (outs ++ [res]) := by
  obtain ⟨cur, hheld⟩ := h.held
  obtain ⟨res, hres, -, hspec⟩ := aggrTxFrame_spec call.skb call.alloc hheld
  have hskb : ∀ p ∈ call.skb, p.length ≤ cfg.txMax.toNat := fun p hp => (hcall.2 p hp).2
  refine ⟨res.ctx, res, by rw [aggrStep, hres]; rfl, ?_⟩
  rcases hspec with ⟨-, hfail, -⟩ | ⟨-, taken, rest, hp⟩
  · rw [hcall.1] at hfail
    cases hfail
  · obtain ⟨hqueue, hdrop, htidy⟩ := hp.conserves h.tidy hheld hmax hskb
    obtain ⟨ready, -, hend⟩ := hp.ending
    have hdropped : ∀ r ∈ outs ++ [res], r.txDropped = 0 := by
      intro r hr
      rcases List.mem_append.mp hr with hr | hr
      · exact h.dropped r hr
      · rwa [List.mem_singleton.mp hr]
    have hsubmitted : (submitted (calls ++ [call])).flatten =
        sentBytes outs ++ ((cur ++ taken).flatten ++ res.ctx.remBytes) := by
      have hrem : ctx.remBytes = ctx.txRemSkb.toList.flatten := by
        cases hr : ctx.txRemSkb <;> simp [RmCdcNcmCtx.remBytes, hr]
      have hrem' : res.ctx.remBytes = res.ctx.txRemSkb.toList.flatten := by
        cases hr : res.ctx.txRemSkb <;> simp [RmCdcNcmCtx.remBytes, hr]
      have hq := congrArg List.flatten hqueue
      rw [List.flatten_append, List.flatten_append] at hq
      calc (submitted (calls ++ [call])).flatten
          = sentBytes outs ++ cur.flatten ++
              (ctx.txRemSkb.toList.flatten ++ call.skb.toList.flatten) := by
            rw [submitted_append, List.flatten_append, ← h.bytes, hheld.currBytes, hrem]
            simp
        _ = sentBytes outs ++ cur.flatten ++ (taken.flatten ++ res.ctx.txRemSkb.toList.flatten) := by
            rw [hq]
        _ = sentBytes outs ++ ((cur ++ taken).flatten ++ res.ctx.remBytes) := by
            rw [hrem']
            simp
    rcases hend.next with ⟨hout, hbuf⟩ | ⟨hout, hbuf, -, -⟩
    · refine ⟨htidy, ⟨_, hbuf⟩, ?_, hdropped⟩
      rw [hsubmitted, hbuf.currBytes]
      simp [sentBytes, hout]
    · refine ⟨htidy, ⟨_, hbuf⟩, ?_, hdropped⟩
      rw [hsubmitted, hbuf.currBytes]
      simp [sentBytes, hout, sentOf]

/-- Aggregation loses, duplicates and reorders nothing: the bytes sent, then the bytes in
`tx_curr_skb`, then the bytes in `tx_rem_skb` are the bytes submitted. -/
theorem aggr_conserves (cfg : AggrCfg) (hmax : 1 ≤ cfg.txMaxDatagrams.toNat) (calls : List TxCall)
    (hcalls : ∀ call ∈ calls, call.Fits cfg) :
    ∃ ctx outs, (aggrStep cfg).run .probe calls = some (ctx, outs) ∧
      sentBytes outs ++ ctx.currBytes ++ ctx.remBytes = (submitted calls).flatten ∧
      ∀ res ∈ outs, res.txDropped = 0 := by
  have hstart : Conserved cfg .probe [] [] :=
    ⟨Tidy.probe cfg, ⟨[], .of_none rfl⟩, rfl, fun _ hres => nomatch hres⟩
  have hstep : ∀ ctx calls outs call, Conserved cfg ctx calls outs → call.Fits cfg →
      ∃ ctx' res, aggrStep cfg ctx call = some (ctx', res) ∧
        Conserved cfg ctx' (calls ++ [call]) (outs ++ [res]) := by
    intro ctx calls outs call h hcall
    exact h.step hmax hcall
  obtain ⟨ctx, outs, hrun, h⟩ := Machine.run_history hstep hstart hcalls
  exact ⟨ctx, outs, hrun, h.bytes, h.dropped⟩

theorem aggr_conserves_three :
    ∃ ctx outs, (aggrStep ⟨4, 2, 1, false⟩).run .probe
        [⟨some [1, 2, 3], true⟩, ⟨some [4, 5], true⟩, ⟨none, true⟩] = some (ctx, outs) ∧
      sentBytes outs ++ ctx.currBytes ++ ctx.remBytes = (submitted
        [⟨some [1, 2, 3], true⟩, ⟨some [4, 5], true⟩, ⟨none, true⟩]).flatten ∧
      ∀ res ∈ outs, res.txDropped = 0 :=
  aggr_conserves _ (by decide) _ (by simp [TxCall.Fits])

/-! ## Limits and accounting -/

/-- `GobiNetDriver_tx_fixup`: `qmap_mux` frames the packet, and `aggr_tx_frame` takes the
frame. -/
def gobiNetDriverTxFixup (cfg : AggrCfg) (ctx : RmCdcNcmCtx) (skb : Option IpPacket)
    (alloc : Bool) : Option AggrResult :=
  aggrTxFrame cfg ctx (skb.map txFrame) alloc

/-- Its calls as a machine: each has a packet or flushes, and allocates or fails to. -/
def txFixupStep (cfg : AggrCfg) : Machine RmCdcNcmCtx (Option IpPacket × Bool) AggrResult :=
  fun ctx call => (gobiNetDriverTxFixup cfg ctx call.1 call.2).map fun res => (res.ctx, res)

/-- The buffer `sent` carries the packets `ps`, inside its limits and with the right
correction of the byte count. -/
structure Accounted (cfg : AggrCfg) (sent : SentSkb) (ps : List IpPacket) : Prop where
  frames : sent.data = (ps.map txFrame).flatten
  nonempty : sent.data ≠ []
  size : sent.data.length ≤ cfg.txMax.toNat
  count : sent.packets = ps.length
  packets_pos : 1 ≤ sent.packets
  packets_le : sent.packets ≤ max cfg.txMaxDatagrams.toNat 1
  bytes : (sent.data.length : Int) + sent.bytesDelta = ((ps.map fun p => p.2.length).sum : Nat)

@[simp] theorem txFrame_length (p : IpPacket) :
    (txFrame p).length = QmapHdr.size + p.2.length + paddingCount p.2.length := by
  simp [txFrame]

/-- The payload counter counts the bytes of the IP packet. -/
theorem payloadLen_txFrame (p : IpPacket) (hlen : p.2.length < 2 ^ 64) :
    payloadLen (txFrame p) = p.2.length := by
  have hpad : (txFrame p).headD 0 = (qmapMuxHdr p.2.length p.1.data1).cdRsvdPad := rfl
  rw [payloadLen, hpad, qmapMuxHdr_cdRsvdPad_toNat, txFrame_length]
  have hcancel : QmapHdr.size + p.2.length + paddingCount p.2.length + 2 ^ 64 - QmapHdr.size -
      paddingCount p.2.length = p.2.length + 2 ^ 64 := by
    omega
  rw [hcancel, Nat.add_mod_right, Nat.mod_eq_of_lt hlen]

/-- The frames are at least as long as the packets in them. -/
theorem sum_le_frames (ps : List IpPacket) :
    (ps.map fun p => p.2.length).sum ≤ (ps.map txFrame).flatten.length := by
  induction ps with
  | nil => simp
  | cons p ps ih =>
    simp only [List.map_cons, List.sum_cons, List.flatten_cons, List.length_append,
      txFrame_length]
    omega

theorem sum_payloadLen {ps : List IpPacket} (h : (ps.map txFrame).flatten.length < 2 ^ 32) :
    ((ps.map txFrame).map payloadLen).sum = (ps.map fun p => p.2.length).sum := by
  have hsum := sum_le_frames ps
  rw [List.map_map]
  congr 1
  apply List.map_congr_left
  intro p hp
  have hmem : p.2.length ∈ ps.map fun p => p.2.length := List.mem_map_of_mem hp
  have hle : p.2.length ≤ (ps.map fun p => p.2.length).sum := List.le_sum_of_mem hmem
  rw [Function.comp_apply, payloadLen_txFrame p (by omega)]

/-- A buffer that is full of frames is accounted for. -/
theorem sentOf_accounted {cfg : AggrCfg} {ps : List IpPacket} (hne : ps.map txFrame ≠ [])
    (hfits : (ps.map txFrame).flatten.length ≤ cfg.txMax.toNat)
    (hcount : ps.length ≤ cfg.txMaxDatagrams.toNat) :
    Accounted cfg (sentOf (ps.map txFrame)) ps := by
  have hmax : cfg.txMax.toNat < 2 ^ 32 := cfg.txMax.toNat_lt
  have hsum := sum_le_frames ps
  have hlen : (sentOf (ps.map txFrame)).packets = ps.length := List.length_map _
  have hpos : 0 < ps.length := by
    rw [List.length_pos_iff]
    rintro rfl
    exact hne rfl
  refine ⟨rfl, ?_, hfits, hlen, by omega, by omega, ?_⟩
  · obtain ⟨p, ps, rfl⟩ := List.exists_cons_of_length_pos hpos
    intro hnil
    have := congrArg List.length hnil
    simp [sentOf] at this
  · rw [sentOf, sum_payloadLen (by omega), Nat.mod_eq_of_lt (by omega)]
    simp

/-- What is known after a history of framed packets: `ps` are the packets in
`tx_curr_skb`, `rem` is the one in `tx_rem_skb`, and `groups` are those sent. -/
def Framed (cfg : AggrCfg) (ctx : RmCdcNcmCtx) (calls : List (Option IpPacket × Bool))
    (outs : List AggrResult) : Prop :=
  ∃ groups ps rem, Buffered cfg ctx (ps.map txFrame) ∧ ctx.txRemSkb = Option.map txFrame rem ∧
    List.Forall₂ (Accounted cfg) (sentSkbs outs) groups ∧
    List.Sublist (groups.flatten ++ (ps ++ rem.toList)) (calls.filterMap Prod.fst)

theorem Framed.step {cfg : AggrCfg} {ctx : RmCdcNcmCtx} {calls : List (Option IpPacket × Bool)}
    {outs : List AggrResult} (call : Option IpPacket × Bool) (h : Framed cfg ctx calls outs) :
    ∃ ctx' res, txFixupStep cfg ctx call = some (ctx', res) ∧
      Framed cfg ctx' (calls ++ [call]) (outs ++ [res]) := by
  obtain ⟨groups, ps, rem, hheld, hrem, hsent, hsub⟩ := h
  obtain ⟨res, hres, -, hspec⟩ := aggrTxFrame_spec (call.1.map txFrame) call.2 hheld
  refine ⟨res.ctx, res, by rw [txFixupStep, gobiNetDriverTxFixup, hres]; rfl, ?_⟩
  have hqueue : ctx.txRemSkb.toList ++ (call.1.map txFrame).toList =
      (rem.toList ++ call.1.toList).map txFrame := by
    rw [hrem, List.map_append]
    cases rem <;> cases call.1 <;> rfl
  have hcalls : (calls ++ [call]).filterMap Prod.fst =
      calls.filterMap Prod.fst ++ call.1.toList := by
    cases hc : call.1 <;> simp [hc]
  have hgrow {xs : List IpPacket} (hxs : List.Sublist xs (rem.toList ++ call.1.toList)) :
      List.Sublist (groups.flatten ++ (ps ++ xs)) ((calls ++ [call]).filterMap Prod.fst) := by
    rw [hcalls]
    refine List.Sublist.trans ?_ (hsub.append (List.Sublist.refl call.1.toList))
    simpa using hxs
  rw [hqueue] at hspec
  rcases hspec with ⟨hnone, -, habort⟩ | ⟨-, taken, rest, hp⟩
  · obtain rfl : ps = [] := List.map_eq_nil_iff.mp (hheld.fresh hnone)
    refine ⟨groups, [], leftover 0 (rem.toList ++ call.1.toList), .of_none habort.buf, ?_, ?_,
      hgrow (leftover_sublist _ _)⟩
    · rw [habort.rem, leftover_map]
    · rwa [sentSkbs_append, habort.out, Option.toList_none, List.append_nil]
  · obtain ⟨taken', rest', hcut, rfl, rfl⟩ := List.map_eq_append_iff.mp hp.cut.symm
    obtain ⟨ready, -, hend⟩ := hp.ending
    rw [← List.map_append] at hend
    have hrem' : res.ctx.txRemSkb =
        Option.map txFrame (leftover (cfg.slots (ps.map txFrame)) rest') := by
      rw [hp.rem, leftover_map]
    have hgrow' := hgrow (hcut ▸ (List.Sublist.refl taken').append
      (leftover_sublist (cfg.slots (ps.map txFrame)) rest'))
    rcases hend.next with ⟨hout, hbuf⟩ | ⟨hout, hbuf, hne, hfits⟩
    · refine ⟨groups, ps ++ taken', _, hbuf, hrem', ?_, ?_⟩
      · rwa [sentSkbs_append, hout, Option.toList_none, List.append_nil]
      · simpa using hgrow'
    · have hcount : (ps ++ taken').length ≤ cfg.txMaxDatagrams.toNat := by
        have htaken := hp.taken_le
        have hslot := hheld.slot
        simp only [AggrCfg.slots, List.length_map, List.map_eq_nil_iff] at htaken hslot
        rw [List.length_append]
        rcases hslot with rfl | hslot
        · simpa using htaken
        · omega
      refine ⟨groups ++ [ps ++ taken'], [], _, hbuf, hrem', ?_, ?_⟩
      · rw [sentSkbs_append, hout, Option.toList_some]
        exact List.rel_append hsent (.cons (sentOf_accounted hne hfits hcount) .nil)
      · simpa using hgrow'

/-- Whatever packets are sent and whichever allocations fail, no `skb_put` runs over a
buffer, the room counter agrees with the buffer, and every buffer that is sent carries a
group of the submitted packets inside its limits and is accounted for. -/
theorem txFixup_accounted (cfg : AggrCfg) (calls : List (Option IpPacket × Bool)) :
    ∃ ctx outs groups, (txFixupStep cfg).run .probe calls = some (ctx, outs) ∧
      (∀ skbOut, ctx.txCurrSkb = some skbOut →
        skbOut.size = cfg.txMax.toNat ∧ ctx.txCurrSize + skbOut.data.length = cfg.txMax.toNat) ∧
      List.Forall₂ (Accounted cfg) (sentSkbs outs) groups ∧
      List.Sublist groups.flatten (calls.filterMap Prod.fst) := by
  have hstart : Framed cfg .probe [] [] :=
    ⟨[], [], none, .of_none rfl, rfl, .nil, List.Sublist.refl _⟩
  have hstep : ∀ ctx calls outs call, Framed cfg ctx calls outs → True →
      ∃ ctx' res, txFixupStep cfg ctx call = some (ctx', res) ∧
        Framed cfg ctx' (calls ++ [call]) (outs ++ [res]) := by
    intro ctx calls outs call h _
    exact h.step call
  have hcalls : ∀ call ∈ calls, True := fun _ _ => trivial
  obtain ⟨ctx, outs, hrun, groups, ps, rem, hheld, -, hsent, hsub⟩ :=
    Machine.run_history hstep hstart hcalls
  refine ⟨ctx, outs, groups, hrun, ?_, hsent, ?_⟩
  · intro skbOut hsome
    have hfilled := hheld.filled skbOut hsome
    exact ⟨hfilled.size, hfilled.room⟩
  · exact (List.sublist_append_left _ _).trans hsub

end UsbNet
