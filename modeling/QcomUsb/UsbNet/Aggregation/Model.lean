-- SUMMARY: Uplink aggregation: aggr_tx_frame as the driver computes it.
import QcomUsb.UsbNet.Qmap

/-!
# Uplink aggregation

`aggr_tx_frame` packs framed packets into one USB buffer. Between two calls the
buffer under construction waits in `tx_curr_skb`, and one packet that did not fit
waits in `tx_rem_skb`.
-/

namespace UsbNet

/-- A framed packet, `skb->data[0 .. skb->len)`. -/
abbrev Packet := List UInt8

/-- The buffer under construction: its bytes, and the size it was allocated with. -/
structure SkBuff where
  data : List UInt8
  size : Nat
  deriving DecidableEq, Repr

/-- `alloc_skb`. -/
def allocSkb (size : Nat) : SkBuff := ⟨[], size⟩

/-- `skb_put` and the `memcpy` into the new tail. `none` is `skb_over_panic`. -/
def skbPut (skb : SkBuff) (bytes : List UInt8) : Option SkBuff :=
  if skb.data.length + bytes.length ≤ skb.size then some { skb with data := skb.data ++ bytes }
  else none

/-- The fields of `rm_cdc_ncm_ctx` that stay fixed while packets flow. -/
structure AggrCfg where
  txMax : UInt32
  txMaxDatagrams : UInt16
  timerInterval : Int
  stop : Bool
  deriving DecidableEq, Repr

/-- The fields of `rm_cdc_ncm_ctx` that `aggr_tx_frame` and the timer change. `txTimer`
is `hrtimer_active`, `bh` tells that the tasklet is scheduled. -/
structure RmCdcNcmCtx where
  txTimer : Bool
  bh : Bool
  txCurrSkb : Option SkBuff
  txRemSkb : Option Packet
  txTimerPending : Int
  txCurrFrameNum : Nat
  txCurrSize : Nat
  txCurrFramePayload : Nat
  txReasonMaxDatagram : Nat
  txOverhead : Nat
  deriving DecidableEq, Repr

/-- The context set up by `GobiUSBNetProbe`. -/
def RmCdcNcmCtx.probe : RmCdcNcmCtx where
  txTimer := false
  bh := false
  txCurrSkb := none
  txRemSkb := none
  txTimerPending := 0
  txCurrFrameNum := 0
  txCurrSize := 0
  txCurrFramePayload := 0
  txReasonMaxDatagram := 0
  txOverhead := 0

/-- `CDC_NCM_RESTART_TIMER_DATAGRAM_CNT`. -/
def cdcNcmRestartTimerDatagramCnt : Nat := 3

/-- `CDC_NCM_TIMER_PENDING_CNT`. -/
def cdcNcmTimerPendingCnt : Int := 2

/-- A buffer that `aggr_tx_frame` returns, with the two values it passes to
`usbnet_set_skb_tx_stats`. -/
structure SentSkb where
  data : List UInt8
  packets : Nat
  bytesDelta : Int
  deriving DecidableEq, Repr

/-- What a call of `aggr_tx_frame` leaves behind. `txDropped` counts the packets it
drops. -/
structure AggrResult where
  ctx : RmCdcNcmCtx
  skbOut : Option SentSkb
  txDropped : Nat
  deriving DecidableEq, Repr

/-- `cdc_ncm_tx_timeout_start`. -/
def cdcNcmTxTimeoutStart (cfg : AggrCfg) (ctx : RmCdcNcmCtx) : RmCdcNcmCtx :=
  if !(ctx.txTimer || cfg.stop) then { ctx with txTimer := true } else ctx

/-- The variables of the loop: the locals of `aggr_tx_frame`, and the fields of the
context that the loop changes. -/
structure AggrVars where
  skb : Option Packet
  txRemSkb : Option Packet
  skbOut : SkBuff
  txCurrSize : Nat
  txCurrFramePayload : Nat
  n : Nat
  ready2send : Bool
  txDropped : Nat

/-- `skb->len - sizeof(qmap_t) - ((qmap_p)tmp)->cd_rsvd_pad`, in 64 bits. -/
def payloadLen (skb : Packet) : Nat :=
  (skb.length + 2 ^ 64 - QmapHdr.size - (skb.headD 0).toNat) % 2 ^ 64

/-- Send any remaining skb first. -/
def AggrVars.takeUp (v : AggrVars) : AggrVars :=
  if v.skb.isNone then { v with skb := v.txRemSkb, txRemSkb := none } else v

/-- The bookkeeping for a packet that was put into `skbOut`. -/
def AggrVars.count (v : AggrVars) (skb : Packet) (skbOut : SkBuff) : AggrVars :=
  { v with
    skb := none
    skbOut := skbOut
    txCurrSize := v.txCurrSize - skb.length
    txCurrFramePayload := (v.txCurrFramePayload + payloadLen skb) % 2 ^ 32
    n := v.n + 1 }

/-- The loop of `aggr_tx_frame`, with `slots` turns to go. -/
def aggrLoop : Nat → AggrVars → Option AggrVars
  | 0, v => some v
  | slots + 1, v =>
    let v := v.takeUp
    match v.skb with
    -- check for end of skb
    | none => some v
    | some skb =>
      if v.txCurrSize < skb.length then
        -- no room for skb - store for later
        some { v with
          skb := none
          txRemSkb := some skb
          ready2send := true
          txDropped := v.txDropped + if v.txRemSkb.isSome then 1 else 0 }
      else
        match skbPut v.skbOut skb with
        | none => none
        | some skbOut => aggrLoop slots (v.count skb skbOut)

/-- `exit_no_skb`. -/
def exitNoSkb (cfg : AggrCfg) (ctx : RmCdcNcmCtx) (n txDropped : Nat) : AggrResult where
  ctx := if ctx.txCurrSkb.isSome ∧ n > 0 then cdcNcmTxTimeoutStart cfg ctx else ctx
  skbOut := none
  txDropped := txDropped

/-- The loop works on the fields of the context in place. -/
def RmCdcNcmCtx.update (ctx : RmCdcNcmCtx) (v : AggrVars) : RmCdcNcmCtx :=
  { ctx with
    txRemSkb := v.txRemSkb
    txCurrSize := v.txCurrSize
    txCurrFramePayload := v.txCurrFramePayload
    txCurrFrameNum := v.n }

/-- Wait for more frames: push variables. -/
def RmCdcNcmCtx.push (ctx : RmCdcNcmCtx) (skbOut : SkBuff) (txTimerPending : Int) : RmCdcNcmCtx :=
  { ctx with txCurrSkb := some skbOut, txTimerPending := txTimerPending }

/-- The frame goes out, and the variables are reset for the next one. -/
def RmCdcNcmCtx.reset (cfg : AggrCfg) (ctx : RmCdcNcmCtx) (v : AggrVars) : RmCdcNcmCtx :=
  { ctx with
    txReasonMaxDatagram :=
      if v.n = cfg.txMaxDatagrams.toNat then (ctx.txReasonMaxDatagram + 1) % 2 ^ 32
      else ctx.txReasonMaxDatagram
    txCurrSkb := none
    txCurrFrameNum := 0
    txCurrSize := 0
    txOverhead := (ctx.txOverhead +
      (v.skbOut.data.length + 2 ^ 32 - v.txCurrFramePayload) % 2 ^ 32) % 2 ^ 64
    txCurrFramePayload := 0 }

/-- `usbnet_set_skb_tx_stats` on the buffer that goes out. -/
def AggrVars.sent (v : AggrVars) : SentSkb where
  data := v.skbOut.data
  packets := v.n
  bytesDelta := (v.txCurrFramePayload : Int) - v.skbOut.data.length

/-- Whether `aggr_tx_frame` waits for more frames. -/
def AggrVars.Waits (cfg : AggrCfg) (v : AggrVars) : Prop :=
  v.n < cfg.txMaxDatagrams.toNat ∧ v.ready2send = false ∧ cfg.timerInterval > 0

instance (cfg : AggrCfg) (v : AggrVars) : Decidable (v.Waits cfg) :=
  inferInstanceAs (Decidable (_ ∧ _ ∧ _))

/-- `aggr_tx_frame` from behind the loop on. -/
def aggrExit (cfg : AggrCfg) (ctx : RmCdcNcmCtx) (v : AggrVars) : AggrResult :=
  -- free up any dangling skb
  let dropped := v.txDropped + if v.skb.isSome then 1 else 0
  let ctx := ctx.update v
  if v.n = 0 then exitNoSkb cfg (ctx.push v.skbOut ctx.txTimerPending) v.n dropped
  else if v.Waits cfg then
    let pending :=
      if v.n < cdcNcmRestartTimerDatagramCnt then cdcNcmTimerPendingCnt else ctx.txTimerPending
    exitNoSkb cfg (ctx.push v.skbOut pending) v.n dropped
  else ⟨ctx.reset cfg v, some v.sent, dropped⟩

/-- `aggr_tx_frame` with an OUT skb at hand. -/
def aggrFrames (cfg : AggrCfg) (ctx : RmCdcNcmCtx) (skb : Option Packet) (ready2send : Bool)
    (skbOut : SkBuff) : Option AggrResult :=
  (aggrLoop (cfg.txMaxDatagrams.toNat - ctx.txCurrFrameNum)
    { skb := skb
      txRemSkb := ctx.txRemSkb
      skbOut := skbOut
      txCurrSize := ctx.txCurrSize
      txCurrFramePayload := ctx.txCurrFramePayload
      n := ctx.txCurrFrameNum
      ready2send := ready2send
      txDropped := 0 }).map (aggrExit cfg ctx)

/-- `aggr_tx_frame` behind the swap. `alloc` tells whether `alloc_skb` succeeds, should
it be called. -/
def aggrResume (cfg : AggrCfg) (ctx : RmCdcNcmCtx) (skb : Option Packet) (ready2send alloc : Bool) :
    Option AggrResult :=
  match ctx.txCurrSkb with
  | some skbOut => aggrFrames cfg ctx skb ready2send skbOut
  | none =>
    let ctx := { ctx with txCurrSize := cfg.txMax.toNat }
    if alloc then
      aggrFrames cfg { ctx with txCurrFrameNum := 0, txCurrFramePayload := 0 } skb ready2send
        (allocSkb ctx.txCurrSize)
    else
      -- No allocation possible so we will abort
      some (exitNoSkb cfg ctx 0 (if skb.isSome then 1 else 0))

/-- `aggr_tx_frame`. A remaining skb gets priority over the new one; the call without a
packet is the timer's flush. -/
def aggrTxFrame (cfg : AggrCfg) (ctx : RmCdcNcmCtx) (skb : Option Packet) (alloc : Bool) :
    Option AggrResult :=
  match skb with
  | some p => aggrResume cfg { ctx with txRemSkb := some p } ctx.txRemSkb false alloc
  | none => aggrResume cfg ctx none true alloc

end UsbNet
