-- SUMMARY: Burst pacing of the write thread: the two counts, the timer with its DPC, and the remove lock.
import QcomUsb.Library.Transducer
import QcomUsb.Transport.WriteBuffers

/-!
# Burst pacing

`USBMWT_BurstCheck` counts what is sent and what has come back. In `EQUAL_GAP` the writes are stopped
when a burst is sent, and `BurstTimer` is started when the burst is back. In `EQUAL_INTERVAL` the
timer is started by the first transfer that is sent. `USBMWT_BurstDpcRoutine` starts the writes again.
-/

namespace Transport.Mwt

open Transition

/-- `BurstFashion`. -/
inductive BurstFashion
  | equalGap
  | equalInterval
deriving DecidableEq

/-- The settings of `USBMWT_InitializeBurstSettings`. -/
structure BurstCfg where
  mwt : Cfg
  burstFashion : BurstFashion
  burstSize : UInt32
  burstInterval : UInt32

/-- Bursts are enabled. -/
def BurstCfg.enabled (cfg : BurstCfg) : Bool := cfg.burstSize ≠ 0 && cfg.burstInterval ≠ 0

/-- The write thread with its burst counts, `BurstTimer` and `BurstDpc`. Observers count the calls
for the remove lock of the timer, the transfers that were sent and those the thread has taken back,
and keep how many were sent when `USBMWT_BurstCheck` last stopped the writes, unless they were
started since. They also keep whether a WRITE_STOP is in force, whether it was acknowledged, and
whether a transfer was sent then. -/
structure BurstState where
  mwt : State
  burstPendingCount : UInt32
  burstCount : UInt32
  burstTimerLaunched : Bool
  armed : Bool
  dpcQueued : Bool
  dpcRunning : Nat
  acquired : Nat
  released : Nat
  sent : Nat
  returned : Nat
  burstStop : Option Nat
  stopInForce : Bool
  stopAcked : Bool
  sentStopped : Bool

inductive BurstOp
  /-- A step of the write thread, and whether `IoAcquireRemoveLock` succeeds in it. -/
  | mwt (op : Op) (acquires : Bool)
  | expire
  | dpcStart
  | dpcEnd
deriving DecidableEq

/-- A count of bytes goes on, or starts anew when it has come to the size of a burst. -/
def burstStep (burstSize count transferSize : UInt32) : UInt32 × Bool :=
  if burstSize ≤ count + transferSize then (0, true) else (count + transferSize, false)

namespace BurstState

def initial (cfg : BurstCfg) : BurstState where
  mwt := .initial cfg.mwt
  burstPendingCount := 0
  burstCount := 0
  burstTimerLaunched := false
  armed := false
  dpcQueued := false
  dpcRunning := 0
  acquired := 0
  released := 0
  sent := 0
  returned := 0
  burstStop := none
  stopInForce := false
  stopAcked := false
  sentStopped := false

/-- `USBMWT_BurstCheck` with `BURST_SEND`. -/
def burstCheckSend (cfg : BurstCfg) (s : BurstState) (transferSize : UInt32) : BurstState :=
  if cfg.enabled = false then s
  else
    let (count, full) := burstStep cfg.burstSize s.burstPendingCount transferSize
    let s :=
      { s with
        burstPendingCount := count
        mwt := { s.mwt with bWriteStopped := s.mwt.bWriteStopped || full }
        burstStop := if full then some (s.sent + 1) else s.burstStop }
    if cfg.burstFashion = .equalInterval ∧ s.burstTimerLaunched = false then
      { s with burstTimerLaunched := true, armed := true }
    else s

/-- `USBMWT_BurstCheck` with `BURST_COMPLETION`. Without the remove lock the count stays. -/
def burstCheckCompletion (cfg : BurstCfg) (s : BurstState) (acquires : Bool)
    (transferSize : UInt32) : BurstState :=
  if cfg.enabled = false ∨ cfg.burstFashion = .equalInterval then s
  else
    let (count, full) := burstStep cfg.burstSize s.burstCount transferSize
    if full then
      if acquires then
        { s with
          burstCount := count
          acquired := s.acquired + 1
          burstTimerLaunched := true
          armed := true }
      else { s with burstCount := s.burstCount + transferSize }
    else { s with burstCount := count }

/-- `USBMWT_CancelBurstTimer`. -/
def cancelBurstTimer (cfg : BurstCfg) (s : BurstState) : BurstState :=
  if cfg.enabled = false then s
  else if s.armed then { s with armed := false, released := s.released + 1 }
  else s

/-- `USBMWT_BurstDpcRoutine` starts the writes. -/
def dpcStart (s : BurstState) : BurstState :=
  { s with
    dpcQueued := false
    dpcRunning := s.dpcRunning + 1
    mwt := { s.mwt with bWriteStopped := false }
    burstStop := none }

/-- The rest of `USBMWT_BurstDpcRoutine`. -/
def dpcEnd (cfg : BurstCfg) (s : BurstState) : BurstState :=
  { s with
    dpcRunning := s.dpcRunning - 1
    burstTimerLaunched :=
      if cfg.burstFashion = .equalInterval then false else s.burstTimerLaunched
    released := s.released + 1 }

/-- What the observers make of an event that the thread has taken. -/
def observe (s : BurstState) : State.Event → BurstState
  | .stop => { s with stopInForce := true, stopAcked := s.stopAcked || !s.mwt.stopOwed }
  | .resume _ | .flowOn _ =>
    { s with
      stopInForce := false
      stopAcked := false
      burstStop := if s.mwt.bWriteStopped then s.burstStop else none }
  | _ => s

/-- The thread has gone on to `t`. -/
def threadStep (cfg : BurstCfg) (s : BurstState) (acquires : Bool) (event : State.Event)
    (t : State) : BurstState :=
  match s.mwt.phase with
  | .send _ irp =>
    -- without a record there is nothing to send with
    if s.mwt.mwtSentIrpRecordPool = 0 then { s with mwt := t }
    else
      { { s with mwt := t }.burstCheckSend cfg (UInt32.ofNat (s.mwt.reqBytes irp)) with
        sent := s.sent + 1
        sentStopped := s.sentStopped || s.stopAcked }
  | .wait =>
    if t.phase = .exited then { s with mwt := t }.cancelBurstTimer cfg
    else { s with mwt := t }.observe event
  | .process b =>
    { { s with mwt := t }.burstCheckCompletion cfg acquires
        (UInt32.ofNat (s.mwt.pMwtBuffer b).length) with
      returned := s.returned + 1
      stopAcked := s.stopAcked || (s.mwt.stopOwed && !t.stopOwed) }
  | _ => { s with mwt := t }

def step (cfg : BurstCfg) (s : BurstState) : BurstOp → Option BurstState
  | .expire => if s.armed then some { s with armed := false, dpcQueued := true } else none
  | .dpcStart => if s.dpcQueued then some s.dpcStart else none
  | .dpcEnd => if 0 < s.dpcRunning then some (s.dpcEnd cfg) else none
  | .mwt op acquires =>
    (Mwt.step cfg.mwt s.mwt op).map fun t =>
      match op with
      | .thread _ event => s.threadStep cfg acquires event t
      | _ => { s with mwt := t }

end BurstState

/-- The write thread with burst pacing. -/
def writeBurst (cfg : BurstCfg) : Machine BurstState BurstOp Unit := fun s op =>
  (s.step cfg op).map fun s' => (s', ())

theorem step_of_writeBurst {cfg : BurstCfg} {s s' : BurstState} {op : BurstOp} {o : Unit}
    (h : writeBurst cfg s op = some (s', o)) : s.step cfg op = some s' := by
  obtain ⟨t, ht, heq⟩ := Option.map_eq_some_iff.mp h
  obtain rfl : t = s' := congrArg Prod.fst heq
  exact ht

/-! ## A small device -/

/-- Bursts of three bytes. -/
def burstsOfThree : BurstCfg := ⟨twoBuffers, .equalGap, 3, 10⟩

/-- A write of three bytes stops the writes. It comes back, the timer starts the writes, and the
second one is sent. -/
def gapRun : List BurstOp :=
  ([Op.enqueue ⟨0, [1, 2, 3]⟩, .enqueue ⟨1, [4, 5, 6]⟩] ++ List.replicate 4 (Op.thread false .kick) ++
      [Op.usbCompletes 0 3 .success, .thread false .completion, .thread false .kick]).map
        (BurstOp.mwt · true) ++
    [.expire, .dpcStart, .dpcEnd] ++
    (List.replicate 3 (Op.thread false .kick)).map (BurstOp.mwt · true)

end Transport.Mwt
