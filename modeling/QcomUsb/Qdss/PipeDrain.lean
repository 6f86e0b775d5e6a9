-- SUMMARY: The draining of the DPL pipe: the routines that start and stop it and complete its reads, step by step, and that the count of reads under way is right whatever the order of the steps.
import QcomUsb.Library.Routines
import QcomUsb.Library.Transition

/-!
# Pipe draining

While nobody reads from the DPL pipe the driver reads it itself, with requests that it sends again each
time they are complete. `PipeDrainStart`, the completion routine and the cleanup of the device are at
work at the same time, and only `PipeDrain` is written under a lock.
-/

namespace Qdss

open Transition Routines

/-! ## The code -/

/-- The status of a completed read, as far as `PipeDrainCompletion` tells them apart. -/
inductive DrainStatus
  | success
  | cancelled
  | unsuccessful
  | other
  deriving DecidableEq

/-- Where a call of `SendIOBlock` is. -/
inductive SendPc
  | testPending
  | format
  | setPending
  | increment
  | send
  | rewind
  deriving DecidableEq

/-- A routine at work, and where it is. -/
inductive Routine
  -- `PipeDrainStart`, in front of the test of its loop and inside of it
  | startLoop (i : Nat)
  | startSend (i : Nat) (pc : SendPc)
  -- `PipeDrainCompletion`
  | completed (i : Nat) (status : DrainStatus) (readLength : UInt32)
  | testDrain (i : Nat) (sendAgain : Bool)
  | testRemoval (i : Nat) (sendAgain : Bool)
  | clearPending (i : Nat) (sendAgain : Bool)
  | sendAgain (i : Nat) (pc : SendPc)
  | decrement
  | testSignal
  -- `EvtDeviceCleanupCallback`
  | clearDrain
  | waitForDrainToStop
  | pollDraining
  | waitAgain
  | freeIoBuffer
  deriving DecidableEq

structure DeviceContext where
  numOfRxReqs : Nat
  ioFailureThreshold : UInt32
  pipeDrain : Bool
  deviceRemoval : Bool
  isPending : Nat → Bool
  drainingRx : Int
  bytesDrained : UInt32
  ioFailureCount : UInt32
  drainStoppedEvent : Bool
  -- the requests that the USB stack has
  atUsb : List Nat
  routines : List Routine
  freed : Bool

/-- The device when `EvtDevicePrepareHW` has allocated its requests. -/
def DeviceContext.prepared (numOfRxReqs : Nat) (ioFailureThreshold : UInt32) : DeviceContext where
  numOfRxReqs := numOfRxReqs
  ioFailureThreshold := ioFailureThreshold
  pipeDrain := false
  deviceRemoval := false
  isPending := fun _ => false
  drainingRx := 0
  bytesDrained := 0
  ioFailureCount := 0
  drainStoppedEvent := false
  atUsb := []
  routines := []
  freed := false

/-- `SendIOBlock`. `ok` is the answer of the framework, and `none` the return. -/
def DeviceContext.sendIoBlock (s : DeviceContext) (i : Nat) (pc : SendPc) (ok : Bool) :
    DeviceContext × Option SendPc :=
  match pc with
  | .testPending => (s, if s.isPending i then none else some .format)
  | .format => (s, if ok then some .setPending else none)
  | .setPending => ({ s with isPending := Function.update s.isPending i true }, some .increment)
  | .increment => ({ s with drainingRx := s.drainingRx + 1 }, some .send)
  | .send => if ok then ({ s with atUsb := i :: s.atUsb }, none) else (s, some .rewind)
  | .rewind => ({ s with drainingRx := s.drainingRx - 1 }, none)

/-- The status of a completed read: the counts, and `sendAgain`. -/
def DeviceContext.readCompleted (s : DeviceContext) (status : DrainStatus) (readLength : UInt32) :
    DeviceContext × Bool :=
  match status with
  | .success =>
    ({ s with ioFailureCount := 0, bytesDrained := s.bytesDrained + readLength }, true)
  | .other => (s, false)
  | _ =>
    ({ s with ioFailureCount := s.ioFailureCount + 1 },
      !decide (s.ioFailureCount + 1 > s.ioFailureThreshold))

/-- One step of a routine, and where it is then. -/
def DeviceContext.turn (s : DeviceContext) (r : Routine) (ok : Bool) : DeviceContext × Option Routine :=
  match r with
  | .startLoop i => (s, if i < s.numOfRxReqs then some (.startSend i .testPending) else none)
  | .startSend i pc =>
    let (s, pc) := s.sendIoBlock i pc ok
    (s, some (match pc with | some pc => .startSend i pc | none => .startLoop (i + 1)))
  | .completed i status readLength =>
    let (s, again) := s.readCompleted status readLength
    (s, some (.testDrain i again))
  | .testDrain i again =>
    (s, some (if s.pipeDrain then .testRemoval i again else .clearPending i false))
  | .testRemoval i again => (s, some (.clearPending i (again && !s.deviceRemoval)))
  | .clearPending i again =>
    ({ s with isPending := Function.update s.isPending i false },
      some (if again then .sendAgain i .testPending else .decrement))
  | .sendAgain i pc =>
    let (s, pc) := s.sendIoBlock i pc ok
    (s, some (match pc with | some pc => .sendAgain i pc | none => .decrement))
  | .decrement =>
    ({ s with drainingRx := s.drainingRx - 1 }, if s.drainingRx - 1 = 0 then some .testSignal else none)
  | .testSignal => (if s.deviceRemoval then { s with drainStoppedEvent := true } else s, none)
  | .clearDrain => ({ s with pipeDrain := false }, some .waitForDrainToStop)
  -- `ok` if the event ends the wait, which it resets
  | .waitForDrainToStop =>
    if ok ∧ s.drainStoppedEvent = true then ({ s with drainStoppedEvent := false }, some .freeIoBuffer)
    else (s, some .pollDraining)
  | .pollDraining => (s, some (if s.drainingRx = 0 then .freeIoBuffer else .waitAgain))
  | .waitAgain =>
    (if ok then { s with drainStoppedEvent := false } else s, some .pollDraining)
  | .freeIoBuffer => ({ s with freed := true }, none)

inductive Op
  | pipeDrainStart
  | pipeDrainStop
  | usbCompletes (i : Nat) (status : DrainStatus) (readLength : UInt32)
  | evtDeviceCleanup
  | turn (r : Routine) (ok : Bool)

def DeviceContext.step (s : DeviceContext) : Op → Option DeviceContext
  | .pipeDrainStart =>
    some (if s.pipeDrain then s
      else { s with pipeDrain := true, bytesDrained := 0, routines := .startLoop 0 :: s.routines })
  | .pipeDrainStop => some { s with pipeDrain := false }
  | .usbCompletes i status readLength =>
    if i ∈ s.atUsb then
      some { s with
        atUsb := s.atUsb.erase i
        routines := .completed i status readLength :: s.routines }
    else none
  | .evtDeviceCleanup => some { s with deviceRemoval := true, routines := .clearDrain :: s.routines }
  | .turn r ok =>
    if r ∈ s.routines then
      let (t, next) := s.turn r ok
      some { t with routines := advance s.routines r next }
    else none

/-- The driver, one step of one routine at a time. -/
def drainMachine : Machine DeviceContext Op Unit := fun s op => (s.step op).map fun t => (t, ())

/-! ## The steps -/

variable {s t : DeviceContext} {r : Routine} {ok : Bool} {op : Op} {i : Nat} {pc : SendPc}

theorem drainMachine_eq_some {o : Unit} : drainMachine s op = some (t, o) ↔ s.step op = some t := by
  simp [drainMachine]

theorem step_turn_eq_some (h : s.step (.turn r ok) = some t) :
    r ∈ s.routines ∧
      t = { (s.turn r ok).1 with routines := advance s.routines r (s.turn r ok).2 } := by
  rw [DeviceContext.step] at h
  split_ifs at h with hr
  exact ⟨hr, (Option.some.inj h).symm⟩

theorem step_usbCompletes_eq_some {status : DrainStatus} {readLength : UInt32}
    (h : s.step (.usbCompletes i status readLength) = some t) :
    i ∈ s.atUsb ∧ t = { s with
      atUsb := s.atUsb.erase i, routines := .completed i status readLength :: s.routines } := by
  rw [DeviceContext.step] at h
  split_ifs at h with hi
  exact ⟨hi, (Option.some.inj h).symm⟩

/-! ## The count of reads -/

/-- What a call of `SendIOBlock` has counted and not sent. -/
def SendPc.counted : SendPc → Nat
  | .send | .rewind => 1
  | _ => 0

/-- What a routine has counted. A completion routine has counted its own read until it is done. -/
def Routine.counted : Routine → Nat
  | .startSend _ pc => pc.counted
  | .completed _ _ _ | .testDrain _ _ | .testRemoval _ _ | .clearPending _ _ | .decrement => 1
  | .sendAgain _ pc => 1 + pc.counted
  | _ => 0

/-- The count has the reads that the USB stack has and those that the routines have counted. -/
def DeviceContext.Counted (s : DeviceContext) : Prop :=
  s.drainingRx = s.atUsb.length + total Routine.counted s.routines

theorem sendIoBlock_counted (s : DeviceContext) (i : Nat) (pc : SendPc) (ok : Bool) :
    (s.sendIoBlock i pc ok).1.drainingRx + s.atUsb.length + pc.counted =
      s.drainingRx + (s.sendIoBlock i pc ok).1.atUsb.length +
        ((s.sendIoBlock i pc ok).2.elim 0 SendPc.counted : Nat) := by
  cases pc with
  | testPending => cases h : s.isPending i <;> simp [DeviceContext.sendIoBlock, SendPc.counted, h]
  | format => cases ok <;> simp [DeviceContext.sendIoBlock, SendPc.counted]
  | setPending => simp [DeviceContext.sendIoBlock, SendPc.counted]
  | increment =>
    simp [DeviceContext.sendIoBlock, SendPc.counted]
    omega
  | send =>
    cases ok
    · simp [DeviceContext.sendIoBlock, SendPc.counted]
    · simp [DeviceContext.sendIoBlock, SendPc.counted]
      omega
  | rewind =>
    simp [DeviceContext.sendIoBlock, SendPc.counted]
    omega

theorem readCompleted_same (s : DeviceContext) (status : DrainStatus) (readLength : UInt32) :
    (s.readCompleted status readLength).1.drainingRx = s.drainingRx ∧
      (s.readCompleted status readLength).1.atUsb = s.atUsb := by
  cases status <;> exact ⟨rfl, rfl⟩

/-- A routine changes the count by what it has counted itself. -/
theorem turn_counted (s : DeviceContext) (r : Routine) (ok : Bool) :
    (s.turn r ok).1.drainingRx + s.atUsb.length + r.counted =
      s.drainingRx + (s.turn r ok).1.atUsb.length + held Routine.counted (s.turn r ok).2 := by
  cases r with
  | startSend i pc =>
    have h := sendIoBlock_counted s i pc ok
    rw [DeviceContext.turn]
    cases hpc : (s.sendIoBlock i pc ok).2 <;> simp_all [Routine.counted]
  | sendAgain i pc =>
    have h := sendIoBlock_counted s i pc ok
    rw [DeviceContext.turn]
    cases hpc : (s.sendIoBlock i pc ok).2 <;> simp_all [Routine.counted] <;> omega
  | completed i status readLength =>
    have h := readCompleted_same s status readLength
    simp [DeviceContext.turn, Routine.counted, h]
  | startLoop i =>
    by_cases h : i < s.numOfRxReqs <;> simp [DeviceContext.turn, Routine.counted, SendPc.counted, h]
  | testDrain i again => cases h : s.pipeDrain <;> simp [DeviceContext.turn, Routine.counted, h]
  | testRemoval i again => simp [DeviceContext.turn, Routine.counted]
  | clearPending i again => cases again <;> simp [DeviceContext.turn, Routine.counted, SendPc.counted]
  | decrement =>
    by_cases h : s.drainingRx - 1 = 0
    · simp [DeviceContext.turn, Routine.counted, h]
      omega
    · simp [DeviceContext.turn, Routine.counted, h]
      omega
  | testSignal => cases h : s.deviceRemoval <;> simp [DeviceContext.turn, Routine.counted, h]
  | waitForDrainToStop =>
    by_cases h : ok = true ∧ s.drainStoppedEvent = true <;>
      simp [DeviceContext.turn, Routine.counted, h]
  | pollDraining =>
    by_cases h : s.drainingRx = 0 <;> simp [DeviceContext.turn, Routine.counted, h]
  | waitAgain => cases ok <;> simp [DeviceContext.turn, Routine.counted]
  | clearDrain => simp [DeviceContext.turn, Routine.counted]
  | freeIoBuffer => simp [DeviceContext.turn, Routine.counted]

theorem DeviceContext.Counted.step (h : s.Counted) (hs : s.step op = some t) : t.Counted := by
  rw [DeviceContext.Counted] at h ⊢
  cases op with
  | pipeDrainStart =>
    obtain rfl := Option.some.inj hs
    split_ifs
    · exact h
    · simpa [Routine.counted] using h
  | pipeDrainStop =>
    obtain rfl := Option.some.inj hs
    exact h
  | usbCompletes i status readLength =>
    obtain ⟨hi, rfl⟩ := step_usbCompletes_eq_some hs
    have hlen := List.length_erase_of_mem hi
    have hpos := List.length_pos_of_mem hi
    rw [h, total_cons, hlen, Routine.counted]
    push_cast
    omega
  | evtDeviceCleanup =>
    obtain rfl := Option.some.inj hs
    simpa [Routine.counted] using h
  | turn r ok =>
    obtain ⟨hr, rfl⟩ := step_turn_eq_some hs
    have hturn := turn_counted s r ok
    have htotal := total_advance Routine.counted (s.turn r ok).2 hr
    dsimp only
    omega

/-- `DrainingRx` has the reads that the USB stack has and those that the routines have counted. It never
falls below zero, and at zero no read is under way. -/
theorem visits_counted (numOfRxReqs : Nat) (ioFailureThreshold : UInt32) (ops : List Op) :
    ∀ t ∈ drainMachine.visits (.prepared numOfRxReqs ioFailureThreshold) ops,
      t.drainingRx = t.atUsb.length + total Routine.counted t.routines :=
  Machine.visits_all
    (fun _ _ _ _ h (_ : True) hs => DeviceContext.Counted.step h (drainMachine_eq_some.mp hs)) rfl
    fun _ _ => trivial

/-- The one request is complete and not sent again, since the device is being removed. -/
def sampleOps : List Op :=
  [.pipeDrainStart, .turn (.startLoop 0) true, .turn (.startSend 0 .testPending) true,
    .turn (.startSend 0 .format) true, .turn (.startSend 0 .setPending) true,
    .turn (.startSend 0 .increment) true, .turn (.startSend 0 .send) true, .turn (.startLoop 1) true,
    .usbCompletes 0 .success 64, .turn (.completed 0 .success 64) true, .turn (.testDrain 0 true) true,
    .evtDeviceCleanup, .turn (.testRemoval 0 true) true, .turn .clearDrain true,
    .turn (.clearPending 0 false) true, .turn .decrement true, .turn .testSignal true,
    .turn .waitForDrainToStop true, .turn .freeIoBuffer true]

theorem visits_counted_sample : ∃ t ∈ drainMachine.visits (.prepared 1 24) (sampleOps.take 7),
    t.drainingRx = 1 ∧ t.drainingRx = t.atUsb.length + total Routine.counted t.routines := by
  have hne : drainMachine.visits (.prepared 1 24) (sampleOps.take 7) ≠ [] :=
    List.ne_nil_of_mem (Machine.start_mem_visits _ _)
  exact ⟨_, List.getLast_mem hne, rfl, visits_counted 1 24 _ _ (List.getLast_mem hne)⟩

/-! ## The cleanup -/

/-- The function that a routine is a part of. -/
inductive Callback
  | pipeDrainStart
  | pipeDrainCompletion
  | evtDeviceCleanup
  deriving DecidableEq

def Routine.callback : Routine → Callback
  | .startLoop _ | .startSend _ _ => .pipeDrainStart
  | .completed _ _ _ | .testDrain _ _ | .testRemoval _ _ | .clearPending _ _ | .sendAgain _ _
  | .decrement | .testSignal => .pipeDrainCompletion
  | .clearDrain | .waitForDrainToStop | .pollDraining | .waitAgain | .freeIoBuffer => .evtDeviceCleanup

/-- The cleanup comes once, and not while draining is being started or a completion routine that has
brought the count to zero has yet to test for it. Draining is not started afterwards. -/
def Op.Orderly (s : DeviceContext) : Op → Prop
  | .pipeDrainStart => s.deviceRemoval = false
  | .evtDeviceCleanup =>
    s.deviceRemoval = false ∧ .testSignal ∉ s.routines ∧
      ∀ r ∈ s.routines, r.callback ≠ .pipeDrainStart
  | _ => True

/-- Something says that no read is under way. -/
def DeviceContext.SaysQuiet (s : DeviceContext) : Prop :=
  s.drainStoppedEvent = true ∨ s.freed = true ∨ .testSignal ∈ s.routines ∨
    .freeIoBuffer ∈ s.routines

structure DeviceContext.CleanupInv (s : DeviceContext) : Prop where
  counted : s.Counted
  before : s.deviceRemoval = false →
    s.drainStoppedEvent = false ∧ s.freed = false ∧
      ∀ r ∈ s.routines, r.callback ≠ .evtDeviceCleanup
  noStart : s.deviceRemoval = true → ∀ r ∈ s.routines, r.callback ≠ .pipeDrainStart
  quiet : s.deviceRemoval = true → s.SaysQuiet → s.drainingRx = 0

/-! ### What a step can do -/

theorem sendIoBlock_same (s : DeviceContext) (i : Nat) (pc : SendPc) (ok : Bool) :
    (s.sendIoBlock i pc ok).1.deviceRemoval = s.deviceRemoval ∧
      (s.sendIoBlock i pc ok).1.drainStoppedEvent = s.drainStoppedEvent ∧
      (s.sendIoBlock i pc ok).1.freed = s.freed := by
  cases pc <;> cases ok <;> exact ⟨rfl, rfl, rfl⟩

theorem turn_deviceRemoval (s : DeviceContext) (r : Routine) (ok : Bool) :
    (s.turn r ok).1.deviceRemoval = s.deviceRemoval := by
  cases r with
  | startSend i pc => exact (sendIoBlock_same s i pc ok).1
  | sendAgain i pc => exact (sendIoBlock_same s i pc ok).1
  | completed i status readLength => cases status <;> rfl
  | testSignal => cases h : s.deviceRemoval <;> simp [DeviceContext.turn, h]
  | waitForDrainToStop =>
    by_cases h : ok = true ∧ s.drainStoppedEvent = true <;> simp [DeviceContext.turn, h]
  | waitAgain => cases ok <;> rfl
  | _ => rfl

theorem turn_callback {q : Routine} (h : (s.turn r ok).2 = some q) : q.callback = r.callback := by
  cases r with
  | startSend i pc =>
    simp only [DeviceContext.turn, Option.some.injEq] at h
    cases hpc : (s.sendIoBlock i pc ok).2 <;> (rw [hpc] at h; exact h ▸ rfl)
  | sendAgain i pc =>
    simp only [DeviceContext.turn, Option.some.injEq] at h
    cases hpc : (s.sendIoBlock i pc ok).2 <;> (rw [hpc] at h; exact h ▸ rfl)
  | testSignal | freeIoBuffer => simp [DeviceContext.turn] at h
  | startLoop | decrement =>
    simp only [DeviceContext.turn, Option.ite_none_right_eq_some, Option.some.injEq] at h
    exact h.2 ▸ rfl
  | testDrain | clearPending | pollDraining =>
    simp only [DeviceContext.turn, Option.some.injEq] at h
    split_ifs at h <;> exact h ▸ rfl
  | waitForDrainToStop =>
    simp only [DeviceContext.turn] at h
    split_ifs at h <;> exact Option.some.inj h ▸ rfl
  | completed | testRemoval | clearDrain | waitAgain => exact Option.some.inj h ▸ rfl

/-- What says that no read is under way did so before, or says it of a count of zero. -/
theorem turn_quiet (h : (s.turn r ok).1.drainStoppedEvent = true ∨ (s.turn r ok).1.freed = true ∨
      (s.turn r ok).2 = some .testSignal ∨ (s.turn r ok).2 = some .freeIoBuffer) :
    s.drainStoppedEvent = true ∨ s.freed = true ∨ r = .testSignal ∨ r = .freeIoBuffer ∨
      (s.turn r ok).1.drainingRx = 0 := by
  have hold : s.drainStoppedEvent = true ∨ s.freed = true → s.drainStoppedEvent = true ∨
      s.freed = true ∨ r = .testSignal ∨ r = .freeIoBuffer ∨ (s.turn r ok).1.drainingRx = 0 :=
    fun h => h.elim .inl fun hfreed => .inr (.inl hfreed)
  cases r with
  | startSend i pc =>
    obtain ⟨-, hevent, hfreed⟩ := sendIoBlock_same s i pc ok
    cases hpc : (s.sendIoBlock i pc ok).2 <;>
      exact hold (by simpa [DeviceContext.turn, hevent, hfreed, hpc] using h)
  | sendAgain i pc =>
    obtain ⟨-, hevent, hfreed⟩ := sendIoBlock_same s i pc ok
    cases hpc : (s.sendIoBlock i pc ok).2 <;>
      exact hold (by simpa [DeviceContext.turn, hevent, hfreed, hpc] using h)
  | testSignal => exact .inr (.inr (.inl rfl))
  | freeIoBuffer => exact .inr (.inr (.inr (.inl rfl)))
  | decrement =>
    by_cases hzero : s.drainingRx - 1 = 0
    · exact .inr (.inr (.inr (.inr hzero)))
    · exact hold (by simpa [DeviceContext.turn, hzero] using h)
  | pollDraining =>
    by_cases hzero : s.drainingRx = 0
    · exact .inr (.inr (.inr (.inr hzero)))
    · exact hold (by simpa [DeviceContext.turn, hzero] using h)
  | waitForDrainToStop =>
    by_cases hevent : s.drainStoppedEvent = true
    · exact .inl hevent
    · exact hold (by simpa [DeviceContext.turn, hevent] using h)
  | startLoop i =>
    by_cases hi : i < s.numOfRxReqs <;> exact hold (by simpa [DeviceContext.turn, hi] using h)
  | testDrain i again =>
    cases hdrain : s.pipeDrain <;> exact hold (by simpa [DeviceContext.turn, hdrain] using h)
  | clearPending i again => cases again <;> exact hold (by simpa [DeviceContext.turn] using h)
  | completed i status readLength =>
    cases status <;>
      exact hold (by simpa [DeviceContext.turn, DeviceContext.readCompleted] using h)
  | testRemoval | clearDrain => exact hold (by simpa [DeviceContext.turn] using h)
  | waitAgain =>
    cases ok
    · exact hold (by simpa [DeviceContext.turn] using h)
    · exact hold (.inr (by simpa [DeviceContext.turn] using h))

/-- A completion routine that has counted nothing, and the cleanup, leave the count alone. -/
theorem turn_drainingRx (hr : r.counted = 0) (hstart : r.callback ≠ .pipeDrainStart) :
    (s.turn r ok).1.drainingRx = s.drainingRx := by
  cases r with
  | startLoop | startSend => exact absurd rfl hstart
  | completed | testDrain | testRemoval | clearPending | decrement => simp [Routine.counted] at hr
  | sendAgain i pc => simp [Routine.counted] at hr
  | testSignal => cases h : s.deviceRemoval <;> simp [DeviceContext.turn, h]
  | waitForDrainToStop =>
    by_cases h : ok = true ∧ s.drainStoppedEvent = true <;> simp [DeviceContext.turn, h]
  | waitAgain => cases ok <;> rfl
  | clearDrain | pollDraining | freeIoBuffer => rfl

/-- Before the cleanup nobody says that no read is under way. -/
theorem turn_flags (ok : Bool) (hremoval : s.deviceRemoval = false)
    (hr : r.callback ≠ .evtDeviceCleanup) :
    (s.turn r ok).1.drainStoppedEvent = s.drainStoppedEvent ∧ (s.turn r ok).1.freed = s.freed := by
  cases r with
  | startSend i pc => exact (sendIoBlock_same s i pc ok).2
  | sendAgain i pc => exact (sendIoBlock_same s i pc ok).2
  | completed i status readLength => cases status <;> exact ⟨rfl, rfl⟩
  | testSignal => simp [DeviceContext.turn, hremoval]
  | startLoop | testDrain | testRemoval | clearPending | decrement => exact ⟨rfl, rfl⟩
  | clearDrain | waitForDrainToStop | pollDraining | waitAgain | freeIoBuffer => exact absurd rfl hr

/-- With a count of zero no read is under way. -/
theorem DeviceContext.Counted.quiet (h : s.Counted) (hzero : s.drainingRx = 0) :
    s.atUsb = [] ∧ ∀ r ∈ s.routines, r.counted = 0 := by
  rw [DeviceContext.Counted, hzero] at h
  have hlen : s.atUsb.length = 0 := by omega
  have htotal : total Routine.counted s.routines = 0 := by omega
  exact ⟨List.length_eq_zero_iff.mp hlen, total_eq_zero_iff.mp htotal⟩

/-! ### Every run -/

theorem DeviceContext.CleanupInv.turn (h : s.CleanupInv) (hs : s.step (.turn r ok) = some t) :
    t.CleanupInv := by
  have hcounted := h.counted.step hs
  obtain ⟨hr, rfl⟩ := step_turn_eq_some hs
  have hremoval := turn_deviceRemoval s r ok
  refine ⟨hcounted, fun hnot => ?_, fun hremoved q hq => ?_, fun hremoved hsays => ?_⟩
  · rw [hremoval] at hnot
    obtain ⟨hevent, hfreed, hcleanup⟩ := h.before hnot
    have hflags := turn_flags ok hnot (hcleanup r hr)
    refine ⟨hflags.1.trans hevent, hflags.2.trans hfreed, fun q hq => ?_⟩
    rcases mem_of_mem_advance hq with hnext | hold
    · rw [turn_callback hnext]
      exact hcleanup r hr
    · exact hcleanup q hold
  · rw [hremoval] at hremoved
    rcases mem_of_mem_advance hq with hnext | hold
    · rw [turn_callback hnext]
      exact h.noStart hremoved r hr
    · exact h.noStart hremoved q hold
  · rw [hremoval] at hremoved
    have hquiet : s.SaysQuiet → (s.turn r ok).1.drainingRx = 0 := by
      intro hold
      have hzero := h.quiet hremoved hold
      rw [turn_drainingRx ((h.counted.quiet hzero).2 r hr) (h.noStart hremoved r hr)]
      exact hzero
    have hsays' : ((s.turn r ok).1.drainStoppedEvent = true ∨ (s.turn r ok).1.freed = true ∨
        (s.turn r ok).2 = some .testSignal ∨ (s.turn r ok).2 = some .freeIoBuffer) ∨ s.SaysQuiet := by
      rcases hsays with hevent | hfreed | hsignal | hfree
      · exact .inl (.inl hevent)
      · exact .inl (.inr (.inl hfreed))
      · rcases mem_of_mem_advance hsignal with hnext | hold
        · exact .inl (.inr (.inr (.inl hnext)))
        · exact .inr (.inr (.inr (.inl hold)))
      · rcases mem_of_mem_advance hfree with hnext | hold
        · exact .inl (.inr (.inr (.inr hnext)))
        · exact .inr (.inr (.inr (.inr hold)))
    rcases hsays' with hnew | hold
    · rcases turn_quiet hnew with hevent | hfreed | hsignal | hfree | hzero
      · exact hquiet (.inl hevent)
      · exact hquiet (.inr (.inl hfreed))
      · exact hquiet (.inr (.inr (.inl (hsignal ▸ hr))))
      · exact hquiet (.inr (.inr (.inr (hfree ▸ hr))))
      · exact hzero
    · exact hquiet hold

theorem DeviceContext.CleanupInv.step (h : s.CleanupInv) (horderly : op.Orderly s)
    (hs : s.step op = some t) : t.CleanupInv := by
  have hcounted := h.counted.step hs
  cases op with
  | turn r ok => exact h.turn hs
  | pipeDrainStart =>
    have hremoval : s.deviceRemoval = false := horderly
    obtain ⟨hevent, hfreed, hcleanup⟩ := h.before hremoval
    obtain rfl := Option.some.inj hs
    by_cases hdrain : s.pipeDrain = true
    · rw [if_pos hdrain]
      exact h
    · rw [if_neg hdrain] at hcounted ⊢
      refine ⟨hcounted, fun _ => ⟨hevent, hfreed, List.forall_mem_cons.mpr ⟨?_, hcleanup⟩⟩, ?_, ?_⟩
      · simp [Routine.callback]
      · exact fun hremoved => absurd (hremoval.symm.trans hremoved) Bool.false_ne_true
      · exact fun hremoved => absurd (hremoval.symm.trans hremoved) Bool.false_ne_true
  | pipeDrainStop =>
    obtain rfl := Option.some.inj hs
    exact ⟨hcounted, h.before, h.noStart, h.quiet⟩
  | usbCompletes i status readLength =>
    obtain ⟨hi, rfl⟩ := step_usbCompletes_eq_some hs
    refine ⟨hcounted, fun hnot => ?_, fun hremoved => ?_, fun hremoved hsays => ?_⟩
    · obtain ⟨hevent, hfreed, hcleanup⟩ := h.before hnot
      exact ⟨hevent, hfreed, List.forall_mem_cons.mpr ⟨by simp [Routine.callback], hcleanup⟩⟩
    · exact List.forall_mem_cons.mpr ⟨by simp [Routine.callback], h.noStart hremoved⟩
    · have hold : s.SaysQuiet := by
        rcases hsays with hevent | hfreed | hsignal | hfree
        · exact .inl hevent
        · exact .inr (.inl hfreed)
        · exact .inr (.inr (.inl (by simpa using hsignal)))
        · exact .inr (.inr (.inr (by simpa using hfree)))
      exact h.quiet hremoved hold
  | evtDeviceCleanup =>
    obtain ⟨hremoval, hsignal, hstart⟩ := horderly
    obtain ⟨hevent, hfreed, hcleanup⟩ := h.before hremoval
    obtain rfl := Option.some.inj hs
    refine ⟨hcounted, ?_, fun _ => List.forall_mem_cons.mpr ⟨by simp [Routine.callback], hstart⟩, ?_⟩
    · simp
    · rintro - (hevent' | hfreed' | hsignal' | hfree')
      · exact absurd (hevent.symm.trans hevent') Bool.false_ne_true
      · exact absurd (hfreed.symm.trans hfreed') Bool.false_ne_true
      · exact absurd (by simpa using hsignal') hsignal
      · exact absurd rfl (hcleanup .freeIoBuffer (by simpa using hfree'))

instance (s : DeviceContext) (op : Op) : Decidable (op.Orderly s) :=
  match op with
  | .pipeDrainStart => inferInstanceAs (Decidable (s.deviceRemoval = false))
  | .evtDeviceCleanup => inferInstanceAs (Decidable (_ ∧ _ ∧ _))
  | .pipeDrainStop | .usbCompletes _ _ _ | .turn _ _ => .isTrue trivial

end Qdss
