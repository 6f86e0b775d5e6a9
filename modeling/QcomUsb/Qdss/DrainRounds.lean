-- SUMMARY: As long as no read fails, each request of the draining is with the USB stack or on its way back to it, and when the device is removed the draining dies out.
import QcomUsb.Qdss.DrainRequests

/-!
# The rounds of the requests

Each request is sent by `PipeDrainStart`, and then again and again by its completion routine. As long as
nothing goes wrong, none drops out.
-/

namespace Qdss

open Transition Routines

/-- The call is going to send its request. -/
def SendPc.keeps : SendPc → Nat
  | .rewind => 0
  | _ => 1

/-- The routine is going to send the request. -/
def Routine.keeps (i : Nat) : Routine → Nat
  | .startLoop j => if j ≤ i then 1 else 0
  | .startSend j pc => if j = i then pc.keeps else if j < i then 1 else 0
  | .completed j status _ => if j = i ∧ status = .success then 1 else 0
  | .testDrain j again | .testRemoval j again | .clearPending j again =>
    if j = i ∧ again = true then 1 else 0
  | .sendAgain j pc => if j = i then pc.keeps else 0
  | _ => 0

/-- A completion routine is going to send its request again, and no other one stops the draining. -/
def Routine.Resends : Routine → Prop
  | .completed _ status _ => status = .success
  | .testDrain _ again | .testRemoval _ again | .clearPending _ again => again = true
  | .clearDrain => False
  | _ => True

/-- The reads succeed, and nobody stops the draining. -/
def Op.Succeeds : Op → Prop
  | .pipeDrainStop | .evtDeviceCleanup => False
  | .usbCompletes _ status _ => status = .success
  | .turn _ ok => ok = true
  | .pipeDrainStart => True

/-- The request is with the USB stack, or one routine is going to send it. -/
structure DeviceContext.Goes (s : DeviceContext) (i : Nat) : Prop where
  stays : s.deviceRemoval = false
  lt : i < s.numOfRxReqs
  idle : s.pipeDrain = false → s.routines = [] ∧ s.atUsb = [] ∧ s.isPending i = false
  once : s.pipeDrain = true → s.atUsb.count i + total (Routine.keeps i) s.routines = 1
  pending : s.isPending i = true → s.inUse i = 1
  resends : ∀ r ∈ s.routines, r.Resends

variable {s t : DeviceContext} {r : Routine} {ok : Bool} {op : Op} {i j : Nat} {pc : SendPc}

theorem turn_same (hresends : r.Resends) (s : DeviceContext) (ok : Bool) :
    (s.turn r ok).1.numOfRxReqs = s.numOfRxReqs ∧ (s.turn r ok).1.pipeDrain = s.pipeDrain := by
  cases r with
  | startSend i pc => cases pc <;> cases ok <;> exact ⟨rfl, rfl⟩
  | sendAgain i pc => cases pc <;> cases ok <;> exact ⟨rfl, rfl⟩
  | completed i status readLength => cases status <;> exact ⟨rfl, rfl⟩
  | testSignal => cases h : s.deviceRemoval <;> simp [DeviceContext.turn, h]
  | waitForDrainToStop =>
    by_cases h : ok = true ∧ s.drainStoppedEvent = true <;> simp [DeviceContext.turn, h]
  | waitAgain => cases ok <;> exact ⟨rfl, rfl⟩
  | clearDrain => exact hresends.elim
  | _ => exact ⟨rfl, rfl⟩

/-- A routine that goes on sends the request or is still going to. -/
theorem sendIoBlock_keeps (s : DeviceContext) (i : Nat) (pc : SendPc)
    (hnot : pc = .testPending → s.isPending i = false) :
    (s.sendIoBlock i pc true).1.atUsb.count i + (s.sendIoBlock i pc true).2.elim 0 SendPc.keeps =
      s.atUsb.count i + pc.keeps := by
  cases pc with
  | testPending => simp [DeviceContext.sendIoBlock, SendPc.keeps, hnot rfl]
  | send => simp [DeviceContext.sendIoBlock, SendPc.keeps]
  | format | setPending | increment | rewind => rfl

theorem turn_keeps (hdrain : s.pipeDrain = true) (hstay : s.deviceRemoval = false)
    (hi : i < s.numOfRxReqs) (hresends : r.Resends) (hnot : r.Tests i → s.isPending i = false) :
    (s.turn r true).1.atUsb.count i + held (Routine.keeps i) (s.turn r true).2 =
      s.atUsb.count i + r.keeps i := by
  cases r with
  | startSend j pc =>
    by_cases hj : j = i
    · subst hj
      have hkeeps := sendIoBlock_keeps s j pc fun hpc => hnot ⟨rfl, hpc⟩
      cases hpc : (s.sendIoBlock j pc true).2 <;>
        simpa [DeviceContext.turn, hpc, Routine.keeps] using hkeeps
    · obtain ⟨-, hcount⟩ := sendIoBlock_other hj s pc true
      have hlt : j + 1 ≤ i ↔ j < i := Iff.rfl
      cases hpc : (s.sendIoBlock j pc true).2 <;>
        simp [DeviceContext.turn, hpc, Routine.keeps, hj, hcount, hlt]
  | sendAgain j pc =>
    by_cases hj : j = i
    · subst hj
      have hkeeps := sendIoBlock_keeps s j pc fun hpc => hnot ⟨rfl, hpc⟩
      cases hpc : (s.sendIoBlock j pc true).2 <;>
        simpa [DeviceContext.turn, hpc, Routine.keeps] using hkeeps
    · obtain ⟨-, hcount⟩ := sendIoBlock_other hj s pc true
      cases hpc : (s.sendIoBlock j pc true).2 <;>
        simp [DeviceContext.turn, hpc, Routine.keeps, hj, hcount]
  | startLoop j =>
    by_cases hj : j < s.numOfRxReqs
    · rcases lt_trichotomy j i with hlt | rfl | hgt
      · simp [DeviceContext.turn, Routine.keeps, hj, hlt, hlt.le, hlt.ne]
      · simp [DeviceContext.turn, Routine.keeps, hj, SendPc.keeps]
      · simp [DeviceContext.turn, Routine.keeps, hj, hgt.ne', hgt.not_ge, hgt.not_gt]
    · have hle : ¬ j ≤ i := by omega
      simp [DeviceContext.turn, Routine.keeps, hj, hle]
  | completed j status readLength =>
    obtain rfl : status = .success := hresends
    simp [DeviceContext.turn, DeviceContext.readCompleted, Routine.keeps]
  | testDrain j again => simp [DeviceContext.turn, Routine.keeps, hdrain]
  | testRemoval j again => simp [DeviceContext.turn, Routine.keeps, hstay]
  | clearPending j again => cases again <;> simp [DeviceContext.turn, Routine.keeps, SendPc.keeps]
  | decrement =>
    by_cases hzero : s.drainingRx - 1 = 0 <;> simp [DeviceContext.turn, Routine.keeps, hzero]
  | testSignal => simp [DeviceContext.turn, Routine.keeps, hstay]
  | waitForDrainToStop =>
    by_cases hevent : s.drainStoppedEvent = true <;> simp [DeviceContext.turn, Routine.keeps, hevent]
  | pollDraining =>
    by_cases hzero : s.drainingRx = 0 <;> simp [DeviceContext.turn, Routine.keeps, hzero]
  | waitAgain | clearDrain | freeIoBuffer => simp [DeviceContext.turn, Routine.keeps]

theorem turn_resends (hdrain : s.pipeDrain = true) (hstay : s.deviceRemoval = false)
    (hresends : r.Resends) {q : Routine} (hq : (s.turn r true).2 = some q) : q.Resends := by
  cases r with
  | startSend j pc =>
    simp only [DeviceContext.turn, Option.some.injEq] at hq
    cases hpc : (s.sendIoBlock j pc true).2 <;> (rw [hpc] at hq; exact hq ▸ trivial)
  | sendAgain j pc =>
    simp only [DeviceContext.turn, Option.some.injEq] at hq
    cases hpc : (s.sendIoBlock j pc true).2 <;> (rw [hpc] at hq; exact hq ▸ trivial)
  | completed j status readLength =>
    obtain rfl : status = .success := hresends
    exact Option.some.inj hq ▸ rfl
  | testDrain j again =>
    simp only [DeviceContext.turn, hdrain, if_true] at hq
    exact Option.some.inj hq ▸ hresends
  | testRemoval j again =>
    obtain rfl : again = true := hresends
    simp only [DeviceContext.turn, hstay] at hq
    exact Option.some.inj hq ▸ rfl
  | clearPending j again =>
    obtain rfl : again = true := hresends
    exact Option.some.inj hq ▸ trivial
  | startLoop | decrement =>
    simp only [DeviceContext.turn, Option.ite_none_right_eq_some, Option.some.injEq] at hq
    exact hq.2 ▸ trivial
  | testSignal | freeIoBuffer => simp [DeviceContext.turn] at hq
  | waitForDrainToStop =>
    simp only [DeviceContext.turn] at hq
    split_ifs at hq <;> exact Option.some.inj hq ▸ trivial
  | pollDraining =>
    simp only [DeviceContext.turn, Option.some.injEq] at hq
    split_ifs at hq <;> exact hq ▸ trivial
  | waitAgain => exact Option.some.inj hq ▸ trivial
  | clearDrain => exact hresends.elim

theorem SendPc.claims_le (pc : SendPc) : pc.has + pc.claims ≤ pc.keeps := by cases pc <;> decide

/-- A routine that has a request or is about to have it sends it. -/
theorem Routine.Resends.le (h : r.Resends) (i : Nat) : r.has i + r.claims i ≤ r.keeps i := by
  cases r with
  | startSend j pc =>
    by_cases hj : j = i <;> simp [Routine.has, Routine.claims, Routine.keeps, hj, SendPc.claims_le]
  | sendAgain j pc =>
    by_cases hj : j = i <;> simp [Routine.has, Routine.claims, Routine.keeps, hj, SendPc.claims_le]
  | completed j status readLength =>
    obtain rfl : status = .success := h
    simp [Routine.has, Routine.claims, Routine.keeps]
  | testDrain j again | testRemoval j again | clearPending j again =>
    obtain rfl : again = true := h
    simp [Routine.has, Routine.claims, Routine.keeps]
  | _ => exact Nat.zero_le _

/-- How `IsPending` follows the rounds: `n` times with the USB stack, `k` routines that are going to send
the request, `has` of them that have it. -/
theorem RequestTurn.pending {test : Prop} {p p' : Bool} {n h c n' h' c' has : Nat}
    (hr : RequestTurn test true p n h c p' n' h' c') (hpending : p = true → n + (h + has) = 1)
    (hnone : 0 < c → n + has = 0) : p' = true → n' + (has + h') = 1 := by
  intro hp
  cases hr with
  | same =>
    have hone := hpending hp
    omega
  | claim _ hnot => exact absurd (hnot.symm.trans hp) Bool.false_ne_true
  | refuse hok => exact absurd hok Bool.false_ne_true.symm
  | set =>
    have hzero := hnone Nat.one_pos
    omega
  | send =>
    have hone := hpending hp
    omega
  | lose hok => exact absurd hok Bool.false_ne_true.symm
  | clear => exact absurd hp Bool.false_ne_true

theorem Routine.Tests.keeps (h : r.Tests i) : r.keeps i = 1 ∧ r.has i = 0 := by
  cases r with
  | startSend j pc | sendAgain j pc =>
    obtain ⟨rfl, rfl⟩ := h
    exact ⟨by simp [Routine.keeps, SendPc.keeps], by simp [Routine.has, SendPc.has]⟩
  | _ => exact h.elim

theorem DeviceContext.Goes.turn (h : s.Goes i) (hs : s.step (.turn r true) = some t) : t.Goes i := by
  obtain ⟨hr, rfl⟩ := step_turn_eq_some hs
  have hdrain : s.pipeDrain = true := by
    by_contra hnot
    have hempty := (h.idle (Bool.eq_false_iff.mpr hnot)).1
    rw [hempty] at hr
    exact absurd hr List.not_mem_nil
  have hresends := h.resends r hr
  have hle := hresends.le i
  have hrest : total (Routine.has i) (s.routines.erase r) ≤
      total (Routine.keeps i) (s.routines.erase r) :=
    total_mono fun q hq =>
      (Nat.le_add_right _ _).trans ((h.resends q (List.mem_of_mem_erase hq)).le i)
  have honce := h.once hdrain
  have hpending := h.pending
  simp only [DeviceContext.inUse, total_erase hr] at honce hpending
  have hnot : r.Tests i → s.isPending i = false := by
    intro htests
    obtain ⟨hkeeps, hhas⟩ := htests.keeps
    by_contra hp
    have hone := hpending (Bool.not_eq_false _ ▸ hp)
    omega
  have hkeeps := turn_keeps hdrain h.stays h.lt hresends hnot
  obtain ⟨hnum, hstill⟩ := turn_same hresends s true
  refine ⟨(turn_deviceRemoval s r true).trans h.stays, hnum.symm ▸ h.lt, fun hidle => ?_, fun _ => ?_,
    fun hp => ?_, fun q hq => ?_⟩
  · exact absurd (hdrain.symm.trans (hstill.symm.trans hidle)) Bool.false_ne_true.symm
  · dsimp only
    rw [total_advance_eq]
    omega
  · simp only [DeviceContext.inUse, total_advance_eq]
    exact (turn_request s r true i).pending hpending (fun _ => by omega) hp
  · rcases mem_of_mem_advance hq with hnext | hold
    · exact turn_resends hdrain h.stays hresends hnext
    · exact h.resends q hold

theorem DeviceContext.Goes.step (h : s.Goes i) (hop : op.Succeeds) (hs : s.step op = some t) :
    t.Goes i := by
  cases op with
  | turn r ok =>
    obtain rfl : ok = true := hop
    exact h.turn hs
  | pipeDrainStop => exact hop.elim
  | evtDeviceCleanup => exact hop.elim
  | pipeDrainStart =>
    obtain rfl := Option.some.inj hs
    by_cases hdrain : s.pipeDrain = true
    · rw [if_pos hdrain]
      exact h
    · rw [if_neg hdrain]
      obtain ⟨hroutines, husb, hpending⟩ := h.idle (Bool.eq_false_iff.mpr hdrain)
      refine ⟨h.stays, h.lt, fun hidle => absurd hidle Bool.false_ne_true.symm, fun _ => ?_,
        fun hp => ?_, ?_⟩
      · simp [hroutines, husb, Routine.keeps]
      · exact absurd (hpending.symm.trans hp) Bool.false_ne_true
      · exact List.forall_mem_cons.mpr ⟨trivial, h.resends⟩
  | usbCompletes j status readLength =>
    obtain rfl : status = .success := hop
    obtain ⟨hj, rfl⟩ := step_usbCompletes_eq_some hs
    refine ⟨h.stays, h.lt, fun hidle => ?_, fun hdrain => ?_, fun hp => ?_, ?_⟩
    · rw [(h.idle hidle).2.1] at hj
      exact absurd hj List.not_mem_nil
    · have honce := h.once hdrain
      simp only [total_cons, Routine.keeps]
      by_cases hi : j = i
      · subst hi
        have hpos := List.count_pos_iff.mpr hj
        rw [List.count_erase_self, if_pos ⟨rfl, trivial⟩]
        omega
      · rw [List.count_erase_of_ne (Ne.symm hi), if_neg fun hboth => hi hboth.1, Nat.zero_add]
        exact honce
    · rw [inUse_usbCompletes hj]
      exact h.pending hp
    · exact List.forall_mem_cons.mpr ⟨rfl, h.resends⟩

instance (op : Op) : Decidable op.Succeeds :=
  match op with
  | .pipeDrainStop | .evtDeviceCleanup => .isFalse id
  | .usbCompletes _ status _ => inferInstanceAs (Decidable (status = .success))
  | .turn _ ok => inferInstanceAs (Decidable (ok = true))
  | .pipeDrainStart => .isTrue trivial

/-- The completion routine has decided to send its request again. -/
def Routine.decided : Routine → Nat
  | .clearPending _ again => again.toNat
  | .sendAgain _ pc => pc.keeps
  | _ => 0

/-- The reads that can still be complete when the device is being removed. -/
def DeviceContext.remaining (s : DeviceContext) : Nat :=
  s.atUsb.length + total Routine.decided s.routines

theorem sendIoBlock_decided (s : DeviceContext) (i : Nat) (pc : SendPc) (ok : Bool) :
    (s.sendIoBlock i pc ok).1.atUsb.length + (s.sendIoBlock i pc ok).2.elim 0 SendPc.keeps ≤
      s.atUsb.length + pc.keeps := by
  cases pc with
  | testPending => cases h : s.isPending i <;> simp [DeviceContext.sendIoBlock, SendPc.keeps, h]
  | format | send => cases ok <;> simp [DeviceContext.sendIoBlock, SendPc.keeps]
  | setPending | increment | rewind => exact Nat.le_refl _

theorem turn_decided (ok : Bool) (hremoval : s.deviceRemoval = true)
    (hr : r.callback ≠ .pipeDrainStart) :
    (s.turn r ok).1.atUsb.length + held Routine.decided (s.turn r ok).2 ≤
      s.atUsb.length + r.decided := by
  cases r with
  | startLoop | startSend => exact absurd rfl hr
  | sendAgain i pc =>
    have h := sendIoBlock_decided s i pc ok
    cases hpc : (s.sendIoBlock i pc ok).2 <;>
      simpa [DeviceContext.turn, hpc, Routine.decided] using h
  | completed i status readLength => cases status <;> exact Nat.le_refl _
  | testDrain i again => cases h : s.pipeDrain <;> simp [DeviceContext.turn, Routine.decided, h]
  | testRemoval i again => simp [DeviceContext.turn, Routine.decided, hremoval]
  | clearPending i again => cases again <;> simp [DeviceContext.turn, Routine.decided, SendPc.keeps]
  | decrement =>
    by_cases h : s.drainingRx - 1 = 0 <;> simp [DeviceContext.turn, Routine.decided, h]
  | testSignal => simp [DeviceContext.turn, Routine.decided, hremoval]
  | waitForDrainToStop =>
    by_cases h : ok = true ∧ s.drainStoppedEvent = true <;>
      simp [DeviceContext.turn, Routine.decided, h]
  | pollDraining => by_cases h : s.drainingRx = 0 <;> simp [DeviceContext.turn, Routine.decided, h]
  | waitAgain => cases ok <;> exact Nat.le_refl _
  | clearDrain => exact Nat.le_refl _
  | freeIoBuffer => exact Nat.le_refl _

/-- The device is being removed, and the draining not being started. -/
structure DeviceContext.Removing (s : DeviceContext) : Prop where
  removal : s.deviceRemoval = true
  noStart : ∀ r ∈ s.routines, r.callback ≠ .pipeDrainStart

def Op.IsCompletion : Op → Bool
  | .usbCompletes _ _ _ => true
  | _ => false

/-- Each completion takes one of the reads that remain, and no step adds one. -/
theorem DeviceContext.Removing.step (h : s.Removing) (hop : op ≠ .pipeDrainStart)
    (hs : s.step op = some t) :
    t.Removing ∧ t.remaining + (if op.IsCompletion then 1 else 0) ≤ s.remaining := by
  cases op with
  | pipeDrainStart => exact absurd rfl hop
  | pipeDrainStop =>
    obtain rfl := Option.some.inj hs
    exact ⟨⟨h.removal, h.noStart⟩, Nat.le_refl _⟩
  | evtDeviceCleanup =>
    obtain rfl := Option.some.inj hs
    refine ⟨⟨rfl, List.forall_mem_cons.mpr ⟨by simp [Routine.callback], h.noStart⟩⟩, ?_⟩
    simp [DeviceContext.remaining, Routine.decided, Op.IsCompletion]
  | usbCompletes i status readLength =>
    obtain ⟨hi, rfl⟩ := step_usbCompletes_eq_some hs
    refine ⟨⟨h.removal, List.forall_mem_cons.mpr ⟨by simp [Routine.callback], h.noStart⟩⟩, ?_⟩
    have hlen := List.length_erase_of_mem hi
    have hpos := List.length_pos_of_mem hi
    simp only [DeviceContext.remaining, Routine.decided, Op.IsCompletion, total_cons, if_true]
    omega
  | turn r ok =>
    obtain ⟨hr, rfl⟩ := step_turn_eq_some hs
    refine ⟨⟨(turn_deviceRemoval s r ok).trans h.removal, fun q hq => ?_⟩, ?_⟩
    · rcases mem_of_mem_advance hq with hnext | hold
      · rw [turn_callback hnext]
        exact h.noStart r hr
      · exact h.noStart q hold
    · have hturn := turn_decided ok h.removal (h.noStart r hr)
      simp only [DeviceContext.remaining, Op.IsCompletion, total_advance_eq, total_erase hr]
      simp only [Bool.false_eq_true, if_false]
      omega

/-- When the device is being removed, no more reads are complete than the USB stack has and the
completion routines have decided to send. -/
theorem completions_le {ops : List Op} (h : s.Removing) (hops : ∀ op ∈ ops, op ≠ .pipeDrainStart) :
    (drainMachine.fires s ops).countP (fun p => p.2.IsCompletion) ≤ s.remaining := by
  refine Machine.countP_fires_le fun p hp s' o hs => ?_
  have hremoving : p.1.Removing := Machine.visits_all (P := DeviceContext.Removing)
    (fun _ _ _ _ h hop hs => (h.step hop (drainMachine_eq_some.mp hs)).1) h hops p.1
    (Machine.fst_mem_visits_of_mem_fires hp)
  exact (hremoving.step (hops p.2 (Machine.mem_of_mem_fires hp)) (drainMachine_eq_some.mp hs)).2

/-- The device is removed while the USB stack has the one request. -/
def sampleRemoving : DeviceContext :=
  ((drainMachine.run (.prepared 1 24) (sampleOps.take 8 ++ [.evtDeviceCleanup])).map Prod.fst).getD
    (.prepared 1 24)

theorem completions_le_sample : sampleRemoving.remaining = 1 ∧
    (drainMachine.fires sampleRemoving [.usbCompletes 0 .success 64,
      .turn (.completed 0 .success 64) true, .usbCompletes 0 .success 64]).countP
        (fun p => p.2.IsCompletion) ≤ sampleRemoving.remaining := by
  have hremoving : sampleRemoving.Removing := ⟨rfl, by decide⟩
  exact ⟨by decide, completions_le hremoving (by simp)⟩

end Qdss
