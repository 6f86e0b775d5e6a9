-- SUMMARY: What becomes of each request of the pipe draining: that it is sent once at a time, that one whose send fails is lost, and that the others go round for ever.
import QcomUsb.Qdss.PipeDrain

/-!
# The requests of the draining

`IsPending` keeps a request from being sent twice. It is set after it has been tested, and cleared by
the completion routine before the request is sent again.
-/

namespace Qdss

open Transition Routines

/-! ## Who has a request -/

/-- The call has found that the request is not pending, and has yet to say that it is. -/
def SendPc.claims : SendPc → Nat
  | .format | .setPending => 1
  | _ => 0

/-- The call has said that the request is pending, and has yet to send it. -/
def SendPc.has : SendPc → Nat
  | .increment | .send => 1
  | _ => 0

def Routine.claims (i : Nat) : Routine → Nat
  | .startSend j pc | .sendAgain j pc => if j = i then pc.claims else 0
  | _ => 0

/-- A completion routine has its request until it says that it is not pending. -/
def Routine.has (i : Nat) : Routine → Nat
  | .startSend j pc | .sendAgain j pc => if j = i then pc.has else 0
  | .completed j _ _ | .testDrain j _ | .testRemoval j _ | .clearPending j _ => if j = i then 1 else 0
  | _ => 0

/-- How many have the request. -/
def DeviceContext.inUse (s : DeviceContext) (i : Nat) : Nat :=
  s.atUsb.count i + total (Routine.has i) s.routines

def DeviceContext.claimed (s : DeviceContext) (i : Nat) : Nat := total (Routine.claims i) s.routines

/-- One at most has the request or is about to, and nobody has it that is not pending. -/
structure DeviceContext.Owned (s : DeviceContext) (i : Nat) : Prop where
  once : s.inUse i + s.claimed i ≤ 1
  notPending : s.isPending i = false → s.inUse i = 0

/-- The routine is going to test whether the request is pending. -/
def Routine.Tests (i : Nat) : Routine → Prop
  | .startSend j pc | .sendAgain j pc => j = i ∧ pc = .testPending
  | _ => False

/-- `IsPending` is not tested while another routine is between its own test and the setting. -/
def Op.Serial (s : DeviceContext) : Op → Prop
  | .turn r _ => ∀ i, r.Tests i → s.claimed i = 0
  | _ => True

variable {s t : DeviceContext} {r : Routine} {ok : Bool} {op : Op} {i j : Nat} {pc : SendPc}

/-! ### What a step does with a request -/

/-- How `IsPending`, the number of times that the USB stack has a request, and what a routine has and
claims of it change when the routine goes on. -/
inductive RequestTurn (test : Prop) (ok pending : Bool) (count : Nat) :
    Nat → Nat → Bool → Nat → Nat → Nat → Prop
  | same (has claims : Nat) : RequestTurn test ok pending count has claims pending count has claims
  | claim (htest : test) (hnot : pending = false) :
    RequestTurn test ok pending count 0 0 pending count 0 1
  | refuse (hok : ok = false) : RequestTurn test ok pending count 0 1 pending count 0 0
  | set : RequestTurn test ok pending count 0 1 true count 1 0
  | send : RequestTurn test ok pending count 1 0 pending (count + 1) 0 0
  | lose (hok : ok = false) : RequestTurn test ok pending count 1 0 pending count 0 0
  | clear : RequestTurn test ok pending count 1 0 false count 0 0

theorem sendIoBlock_request (s : DeviceContext) (i : Nat) (pc : SendPc) (ok : Bool) :
    RequestTurn (pc = .testPending) ok (s.isPending i) (s.atUsb.count i) pc.has pc.claims
      ((s.sendIoBlock i pc ok).1.isPending i) ((s.sendIoBlock i pc ok).1.atUsb.count i)
      ((s.sendIoBlock i pc ok).2.elim 0 SendPc.has) ((s.sendIoBlock i pc ok).2.elim 0 SendPc.claims) := by
  cases pc with
  | testPending =>
    cases hpending : s.isPending i
    · simpa [DeviceContext.sendIoBlock, hpending] using .claim trivial rfl
    · simpa [DeviceContext.sendIoBlock, hpending] using .same 0 0
  | format =>
    cases ok
    · exact .refuse rfl
    · exact .same 0 1
  | setPending => simpa [DeviceContext.sendIoBlock] using .set
  | increment => exact .same 1 0
  | send =>
    cases ok
    · exact .lose rfl
    · simpa [DeviceContext.sendIoBlock] using .send
  | rewind => exact .same 0 0

/-- A call of `SendIOBlock` has nothing to do with other requests. -/
theorem sendIoBlock_other (hne : j ≠ i) (s : DeviceContext) (pc : SendPc) (ok : Bool) :
    (s.sendIoBlock j pc ok).1.isPending i = s.isPending i ∧
      (s.sendIoBlock j pc ok).1.atUsb.count i = s.atUsb.count i := by
  cases pc with
  | setPending => exact ⟨Function.update_of_ne hne.symm _ _, rfl⟩
  | send => cases ok <;> simp [DeviceContext.sendIoBlock, hne]
  | testPending | format | increment | rewind => exact ⟨rfl, rfl⟩

/-- Every step of a routine, as a request sees it. -/
theorem turn_request (s : DeviceContext) (r : Routine) (ok : Bool) (i : Nat) :
    RequestTurn (r.Tests i) ok (s.isPending i) (s.atUsb.count i) (r.has i) (r.claims i)
      ((s.turn r ok).1.isPending i) ((s.turn r ok).1.atUsb.count i)
      (held (Routine.has i) (s.turn r ok).2) (held (Routine.claims i) (s.turn r ok).2) := by
  cases r with
  | startSend j pc =>
    by_cases hj : j = i
    · subst hj
      have hown := sendIoBlock_request s j pc ok
      cases hpc : (s.sendIoBlock j pc ok).2 <;>
        simpa [DeviceContext.turn, hpc, Routine.has, Routine.claims, Routine.Tests] using hown
    · obtain ⟨hpending, hcount⟩ := sendIoBlock_other hj s pc ok
      cases hpc : (s.sendIoBlock j pc ok).2 <;>
        simpa [DeviceContext.turn, hpc, Routine.has, Routine.claims, hj, hpending, hcount] using
          .same 0 0
  | sendAgain j pc =>
    by_cases hj : j = i
    · subst hj
      have hown := sendIoBlock_request s j pc ok
      cases hpc : (s.sendIoBlock j pc ok).2 <;>
        simpa [DeviceContext.turn, hpc, Routine.has, Routine.claims, Routine.Tests] using hown
    · obtain ⟨hpending, hcount⟩ := sendIoBlock_other hj s pc ok
      cases hpc : (s.sendIoBlock j pc ok).2 <;>
        simpa [DeviceContext.turn, hpc, Routine.has, Routine.claims, hj, hpending, hcount] using
          .same 0 0
  | clearPending j again =>
    by_cases hj : j = i
    · subst hj
      cases again <;>
        simpa [DeviceContext.turn, Routine.has, Routine.claims, SendPc.has, SendPc.claims] using .clear
    · have hpending : (Function.update s.isPending j false) i = s.isPending i :=
        Function.update_of_ne (Ne.symm hj) _ _
      cases again <;>
        simpa [DeviceContext.turn, Routine.has, Routine.claims, hj, hpending] using .same 0 0
  | startLoop j =>
    by_cases hj : j < s.numOfRxReqs <;>
      simpa [DeviceContext.turn, Routine.has, Routine.claims, SendPc.has, SendPc.claims, hj] using
        .same 0 0
  | completed j status readLength => cases status <;> exact .same _ _
  | testDrain j again => cases hdrain : s.pipeDrain <;> simpa [DeviceContext.turn, hdrain] using .same _ _
  | testRemoval j again => exact .same _ _
  | decrement =>
    by_cases hzero : s.drainingRx - 1 = 0 <;> simpa [DeviceContext.turn, hzero] using .same _ _
  | testSignal =>
    cases hremoval : s.deviceRemoval <;> simpa [DeviceContext.turn, hremoval] using .same _ _
  | waitForDrainToStop =>
    by_cases hevent : ok = true ∧ s.drainStoppedEvent = true <;>
      simpa [DeviceContext.turn, hevent] using .same _ _
  | pollDraining =>
    by_cases hzero : s.drainingRx = 0 <;> simpa [DeviceContext.turn, hzero] using .same _ _
  | waitAgain => cases ok <;> exact .same _ _
  | clearDrain => exact .same _ _
  | freeIoBuffer => exact .same _ _

/-! ## One at a time -/

theorem RequestTurn.owned {test : Prop} {p p' : Bool} {n h c n' h' c' has claims : Nat}
    (hr : RequestTurn test ok p n h c p' n' h' c') (honce : n + (h + has) + (c + claims) ≤ 1)
    (hnot : p = false → n + (h + has) = 0) (htest : test → c + claims = 0) :
    n' + (has + h') + (claims + c') ≤ 1 ∧ (p' = false → n' + (has + h') = 0) := by
  cases hr with
  | same => exact ⟨by omega, fun hp => by have := hnot hp; omega⟩
  | claim hown hp =>
    have hzero := hnot hp
    have hclaims := htest hown
    exact ⟨by omega, fun _ => by omega⟩
  | refuse => exact ⟨by omega, fun hp => by have := hnot hp; omega⟩
  | set => exact ⟨by omega, fun hp => absurd hp Bool.false_ne_true.symm⟩
  | send => exact ⟨by omega, fun hp => by have := hnot hp; omega⟩
  | lose => exact ⟨by omega, fun hp => by have := hnot hp; omega⟩
  | clear => exact ⟨by omega, fun _ => by omega⟩

theorem DeviceContext.Owned.turn (h : s.Owned i) (hserial : Op.Serial s (.turn r ok))
    (hs : s.step (.turn r ok) = some t) : t.Owned i := by
  obtain ⟨honce, hnot⟩ := h
  obtain ⟨hr, rfl⟩ := step_turn_eq_some hs
  have htest : r.Tests i → s.claimed i = 0 := hserial i
  simp only [DeviceContext.inUse, DeviceContext.claimed, total_erase hr] at honce hnot htest
  have hnew := (turn_request s r ok i).owned honce hnot htest
  refine ⟨?_, fun hp => ?_⟩
  · simp only [DeviceContext.inUse, DeviceContext.claimed, total_advance_eq]
    exact hnew.1
  · simp only [DeviceContext.inUse, total_advance_eq]
    exact hnew.2 hp

theorem inUse_usbCompletes (hj : j ∈ s.atUsb) (status : DrainStatus) (readLength : UInt32) :
    { s with
      atUsb := s.atUsb.erase j
      routines := .completed j status readLength :: s.routines }.inUse i = s.inUse i := by
  simp only [DeviceContext.inUse, total_cons, Routine.has]
  by_cases hi : j = i
  · subst hi
    have hpos := List.count_pos_iff.mpr hj
    rw [List.count_erase_self, if_pos rfl]
    omega
  · rw [List.count_erase_of_ne (Ne.symm hi), if_neg hi]
    omega

theorem DeviceContext.Owned.step (h : s.Owned i) (hserial : op.Serial s) (hs : s.step op = some t) :
    t.Owned i := by
  cases op with
  | turn r ok => exact h.turn hserial hs
  | pipeDrainStart =>
    obtain rfl := Option.some.inj hs
    by_cases hdrain : s.pipeDrain = true
    · rw [if_pos hdrain]
      exact h
    · rw [if_neg hdrain]
      refine ⟨?_, fun hp => ?_⟩
      · simpa [DeviceContext.inUse, DeviceContext.claimed, Routine.has, Routine.claims] using h.once
      · simpa [DeviceContext.inUse, Routine.has] using h.notPending hp
  | pipeDrainStop =>
    obtain rfl := Option.some.inj hs
    exact ⟨h.once, h.notPending⟩
  | usbCompletes j status readLength =>
    obtain ⟨hj, rfl⟩ := step_usbCompletes_eq_some hs
    refine ⟨?_, fun hp => ?_⟩
    · rw [inUse_usbCompletes hj]
      simpa [DeviceContext.claimed, Routine.claims] using h.once
    · rw [inUse_usbCompletes hj]
      exact h.notPending hp
  | evtDeviceCleanup =>
    obtain rfl := Option.some.inj hs
    refine ⟨?_, fun hp => ?_⟩
    · simpa [DeviceContext.inUse, DeviceContext.claimed, Routine.has, Routine.claims] using h.once
    · simpa [DeviceContext.inUse, Routine.has] using h.notPending hp

theorem prepared_owned (numOfRxReqs : Nat) (ioFailureThreshold : UInt32) (i : Nat) :
    (DeviceContext.prepared numOfRxReqs ioFailureThreshold).Owned i :=
  ⟨Nat.zero_le 1, fun _ => rfl⟩

theorem owned_of_visits {numOfRxReqs : Nat} {ioFailureThreshold : UInt32} {ops : List Op}
    (hserial : ∀ p ∈ drainMachine.fires (.prepared numOfRxReqs ioFailureThreshold) ops,
      p.2.Serial p.1) (i : Nat) :
    ∀ t ∈ drainMachine.visits (.prepared numOfRxReqs ioFailureThreshold) ops, t.Owned i :=
  Machine.visits_all_of_fires (P := fun s => s.Owned i)
    (fun _ _ _ _ h hop hs => h.step hop (drainMachine_eq_some.mp hs))
    (prepared_owned numOfRxReqs ioFailureThreshold i) hserial

/-- If no test of `IsPending` overlaps another routine's test and setting, the USB stack never has a
request twice, and it has no request that is not pending. -/
theorem visits_owned {numOfRxReqs : Nat} {ioFailureThreshold : UInt32} {ops : List Op}
    (hserial : ∀ p ∈ drainMachine.fires (.prepared numOfRxReqs ioFailureThreshold) ops,
      p.2.Serial p.1) :
    ∀ t ∈ drainMachine.visits (.prepared numOfRxReqs ioFailureThreshold) ops,
      t.atUsb.Nodup ∧ ∀ i ∈ t.atUsb, t.isPending i = true := by
  intro t ht
  have howned : ∀ i, t.Owned i := fun i => owned_of_visits hserial i t ht
  refine ⟨List.nodup_iff_count_le_one.mpr fun i => ?_, fun i hi => ?_⟩
  · have honce := (howned i).once
    rw [DeviceContext.inUse] at honce
    omega
  · by_contra hnot
    have hzero := (howned i).notPending (Bool.eq_false_iff.mpr hnot)
    have hpos := List.count_pos_iff.mpr hi
    rw [DeviceContext.inUse] at hzero
    omega

instance (s : DeviceContext) (op : Op) : Decidable (op.Serial s) :=
  match op with
  | .turn (.startSend j pc) _ | .turn (.sendAgain j pc) _ =>
    decidable_of_iff (pc = .testPending → s.claimed j = 0)
      ⟨fun h _ hi => hi.1 ▸ h hi.2, fun h hpc => h j ⟨rfl, hpc⟩⟩
  | .turn (.startLoop _) _ | .turn (.completed _ _ _) _ | .turn (.testDrain _ _) _
  | .turn (.testRemoval _ _) _ | .turn (.clearPending _ _) _ | .turn .decrement _
  | .turn .testSignal _ | .turn .clearDrain _ | .turn .waitForDrainToStop _
  | .turn .pollDraining _ | .turn .waitAgain _ | .turn .freeIoBuffer _ => .isTrue fun _ hi => hi.elim
  | .pipeDrainStart | .pipeDrainStop | .usbCompletes _ _ _ | .evtDeviceCleanup => .isTrue trivial

theorem visits_owned_sample : ∃ t ∈ drainMachine.visits (.prepared 1 24) (sampleOps.take 7),
    t.atUsb = [0] ∧ t.atUsb.Nodup ∧ ∀ i ∈ t.atUsb, t.isPending i = true := by
  have hne : drainMachine.visits (.prepared 1 24) (sampleOps.take 7) ≠ [] :=
    List.ne_nil_of_mem (Machine.start_mem_visits _ _)
  exact ⟨_, List.getLast_mem hne, rfl, visits_owned (by decide) _ (List.getLast_mem hne)⟩

/-! ## Lost requests -/

/-- The request counts as pending, but nobody has it. -/
structure DeviceContext.Lost (s : DeviceContext) (i : Nat) : Prop where
  pending : s.isPending i = true
  nobody : s.inUse i + s.claimed i = 0

theorem RequestTurn.lost {test : Prop} {p p' : Bool} {n h c n' h' c' has claims : Nat}
    (hr : RequestTurn test ok p n h c p' n' h' c') (hpending : p = true)
    (hnobody : n + (h + has) + (c + claims) = 0) :
    p' = true ∧ n' + (has + h') + (claims + c') = 0 := by
  cases hr with
  | same => exact ⟨hpending, by omega⟩
  | claim _ hp => exact absurd (hp.symm.trans hpending) Bool.false_ne_true
  | _ => omega

theorem DeviceContext.Lost.step (h : s.Lost i) (hs : s.step op = some t) : t.Lost i := by
  obtain ⟨hpending, hnobody⟩ := h
  cases op with
  | turn r ok =>
    obtain ⟨hr, rfl⟩ := step_turn_eq_some hs
    simp only [DeviceContext.inUse, DeviceContext.claimed, total_erase hr] at hnobody
    have hnew := (turn_request s r ok i).lost hpending hnobody
    refine ⟨hnew.1, ?_⟩
    simp only [DeviceContext.inUse, DeviceContext.claimed, total_advance_eq]
    exact hnew.2
  | pipeDrainStart =>
    obtain rfl := Option.some.inj hs
    by_cases hdrain : s.pipeDrain = true
    · rw [if_pos hdrain]
      exact ⟨hpending, hnobody⟩
    · rw [if_neg hdrain]
      exact ⟨hpending, by
        simpa [DeviceContext.inUse, DeviceContext.claimed, Routine.has, Routine.claims] using hnobody⟩
  | pipeDrainStop =>
    obtain rfl := Option.some.inj hs
    exact ⟨hpending, hnobody⟩
  | usbCompletes j status readLength =>
    obtain ⟨hj, rfl⟩ := step_usbCompletes_eq_some hs
    refine ⟨hpending, ?_⟩
    rw [inUse_usbCompletes hj]
    simpa [DeviceContext.claimed, Routine.claims] using hnobody
  | evtDeviceCleanup =>
    obtain rfl := Option.some.inj hs
    exact ⟨hpending, by
      simpa [DeviceContext.inUse, DeviceContext.claimed, Routine.has, Routine.claims] using hnobody⟩

end Qdss
