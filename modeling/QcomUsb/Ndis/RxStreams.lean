-- SUMMARY: The packets of a receive stream reach NDIS in the order in which their reads completed, and the runs of the receive path.
import QcomUsb.Ndis.RxAccount

/-!
# Receive streams

A stream is what NDIS has seen of it, what its thread is indicating and what is in its chain. A
packet enters at the end, and a clean-up may take packets out.
-/

namespace Ndis.Rx

open Transition

variable {n k : Nat} {s s' : State n k}

/-! ## The order of a stream -/

/-- The packets of a stream that NDIS has seen or is to see. -/
def State.stream (s : State n k) (idx : Fin k) : List Packet :=
  s.indicated idx ++ (s.indicating idx ++ s.rxNblChain idx).map Filled.packet

/-- The packet is on its way to NDIS, or was indicated. -/
def State.Begun (s : State n k) (p : Packet) : Prop :=
  (∃ idx, p ∈ s.stream idx) ∨ ∃ c ∈ s.completing, p = c.1.packet

structure State.Ordered (s : State n k) : Prop where
  stream : ∀ idx, (s.stream idx).Pairwise InOrder
  begun : ∀ p, s.Begun p → p.number < s.completions
  completing : ∀ p, s.Begun p → ∀ c ∈ s.completing, InOrder p c.1.packet

theorem State.initial_ordered (adapter : Adapter) (size : Nat) :
    (initial n k adapter size).Ordered where
  stream _ := List.Pairwise.nil
  begun := by simp [Begun, stream, initial]
  completing := by simp [initial]

/-- Packets may leave a stream. -/
theorem State.Ordered.of_sublist (h : s.Ordered)
    (hstream : ∀ idx, (s'.stream idx).Sublist (s.stream idx))
    (hcompleting : s'.completing = s.completing) (hcompletions : s'.completions = s.completions) :
    s'.Ordered := by
  have hbegun : ∀ p, s'.Begun p → s.Begun p := by
    rintro p (⟨idx, hp⟩ | hp)
    · exact .inl ⟨idx, (hstream idx).subset hp⟩
    · exact .inr (hcompleting ▸ hp)
  constructor
  · exact fun idx => (h.stream idx).sublist (hstream idx)
  · exact fun p hp => hcompletions ▸ h.begun p (hbegun p hp)
  · exact fun p hp c hc => h.completing p (hbegun p hp) c (hcompleting ▸ hc)

theorem State.Ordered.post (h : s.Ordered) : s.post.Ordered := by
  unfold State.post
  split
  · exact h.of_sublist (fun _ => .refl _) rfl rfl
  · exact h

/-- A packet whose read completes is in order with all that began before it. -/
theorem State.Ordered.rxIrpCompletion {b : Fin n} {success : Bool} {idx : Fin k}
    (h : s.Ordered) : (s.rxIrpCompletion b success idx).Ordered := by
  unfold State.rxIrpCompletion
  split
  case isFalse => exact h
  dsimp only
  split
  case isFalse => exact h.of_sublist (fun _ => .refl _) rfl rfl
  -- the new packet is the last to begin, and overlaps what is completing
  constructor
  · exact h.stream
  · rintro p (hp | ⟨c, hc, rfl⟩)
    · exact Nat.lt_succ_of_lt (h.begun p (.inl hp))
    · rcases List.mem_append.mp hc with hc | hc
      · exact Nat.lt_succ_of_lt (h.begun _ (.inr ⟨c, hc, rfl⟩))
      · obtain rfl := List.mem_singleton.mp hc
        exact Nat.lt_succ_self _
  · have hnumber : ∀ p, s.Begun p ∨ p = s.newPacket → p.number ≤ s.completions := by
      rintro p (hp | rfl)
      · exact (h.begun p hp).le
      · exact le_rfl
    rintro p hp c hc hlt
    have hp : s.Begun p ∨ p = s.newPacket := by
      rcases hp with hp | ⟨c, hc, rfl⟩
      · exact .inl (.inl hp)
      · rcases List.mem_append.mp hc with hc | hc
        · exact .inl (.inr ⟨c, hc, rfl⟩)
        · obtain rfl := List.mem_singleton.mp hc
          exact .inr rfl
    rcases List.mem_append.mp hc with hc | hc
    · rcases hp with hp | rfl
      · exact h.completing p hp c hc hlt
      · exact List.mem_map_of_mem hc
    · obtain rfl := List.mem_singleton.mp hc
      exact absurd hlt (Nat.not_lt.mpr (hnumber p hp))

/-- A packet that enters its stream is in order with all that is there. -/
theorem State.Ordered.insertChain {j : Nat} (h : s.Ordered)
    (hstep : s.insertChain j = some s') : s'.Ordered := by
  unfold State.insertChain at hstep
  split at hstep
  · cases hstep
  next r idx hj =>
    obtain rfl := Option.some.inj hstep
    have hr : (r, idx) ∈ s.completing := List.mem_of_getElem? hj
    have hrest : ∀ c ∈ s.completing.eraseIdx j, c ∈ s.completing :=
      fun c hc => List.mem_of_mem_eraseIdx hc
    obtain ⟨s', hs'⟩ : ∃ s' : State n k, s' = { s with
      miniportReserved := Function.update s.miniportReserved r.buffer r.buffer
      completing := s.completing.eraseIdx j
      rxNblChain := Function.update s.rxNblChain idx (s.rxNblChain idx ++ [r])
      nRxInNblChain := s.nRxInNblChain + 1 } := ⟨_, rfl⟩
    have hself : s'.stream idx = s.stream idx ++ [r.packet] := by
      simp [hs', State.stream]
    have hother : ∀ i, i ≠ idx → s'.stream i = s.stream i := by
      intro i hi
      simp [hs', State.stream, Function.update_of_ne hi]
    have hbegun : ∀ p, s'.Begun p → s.Begun p := by
      rintro p (⟨i, hp⟩ | ⟨c, hc, rfl⟩)
      · rcases eq_or_ne i idx with rfl | hi
        · rw [hself] at hp
          rcases List.mem_append.mp hp with hp | hp
          · exact .inl ⟨i, hp⟩
          · exact .inr ⟨_, hr, List.mem_singleton.mp hp⟩
        · exact .inl ⟨i, hother i hi ▸ hp⟩
      · rw [hs'] at hc
        exact .inr ⟨c, hrest c hc, rfl⟩
    rw [← hs']
    constructor
    · intro i
      rcases eq_or_ne i idx with rfl | hi
      · rw [hself, List.pairwise_append]
        refine ⟨h.stream i, List.pairwise_singleton .., fun p hp q hq => ?_⟩
        obtain rfl := List.mem_singleton.mp hq
        exact h.completing p (.inl ⟨i, hp⟩) _ hr
      · rw [hother i hi]
        exact h.stream i
    · intro p hp
      rw [hs']
      exact h.begun p (hbegun p hp)
    · intro p hp c hc
      rw [hs'] at hc
      exact h.completing p (hbegun p hp) c (hrest c hc)

theorem State.stream_processRxChain {idx : Fin k} (hstep : s.processRxChain idx = some s')
    (i : Fin k) : s'.stream i = s.stream i := by
  obtain ⟨hidle, hstep⟩ := Option.ite_none_right_eq_some.mp hstep
  obtain rfl := Option.some.inj hstep
  rcases eq_or_ne i idx with rfl | hi
  · simp [State.stream, hidle]
  · simp [State.stream, Function.update_of_ne hi]

theorem State.stream_indicate (s : State n k) (idx i : Fin k) :
    (s.indicate idx).stream i = s.stream i := by
  rcases eq_or_ne i idx with rfl | hi
  · simp [State.stream, State.indicate]
  · simp [State.stream, State.indicate, Function.update_of_ne hi]

/-- A return does not touch the streams. -/
theorem State.Ordered.returnLoop {nbls : List (Fin n)} (h : s.Ordered) :
    (s.returnLoop nbls).1.Ordered := by
  induction nbls generalizing s with
  | nil => exact h
  | cons nbl nbls ih =>
    unfold State.returnLoop
    dsimp only
    split
    · exact ih (h.of_sublist (fun _ => .refl _) rfl rfl)
    · exact h

/-- Every step keeps the order. -/
theorem step_ordered {op : Op n k} (h : s.Ordered) (hstep : step s op = some s') :
    s'.Ordered := by
  cases op with
  | setAdapter adapter =>
    obtain rfl := Option.some.inj hstep
    exact h.of_sublist (fun _ => .refl _) rfl rfl
  | post =>
    obtain rfl := Option.some.inj hstep
    exact h.post
  | postNext j allocated =>
    simp only [step, State.postNext, State.postTake, State.postPacketRead] at hstep
    split at hstep
    case h_1 => cases hstep
    all_goals
      obtain rfl := Option.some.inj hstep
      repeat' split
      all_goals exact h.of_sublist (fun _ => .refl _) rfl rfl
  | readCompletes b success idx =>
    obtain ⟨hb, hstep⟩ := Option.ite_none_right_eq_some.mp hstep
    obtain rfl := Option.some.inj hstep
    refine State.Ordered.rxIrpCompletion ?_
    exact h.of_sublist (fun _ => .refl _) rfl rfl
  | insertChain j => exact h.insertChain hstep
  | processRxChain idx =>
    have hstream := State.stream_processRxChain hstep
    obtain ⟨hidle, hstep⟩ := Option.ite_none_right_eq_some.mp hstep
    obtain rfl := Option.some.inj hstep
    exact h.of_sublist (fun i => hstream i ▸ .refl _) rfl rfl
  | indicate idx =>
    obtain rfl := Option.some.inj hstep
    exact h.of_sublist (fun i => s.stream_indicate idx i ▸ .refl _) rfl rfl
  | returnNbls nbls =>
    obtain ⟨hheld, hstep⟩ := Option.ite_none_right_eq_some.mp hstep
    have hloop : (s.returnLoop nbls).1.Ordered := h.returnLoop
    split at hstep
    next heq =>
      rw [heq] at hloop
      obtain rfl := Option.some.inj hstep
      exact hloop.post
    next heq =>
      rw [heq] at hloop
      obtain rfl := Option.some.inj hstep
      exact hloop
  | cleanupNext idx =>
    simp only [step, State.cleanupNext] at hstep
    split at hstep
    · cases hstep
    next r rest hr =>
      obtain rfl := Option.some.inj hstep
      refine h.of_sublist (fun i => ?_) rfl rfl
      rcases eq_or_ne i idx with rfl | hi
      · simp [State.stream, hr]
      · simp [State.stream, Function.update_of_ne hi]
  | cleanupStep j =>
    simp only [step, State.cleanupStep] at hstep
    split at hstep
    case h_1 => cases hstep
    all_goals
      obtain rfl := Option.some.inj hstep
      exact h.of_sublist (fun _ => .refl _) rfl rfl
  | cleanupQueues =>
    obtain rfl := Option.some.inj hstep
    unfold State.cleanupQueues
    split
    · exact h.of_sublist (fun _ => .refl _) rfl rfl
    · exact h

/-! ## Runs -/

/-- In every run that gets the IRPs it needs and does not clean up the queues over buffers in use,
the buffers are conserved between operations, and each stream is indicated in order. -/
theorem rxBuffers_conserved (n k : Nat) (adapter : Adapter) (size : Nat) (ops : List (Op n k))
    (hok : ∀ p ∈ (rxMachine n k).fires (.initial n k adapter size) ops, Intact p.1 p.2) :
    ∀ s ∈ (rxMachine n k).visits (.initial n k adapter size) ops,
      (s.Idle → s.Conserved) ∧ ∀ idx, (s.indicated idx).Pairwise InOrder := by
  have hstep : ∀ (s : State n k) op s' o, s.Inv ∧ s.Ordered → Intact s op →
      rxMachine n k s op = some (s', o) → s'.Inv ∧ s'.Ordered := by
    intro s op s' o h hop hs
    obtain ⟨t, ht, heq⟩ := Option.map_eq_some_iff.mp hs
    obtain ⟨rfl, -⟩ := Prod.mk.inj heq
    exact ⟨step_inv h.1 hop ht, step_ordered h.2 ht⟩
  intro s hs
  obtain ⟨hinv, hordered⟩ := Machine.visits_all_of_fires hstep
    ⟨State.initial_inv adapter size, State.initial_ordered adapter size⟩ hok s hs
  exact ⟨hinv.conserved, fun idx => (List.pairwise_append.mp (hordered.stream idx)).1⟩

/-- An adapter that is connected and wants packets. -/
def connected : Adapter := ⟨true, false, false, 1, false, 0⟩

/-- A buffer goes around twice. -/
theorem rxBuffers_conserved_twice :
    let ops : List (Op 1 2) := [.post, .postNext 0 true, .postNext 0 true, .postNext 0 true,
      .postNext 0 true, .readCompletes 0 true 1, .insertChain 0, .processRxChain 1, .indicate 1,
      .returnNbls [0], .postNext 0 false, .postNext 0 false, .postNext 0 false, .postNext 0 false,
      .readCompletes 0 true 1, .insertChain 0, .processRxChain 1, .indicate 1]
    (∀ s ∈ (rxMachine 1 2).visits (.initial 1 2 connected 64) ops,
      (s.Idle → s.Conserved) ∧ ∀ idx, (s.indicated idx).Pairwise InOrder) ∧
    ∃ s ∈ (rxMachine 1 2).visits (.initial 1 2 connected 64) ops,
      s.indicated 1 = [⟨0, []⟩, ⟨1, []⟩] :=
  ⟨rxBuffers_conserved 1 2 connected 64 _ (by decide +kernel), by decide +kernel⟩

/-- Without an IRP the buffer stays pending, and USB does not have it. -/
theorem rxBuffers_conserved_noIrp :
    ¬ ∀ (n k : Nat) (adapter : Adapter) (size : Nat) (ops : List (Op n k)),
      ∀ s ∈ (rxMachine n k).visits (.initial n k adapter size) ops,
        (s.Idle → s.Conserved) ∧ ∀ idx, (s.indicated idx).Pairwise InOrder := by
  intro hall
  let ops : List (Op 1 2) := [.post, .postNext 0 false, .postNext 0 false, .postNext 0 false,
    .postNext 0 false]
  have hmem : ∃ s ∈ (rxMachine 1 2).visits (.initial 1 2 connected 64) ops,
      (s.posting = [] ∧ s.completing = [] ∧ (∀ idx, s.indicating idx = []) ∧ s.cleaning = []) ∧
        0 ∈ s.rxPendingList ∧ 0 ∉ s.inUsb := by decide +kernel
  obtain ⟨s, hs, hidle, hpending, hout⟩ := hmem
  exact hout (((hall 1 2 connected 64 ops s hs).1 hidle).posted 0 |>.mp hpending)

end Ndis.Rx
