-- SUMMARY: The account of the receive buffers: where each is, and what each counter is short of.
import QcomUsb.Ndis.RxBuffers

/-!
# The account of the receive buffers

Each buffer has one place, the hands of a thread included, and a counter differs from the length of
its list by what the threads have yet to count. Between two operations nothing is left to count.
-/

namespace Ndis.Rx

open Transition Places

variable {n k : Nat}

/-! ## Places -/

/-- Where a buffer is, the hands of a thread included. -/
inductive Place (k : Nat)
  | owner (o : Owner k)
  | completing
  | indicating (idx : Fin k)
  | cleaning
deriving DecidableEq

/-- The buffer a thread is posting. -/
def Posting.buffer : Posting n → Option (Fin n)
  | .looping => none
  | .linked b => some b
  | .counted b => some b

def Posting.isLinked : Posting n → Bool
  | .linked _ => true
  | _ => false

/-- The buffer a thread has taken off a chain. -/
def Cleaning.buffer : Cleaning n → Option (Fin n)
  | .removed b => some b
  | .inserted => none

def Cleaning.isInserted : Cleaning n → Bool
  | .removed _ => false
  | .inserted => true

def State.lists (s : State n k) : Place k → List (Fin n)
  | .owner o => s.owned o
  | .completing => s.completing.map (·.1.buffer)
  | .indicating idx => (s.indicating idx).map Filled.buffer
  | .cleaning => s.cleaning.filterMap Cleaning.buffer

/-- The counters are right up to what the threads have yet to count. -/
structure State.Inv (s : State n k) : Prop where
  placed : Placed s.lists
  pending : s.rxPendingList.Perm (s.inUsb ++ s.posting.filterMap Posting.buffer)
  irp : ∀ b ∈ s.inUsb, s.irp b = true
  free : s.nRxFreeInMP + s.cleaning.countP Cleaning.isInserted = s.rxFreeList.length
  usb : s.nRxPendingInUsb + s.posting.countP Posting.isLinked = s.rxPendingList.length
  chain : s.nRxInNblChain = ∑ idx, ((s.rxNblChain idx).length : Int)
  heldByNdis : s.nRxHeldByNdis = s.held.length + ∑ idx, ((s.indicating idx).length : Int)
  busy : s.nBusyRx + s.rxFreeList.length = n + s.cleaning.countP Cleaning.isInserted
  reserved : ∀ b, s.miniportReserved b = b

/-- The length of one list among several is changed. -/
theorem sum_length_update {α : Type} (f : Fin k → List α) (idx : Fin k) (l : List α) :
    (∑ i, ((Function.update f idx l i).length : Int)) + (f idx).length
      = (∑ i, ((f i).length : Int)) + l.length := by
  have hin : idx ∈ Finset.univ := Finset.mem_univ idx
  have hrest : ∑ i ∈ Finset.univ.erase idx, ((Function.update f idx l i).length : Int)
      = ∑ i ∈ Finset.univ.erase idx, ((f i).length : Int) := by
    refine Finset.sum_congr rfl fun i hi => ?_
    rw [Function.update_of_ne (Finset.ne_of_mem_erase hi)]
  have hnew := Finset.sum_erase_add Finset.univ
    (fun i => ((Function.update f idx l i).length : Int)) hin
  have hold := Finset.sum_erase_add Finset.univ (fun i => ((f i).length : Int)) hin
  rw [Function.update_self] at hnew
  omega

theorem State.initial_inv (adapter : Adapter) (size : Nat) :
    (initial n k adapter size).Inv where
  placed := by
    refine ⟨fun _ => .owner .rxFreeList, ?_, ?_⟩
    · rintro ((_ | _ | idx | _) | _ | idx | _)
      · exact List.nodup_finRange n
      all_goals exact List.nodup_nil
    · rintro ((_ | _ | idx | _) | _ | idx | _) b
      · simp [lists, owned, initial]
      all_goals simp [lists, owned, initial]
  pending := .refl _
  irp := by simp [initial]
  free := by simp [initial]
  usb := by simp [initial]
  chain := by simp [initial]
  heldByNdis := by simp [initial]
  busy := by simp [initial]
  reserved := fun _ => rfl

variable {s s' : State n k}

/-! ## Posting -/

theorem State.Inv.post (h : s.Inv) : s.post.Inv := by
  unfold State.post
  split
  · exact { h with
      pending := by simpa [Posting.buffer, List.filterMap_cons] using h.pending
      usb := by simpa [Posting.isLinked] using h.usb }
  · exact h

/-- A thread leaves its loop, or goes back to its head, without a buffer. -/
theorem State.Inv.postEnds {j : Nat} (h : s.Inv) (hj : s.posting[j]? = some .looping) :
    ({ s with posting := s.posting.eraseIdx j } : State n k).Inv := by
  have hposting : (s.posting.filterMap Posting.buffer).Perm
      ((s.posting.eraseIdx j).filterMap Posting.buffer) := filterMap_perm_eraseIdx hj
  have hlinked := (perm_cons_eraseIdx hj).countP_eq Posting.isLinked
  exact { h with
    pending := h.pending.trans (hposting.append_left _)
    usb := by rw [← h.usb, hlinked]; rfl }

/-- A thread takes a buffer. -/
theorem State.Inv.postTake {j : Nat} (h : s.Inv) (hj : s.posting[j]? = some .looping) :
    (s.postTake j).Inv := by
  unfold State.postTake
  split
  case h_1 b rest hfree =>
    split
    · have hposting : ((s.posting.set j (.linked b)).filterMap Posting.buffer).Perm
          (b :: s.posting.filterMap Posting.buffer) :=
        (filterMap_set_perm hj _).trans
          ((filterMap_perm_eraseIdx (g := Posting.buffer) hj).symm.cons b)
      have hlinked := (perm_cons_eraseIdx hj).countP_eq Posting.isLinked
      have hset := (List.set_perm_cons_eraseIdx (List.getElem?_eq_some_iff.mp hj).1
        (.linked b)).countP_eq Posting.isLinked
      have hp : (s.lists (.owner .rxFreeList)).Perm (b :: rest) := .of_eq hfree
      have hlen : s.rxFreeList.length = rest.length + 1 := by rw [hfree]; rfl
      have hinsert : (s.rxPendingList ++ [b]).Perm (b :: s.rxPendingList) :=
        List.perm_append_singleton b _
      have hfreeCount := h.free
      have husb := h.usb
      have hbusy := h.busy
      simp only [List.countP_cons, Posting.isLinked] at hlinked hset
      refine { h with placed := ?_, pending := ?_, free := ?_, usb := ?_, busy := ?_ }
      · refine h.placed.move (q := .owner .rxPendingList) (by simp) hp (.refl _) hinsert ?_
        rintro ((_ | _ | idx | _) | _ | idx | _) hfrom hto
        all_goals first | exact .refl _ | exact absurd rfl hfrom | exact absurd rfl hto
      · refine hinsert.trans ((h.pending.cons b).trans ?_)
        exact List.perm_middle.symm.trans (hposting.symm.append_left _)
      all_goals simp_all
      all_goals omega
    · exact h.postEnds hj
  · exact h.postEnds hj

/-- A thread counts the buffer it took. -/
theorem State.Inv.postCounts {j : Nat} {b : Fin n} (h : s.Inv)
    (hj : s.posting[j]? = some (.linked b)) :
    ({ s with
      nRxPendingInUsb := s.nRxPendingInUsb + 1
      posting := s.posting.set j (.counted b) } : State n k).Inv := by
  have hposting : ((s.posting.set j (.counted b)).filterMap Posting.buffer).Perm
      (s.posting.filterMap Posting.buffer) :=
    (filterMap_set_perm hj _).trans (filterMap_perm_eraseIdx (g := Posting.buffer) hj).symm
  have hlinked := (perm_cons_eraseIdx hj).countP_eq Posting.isLinked
  have hset := (List.set_perm_cons_eraseIdx (List.getElem?_eq_some_iff.mp hj).1
    (.counted b)).countP_eq Posting.isLinked
  have husb := h.usb
  simp only [List.countP_cons, Posting.isLinked] at hlinked hset
  refine { h with pending := ?_, usb := ?_ }
  · exact h.pending.trans (hposting.symm.append_left _)
  · simp only [hset]
    simp at hlinked
    simp
    omega

/-- A thread has an IRP for its buffer and sends it. -/
theorem State.Inv.postPacketRead {j : Nat} {b : Fin n} {allocated : Bool} (h : s.Inv)
    (hj : s.posting[j]? = some (.counted b)) (hirp : (s.irp b || allocated) = true) :
    (s.postPacketRead j b allocated).Inv := by
  have hold := filterMap_perm_eraseIdx (g := Posting.buffer) hj
  have hnew := filterMap_set_perm (g := Posting.buffer) hj .looping
  have hposting : (s.inUsb ++ s.posting.filterMap Posting.buffer).Perm
      (s.inUsb ++ [b] ++ (s.posting.set j .looping).filterMap Posting.buffer) := by
    rw [List.append_assoc]
    exact (hold.trans (hnew.symm.append_left [b])).append_left _
  have hlinked := (perm_cons_eraseIdx hj).countP_eq Posting.isLinked
  have hset := (List.set_perm_cons_eraseIdx (List.getElem?_eq_some_iff.mp hj).1
    .looping).countP_eq Posting.isLinked
  have hcount : (s.posting.set j .looping).countP Posting.isLinked
      = s.posting.countP Posting.isLinked := hset.trans hlinked.symm
  unfold State.postPacketRead
  simp only [hirp, if_true]
  refine { h with pending := h.pending.trans hposting, irp := ?_, usb := ?_ }
  · intro b' hb'
    rcases eq_or_ne b' b with rfl | hne
    · exact Function.update_self ..
    · refine (Function.update_of_ne hne ..).trans (h.irp b' ?_)
      simpa [hne] using hb'
  · rw [← h.usb, hcount]

/-! ## Completions -/

/-- A buffer that USB has is pending, and nothing posts it. -/
theorem State.Inv.mem_pending {b : Fin n} (h : s.Inv) (hb : b ∈ s.inUsb) :
    b ∈ s.rxPendingList := h.pending.mem_iff.mpr (List.mem_append_left _ hb)

theorem State.Inv.pending_erase {b : Fin n} (h : s.Inv) (hb : b ∈ s.inUsb) :
    (s.rxPendingList.erase b).Perm (s.inUsb.erase b ++ s.posting.filterMap Posting.buffer) := by
  have herase := h.pending.erase b
  rwa [List.erase_append_left _ hb] at herase

/-- A read completes. -/
theorem State.Inv.rxIrpCompletion {b : Fin n} {success : Bool} {idx : Fin k} (h : s.Inv)
    (hb : b ∈ s.inUsb) :
    ({ s with inUsb := s.inUsb.erase b }.rxIrpCompletion b success idx : State n k).Inv := by
  have hpending := h.mem_pending hb
  have hp : (s.lists (.owner .rxPendingList)).Perm (b :: s.rxPendingList.erase b) :=
    List.perm_cons_erase hpending
  have hlen : s.rxPendingList.length = (s.rxPendingList.erase b).length + 1 := hp.length_eq
  have husb := h.usb
  have hirp : ∀ b' ∈ s.inUsb.erase b, s.irp b' = true :=
    fun b' hb' => h.irp b' (List.mem_of_mem_erase hb')
  rw [State.rxIrpCompletion, if_pos ⟨hpending, h.irp b hb⟩]
  dsimp only
  split
  · refine { h with placed := ?_, pending := h.pending_erase hb, irp := hirp, usb := ?_ }
    · refine h.placed.move (q := .completing) (by simp) hp (.refl _) ?_ ?_
      · simp [State.lists]
      · rintro ((_ | _ | idx | _) | _ | idx | _) hfrom hto
        all_goals first | exact .refl _ | exact absurd rfl hfrom | exact absurd rfl hto
    · show s.nRxPendingInUsb - 1 + s.posting.countP Posting.isLinked
        = ((s.rxPendingList.erase b).length : Int)
      omega
  · have hfree := h.free
    have hbusy := h.busy
    refine { h with
      placed := ?_, pending := h.pending_erase hb, irp := hirp, free := ?_, usb := ?_, busy := ?_ }
    · refine h.placed.move (q := .owner .rxFreeList) (by simp) hp (.refl _)
        (List.perm_append_singleton b _) ?_
      rintro ((_ | _ | idx | _) | _ | idx | _) hfrom hto
      all_goals first | exact .refl _ | exact absurd rfl hfrom | exact absurd rfl hto
    · simp [State.relink]
      omega
    · show s.nRxPendingInUsb - 1 + s.posting.countP Posting.isLinked
        = ((s.rxPendingList.erase b).length : Int)
      omega
    · simp [State.relink]
      omega

theorem State.Inv.insertChain {j : Nat} {r : Filled n} {idx : Fin k} (h : s.Inv)
    (hj : s.completing[j]? = some (r, idx)) :
    ({ s with
      miniportReserved := Function.update s.miniportReserved r.buffer r.buffer
      completing := s.completing.eraseIdx j
      rxNblChain := Function.update s.rxNblChain idx (s.rxNblChain idx ++ [r])
      nRxInNblChain := s.nRxInNblChain + 1 } : State n k).Inv := by
  have hp : (s.lists .completing).Perm
      (r.buffer :: (s.completing.eraseIdx j).map (·.1.buffer)) :=
    (perm_cons_eraseIdx hj).map fun c : Filled n × Fin k => c.1.buffer
  have hchain := h.chain
  have hsum := sum_length_update s.rxNblChain idx (s.rxNblChain idx ++ [r])
  rw [List.length_append, List.length_singleton] at hsum
  refine { h with placed := ?_, chain := ?_, reserved := ?_ }
  · refine h.placed.move (q := .owner (.rxNblChain idx)) (by simp) hp (.refl _) ?_ ?_
    · simp [State.lists, State.owned]
    · rintro ((_ | _ | i | _) | _ | i | _) hfrom hto
      case owner.rxNblChain =>
        have hi : i ≠ idx := fun hi => hto (by rw [hi])
        exact .of_eq (by simp [State.lists, State.owned, Function.update_of_ne hi])
      all_goals first | exact .refl _ | exact absurd rfl hfrom
  · show s.nRxInNblChain + 1 = ∑ i,
      ((Function.update s.rxNblChain idx (s.rxNblChain idx ++ [r]) i).length : Int)
    push_cast at hsum
    omega
  · intro b
    rcases eq_or_ne b r.buffer with rfl | hne
    · exact Function.update_self ..
    · exact (Function.update_of_ne hne ..).trans (h.reserved b)

/-! ## Indications -/

theorem State.Inv.processRxChain {idx : Fin k} (h : s.Inv)
    (hstep : s.processRxChain idx = some s') : s'.Inv := by
  obtain ⟨hidle, hstep⟩ := Option.ite_none_right_eq_some.mp hstep
  obtain rfl := Option.some.inj hstep
  set m := max 1 s.rxIndClusterSize
  have hsplit : (s.rxNblChain idx).take m ++ (s.rxNblChain idx).drop m = s.rxNblChain idx :=
    List.take_append_drop m _
  have hp : (s.lists (.owner (.rxNblChain idx))).Perm
      (((s.rxNblChain idx).take m).map Filled.buffer ++
        ((s.rxNblChain idx).drop m).map Filled.buffer) := by
    rw [← List.map_append, hsplit]
    exact .refl _
  have hlen : ((s.rxNblChain idx).take m).length + ((s.rxNblChain idx).drop m).length
      = (s.rxNblChain idx).length := by rw [← List.length_append, hsplit]
  have hchain := h.chain
  have hheld := h.heldByNdis
  have hsum := sum_length_update s.rxNblChain idx ((s.rxNblChain idx).drop m)
  have hsum' := sum_length_update s.indicating idx ((s.rxNblChain idx).take m)
  rw [hidle, List.length_nil] at hsum'
  refine { h with placed := ?_, chain := ?_, heldByNdis := ?_ }
  · refine h.placed.moveList (q := .indicating idx) (by simp) hp ?_ ?_ ?_
    · simp [State.lists, State.owned]
    · simp [State.lists, hidle]
    · rintro ((_ | _ | i | _) | _ | i | _) hfrom hto
      case owner.rxNblChain =>
        have hi : i ≠ idx := fun hi => hfrom (by rw [hi])
        exact .of_eq (by simp [State.lists, State.owned, Function.update_of_ne hi])
      case indicating =>
        have hi : i ≠ idx := fun hi => hto (by rw [hi])
        exact .of_eq (by simp [State.lists, Function.update_of_ne hi])
      all_goals exact .refl _
  · show s.nRxInNblChain - ((s.rxNblChain idx).take m).length = ∑ i,
      ((Function.update s.rxNblChain idx ((s.rxNblChain idx).drop m) i).length : Int)
    omega
  · show s.nRxHeldByNdis + ((s.rxNblChain idx).take m).length = s.held.length + ∑ i,
      ((Function.update s.indicating idx ((s.rxNblChain idx).take m) i).length : Int)
    omega

theorem State.Inv.indicate {idx : Fin k} (h : s.Inv) : (s.indicate idx).Inv := by
  have hp : (s.lists (.indicating idx)).Perm ((s.indicating idx).map Filled.buffer ++ []) := by
    simp [State.lists]
  have hheld := h.heldByNdis
  have hsum := sum_length_update s.indicating idx []
  rw [List.length_nil] at hsum
  refine { h with placed := ?_, heldByNdis := ?_ }
  · refine h.placed.moveList (q := .owner .ndis) (by simp) hp ?_ List.perm_append_comm ?_
    · simp [State.lists, State.indicate]
    · rintro ((_ | _ | i | _) | _ | i | _) hfrom hto
      case indicating =>
        have hi : i ≠ idx := fun hi => hfrom (by rw [hi])
        exact .of_eq (by simp [State.lists, State.indicate, Function.update_of_ne hi])
      all_goals first | exact .refl _ | exact absurd rfl hto
  · simp only [State.indicate, List.length_append, List.length_map]
    push_cast
    omega

/-- NDIS returns a list, of which it has every one. -/
theorem State.Inv.returnLoop {nbls : List (Fin n)} (h : s.Inv) (hnodup : nbls.Nodup)
    (hheld : ∀ nbl ∈ nbls, nbl ∈ s.held) : (s.returnLoop nbls).1.Inv := by
  induction nbls generalizing s with
  | nil => exact h
  | cons nbl nbls ih =>
    obtain ⟨hout, hrest⟩ := List.nodup_cons.mp hnodup
    have hmem : nbl ∈ s.held := hheld nbl List.mem_cons_self
    have hp : (s.lists (.owner .ndis)).Perm (nbl :: s.held.erase nbl) := List.perm_cons_erase hmem
    have hlen : s.held.length = (s.held.erase nbl).length + 1 := hp.length_eq
    have hfree := h.free
    have hbusy := h.busy
    have hcount := h.heldByNdis
    simp only [State.returnLoop, h.reserved nbl, if_true]
    refine ih { h with placed := ?_, free := ?_, heldByNdis := ?_, busy := ?_ } hrest ?_
    · refine h.placed.move (q := .owner .rxFreeList) (by simp) hp (.refl _)
        (List.perm_append_singleton nbl _) ?_
      rintro ((_ | _ | i | _) | _ | i | _) hfrom hto
      all_goals first | exact .refl _ | exact absurd rfl hfrom | exact absurd rfl hto
    · simp [State.relink]
      omega
    · show s.nRxHeldByNdis - 1
        = ((s.held.erase nbl).length : Int) + ∑ idx, ((s.indicating idx).length : Int)
      omega
    · simp [State.relink]
      omega
    · intro b hb
      have hne : b ≠ nbl := fun heq => hout (heq ▸ hb)
      exact (List.mem_erase_of_ne hne).mpr (hheld b (List.mem_cons_of_mem _ hb))

theorem State.Inv.returnNbls {nbls : List (Fin n)} (h : s.Inv)
    (hstep : s.returnNbls nbls = some s') : s'.Inv := by
  obtain ⟨⟨hnodup, hheld⟩, hstep⟩ := Option.ite_none_right_eq_some.mp hstep
  have hloop := h.returnLoop hnodup hheld
  split at hstep
  next heq =>
    rw [heq] at hloop
    obtain rfl := Option.some.inj hstep
    exact hloop.post
  next heq =>
    rw [heq] at hloop
    obtain rfl := Option.some.inj hstep
    exact hloop

/-! ## Clean-ups -/

theorem State.Inv.cleanupNext {idx : Fin k} (h : s.Inv)
    (hstep : s.cleanupNext idx = some s') : s'.Inv := by
  unfold State.cleanupNext at hstep
  split at hstep
  · cases hstep
  next r rest hr =>
    obtain rfl := Option.some.inj hstep
    have hp : (s.lists (.owner (.rxNblChain idx))).Perm (r.buffer :: rest.map Filled.buffer) :=
      .of_eq (by simp [State.lists, State.owned, hr])
    have hchain := h.chain
    have hsum := sum_length_update s.rxNblChain idx rest
    rw [hr, List.length_cons] at hsum
    refine { h with placed := ?_, free := ?_, chain := ?_, busy := ?_ }
    · refine h.placed.move (q := .cleaning) (by simp) hp ?_ ?_ ?_
      · simp [State.lists, State.owned]
      · simp [State.lists, Cleaning.buffer]
      · rintro ((_ | _ | i | _) | _ | i | _) hfrom hto
        case owner.rxNblChain =>
          have hi : i ≠ idx := fun hi => hfrom (by rw [hi])
          exact .of_eq (by simp [State.lists, State.owned, Function.update_of_ne hi])
        all_goals first | exact .refl _ | exact absurd rfl hto
    · simpa [Cleaning.isInserted] using h.free
    · show s.nRxInNblChain - 1 = ∑ i, ((Function.update s.rxNblChain idx rest i).length : Int)
      push_cast at hsum
      omega
    · simpa [Cleaning.isInserted] using h.busy

theorem State.Inv.cleanupStep {j : Nat} (h : s.Inv) (hstep : s.cleanupStep j = some s') :
    s'.Inv := by
  unfold State.cleanupStep at hstep
  have hfree := h.free
  have hbusy := h.busy
  split at hstep
  · cases hstep
  next b hj =>
    obtain rfl := Option.some.inj hstep
    have hold := (perm_cons_eraseIdx hj).countP_eq Cleaning.isInserted
    have hset := (List.set_perm_cons_eraseIdx (List.getElem?_eq_some_iff.mp hj).1
      .inserted).countP_eq Cleaning.isInserted
    simp only [List.countP_cons, Cleaning.isInserted] at hold hset
    refine { h with placed := ?_, free := ?_, busy := ?_ }
    · have hp : (s.lists .cleaning).Perm
          (b :: (s.cleaning.eraseIdx j).filterMap Cleaning.buffer) := filterMap_perm_eraseIdx hj
      refine h.placed.move (q := .owner .rxFreeList) (by simp) hp
        (filterMap_set_perm (g := Cleaning.buffer) hj .inserted)
        (List.perm_append_singleton b _) ?_
      rintro ((_ | _ | i | _) | _ | i | _) hfrom hto
      all_goals first | exact .refl _ | exact absurd rfl hfrom | exact absurd rfl hto
    all_goals simp_all
    all_goals omega
  next hj =>
    obtain rfl := Option.some.inj hstep
    have hold := (perm_cons_eraseIdx hj).countP_eq Cleaning.isInserted
    simp only [List.countP_cons, Cleaning.isInserted] at hold
    refine { h with placed := ?_, free := ?_, busy := ?_ }
    · refine h.placed.of_perm ?_
      rintro ((_ | _ | i | _) | _ | i | _)
      case cleaning => exact (filterMap_perm_eraseIdx (g := Cleaning.buffer) hj).symm
      all_goals exact .refl _
    all_goals simp_all
    all_goals omega

/-- The clean-up of the queues does nothing when no buffer is in use. -/
theorem State.cleanupQueues_of_idle (h : s.nBusyRx ≤ 0) : s.cleanupQueues = s :=
  if_neg (by omega)

/-- An intact step keeps the account. -/
theorem step_inv {op : Op n k} (h : s.Inv) (hok : Intact s op) (hstep : step s op = some s') :
    s'.Inv := by
  cases op with
  | setAdapter adapter =>
    obtain rfl := Option.some.inj hstep
    exact { h with }
  | post =>
    obtain rfl := Option.some.inj hstep
    exact h.post
  | postNext j allocated =>
    simp only [step, State.postNext] at hstep
    split at hstep
    · cases hstep
    next hj =>
      obtain rfl := Option.some.inj hstep
      exact h.postTake hj
    next b hj =>
      obtain rfl := Option.some.inj hstep
      exact h.postCounts hj
    next b hj =>
      obtain rfl := Option.some.inj hstep
      have hirp : (s.irp b || allocated) = true := by simpa only [Intact, hj] using hok
      exact h.postPacketRead hj hirp
  | readCompletes b success idx =>
    obtain ⟨hb, hstep⟩ := Option.ite_none_right_eq_some.mp hstep
    obtain rfl := Option.some.inj hstep
    exact h.rxIrpCompletion hb
  | insertChain j =>
    simp only [step, State.insertChain] at hstep
    split at hstep
    · cases hstep
    next r idx hj =>
      obtain rfl := Option.some.inj hstep
      exact h.insertChain hj
  | processRxChain idx => exact h.processRxChain hstep
  | indicate idx =>
    obtain rfl := Option.some.inj hstep
    exact h.indicate
  | returnNbls nbls => exact h.returnNbls hstep
  | cleanupNext idx => exact h.cleanupNext hstep
  | cleanupStep j => exact h.cleanupStep hstep
  | cleanupQueues =>
    obtain rfl := Option.some.inj hstep
    rwa [State.cleanupQueues_of_idle hok]

/-- Between two operations the account is what it is to be. -/
theorem State.Inv.conserved (h : s.Inv) (hidle : s.Idle) : s.Conserved := by
  obtain ⟨hposting, hcompleting, hindicating, hcleaning⟩ := hidle
  have hnodup : s.rxFreeList.Nodup := h.placed.nodup (.owner .rxFreeList)
  have hfree := h.free
  have husb := h.usb
  have hheld := h.heldByNdis
  have hbusy := h.busy
  have hpending := h.pending
  simp only [hcleaning, List.countP_nil] at hfree hbusy
  simp only [hposting, List.countP_nil, List.filterMap_nil, List.append_nil] at husb hpending
  simp only [hindicating, List.length_nil, Nat.cast_zero, Finset.sum_const_zero] at hheld
  constructor
  case onePlace =>
    intro b
    obtain ⟨p, hone, hother⟩ := h.placed.onePlace b
    cases p with
    | owner o => exact ⟨o, hone, fun o' ho' => hother (.owner o') (by simpa using ho')⟩
    | completing => simp [State.lists, hcompleting] at hone
    | indicating idx => simp [State.lists, hindicating] at hone
    | cleaning => simp [State.lists, hcleaning] at hone
  case posted => exact fun b => hpending.mem_iff
  case nRxInNblChain => exact h.chain
  case nBusyRx =>
    have hcard : (Finset.univ.filter fun b => b ∉ s.rxFreeList).card + s.rxFreeList.length = n := by
      have hin : (Finset.univ.filter fun b => b ∈ s.rxFreeList) = s.rxFreeList.toFinset := by
        ext b
        simp
      have hsplit := Finset.card_filter_add_card_filter_not (s := Finset.univ)
        fun b => b ∈ s.rxFreeList
      rw [hin, List.toFinset_card_of_nodup hnodup, Finset.card_univ, Fintype.card_fin] at hsplit
      omega
    omega
  all_goals omega

end Ndis.Rx
