-- SUMMARY: The net buffers that are under way on the transmit lists, and what each step does to them.
import QcomUsb.Library.Places
import QcomUsb.Ndis.TxQueues

/-!
# Net buffers under way

A net buffer is under way while it is on a list, in an item, or in the hands of a thread. A step
moves net buffers, finishes one, or drops some; only a send adds new ones.
-/

namespace Ndis.Tx

open Transition Places

/-- The net buffers in the hands of the MP thread. -/
def TxThread.nbs : TxThread → List Nb
  | .idle => []
  | .popped nb _ => [nb]
  | .processing nb _ item => nb :: item.toList.flatMap (·.packetList)
  | .finishing nb item _ => nb :: item.toList.flatMap (·.packetList)
  | .letGo item _ => item.packetList

namespace State

/-- The net buffers that are under way. -/
def live (s : State) : List Nb :=
  s.txPendingList ++ s.qmapFlowControlList ++ s.flowControlList .v4 ++ s.flowControlList .v6 ++
    s.uplinkFreeBufferQueue.flatMap (·.packetList) ++ s.inUsb.flatMap (·.packetList) ++
    s.tx.nbs ++ s.cancelQueues.flatMap id ++ s.completing.flatMap (·.packetList)

/-- What the contexts say about the net buffers. -/
def progress (s : State) : List (List TxContextNb × Nat) :=
  s.contexts.map fun c => (c.nbContext, c.completions)

end State

/-- A step that moves net buffers, and drops some. -/
structure Moves (s s' : State) (dropped : List Nb) : Prop where
  live : (s'.live ++ dropped).Perm s.live
  progress : s'.progress = s.progress
  busy : s'.nBusyTx = s.nBusyTx
  intact : s'.intact = s.intact
  pauses : s'.pauses = s.pauses

/-- A step that runs `MP_TxIRPCompleteEx` on a net buffer. -/
structure Finishes (s s' : State) (nb : Nb) : Prop where
  live : (nb :: s'.live).Perm s.live
  contexts : s'.contexts = s.contexts.modify nb.nbl (·.irpComplete nb.index)
  intact : s'.intact = s.intact
  pauses : s'.pauses = s.pauses

variable {s s' : State} {quickTx : Bool}

/-! ## The MP thread -/

theorem moves_take {ready : Bool} (h : s.take ready = some s') : Moves s s' [] := by
  unfold State.take at h
  split at h
  next nb rest htx _ hpending =>
    cases ready with
    | true =>
      obtain rfl := Option.some.inj h
      refine ⟨List.perm_iff_count.mpr fun a => ?_, rfl, rfl, rfl, rfl⟩
      simp only [State.live, TxThread.nbs, htx, hpending, List.count_append, List.count_cons,
        List.count_nil]
      omega
    | false =>
      obtain rfl := Option.some.inj h
      refine ⟨List.perm_iff_count.mpr fun a => ?_, rfl, rfl, rfl, rfl⟩
      simp only [State.live, TxThread.nbs, htx, hpending, Option.toList_none, List.flatMap_nil,
        List.count_append, List.count_cons, List.count_nil]
      omega
  next => cases h

theorem moves_flush (h : s.flush = some s') : Moves s s' [] := by
  unfold State.flush at h
  split at h
  next item rest htx hqueue =>
    obtain rfl := Option.some.inj h
    refine ⟨List.perm_iff_count.mpr fun a => ?_, rfl, rfl, rfl, rfl⟩
    simp only [State.live, TxThread.nbs, htx, hqueue, List.flatMap_cons, List.count_append,
      List.count_nil]
    omega
  next => cases h

theorem moves_takeItem (h : s.takeItem = some s') : Moves s s' [] := by
  unfold State.takeItem at h
  split at h
  next nb flink htx =>
    obtain rfl := Option.some.inj h
    refine ⟨List.perm_iff_count.mpr fun a => ?_, rfl, rfl, rfl, rfl⟩
    cases hqueue : s.uplinkFreeBufferQueue with
    | nil => simp [State.live, TxThread.nbs, htx, hqueue]
    | cons item rest =>
      simp only [State.live, TxThread.nbs, htx, hqueue, List.head?_cons, List.tail_cons,
        Option.toList_some, List.flatMap_cons, List.flatMap_nil, List.append_nil,
        List.count_append, List.count_cons, List.count_nil]
      omega
  next => cases h

/-- The packet joins the item, or is about to be completed. -/
theorem moves_accept {stays : Bool} (h : s.accept quickTx stays = some s') : Moves s s' [] := by
  unfold State.accept at h
  split at h
  next nb flink item htx =>
    cases quickTx <;> cases stays <;> obtain rfl := Option.some.inj h <;>
      refine ⟨List.perm_iff_count.mpr fun a => ?_, rfl, rfl, rfl, rfl⟩ <;>
      simp only [State.live, TxThread.nbs, htx, Option.toList_some, Option.toList_none,
        List.flatMap_cons, List.flatMap_nil, List.append_nil, List.count_append, List.count_cons,
        List.count_nil, if_true, if_false, Bool.false_eq_true] <;>
      omega
  next => cases h

theorem moves_letGo (h : s.letGo = some s') : Moves s s' [] := by
  unfold State.letGo at h
  split at h
  next item htx =>
    obtain rfl := Option.some.inj h
    refine ⟨List.perm_iff_count.mpr fun a => ?_, rfl, rfl, rfl, rfl⟩
    simp only [State.live, TxThread.nbs, htx, List.flatMap_append, List.flatMap_cons,
      List.flatMap_nil, List.append_nil, List.count_append]
    omega
  next item htx =>
    obtain rfl := Option.some.inj h
    refine ⟨List.perm_iff_count.mpr fun a => ?_, rfl, rfl, rfl, rfl⟩
    simp only [State.live, TxThread.nbs, htx, List.flatMap_cons, List.count_append,
      List.count_nil]
    omega
  next => cases h

/-- What `RemoveEntryList` drops. -/
def State.unlinked (quickTx : Bool) (s : State) : List Nb :=
  match s.tx with
  | .processing _ none _ => if quickTx then [] else s.txPendingList
  | .processing _ (some next) _ =>
    if quickTx then [] else s.txPendingList.takeWhile fun nb => nb ≠ next
  | _ => []

/-- The entry that followed the packet when it was taken off is still pending, if there was one. -/
def State.LinkHolds (quickTx : Bool) (s : State) : Prop :=
  quickTx = false → ∀ nb next item, s.tx = .processing nb (some next) item →
    next ∈ s.txPendingList

theorem moves_fail (hlink : s.LinkHolds quickTx) (h : s.fail quickTx = some s') :
    Moves s s' (s.unlinked quickTx) := by
  unfold State.fail at h
  split at h
  next nb flink item htx =>
    cases quickTx with
    | true =>
      obtain rfl := Option.some.inj h
      refine ⟨List.perm_iff_count.mpr fun a => ?_, rfl, rfl, rfl, rfl⟩
      cases flink <;> simp [State.live, TxThread.nbs, State.unlinked, htx]
    | false =>
      simp only [Bool.false_eq_true, if_false, Option.some.injEq] at h
      cases flink with
      | none =>
        subst h
        refine ⟨List.perm_iff_count.mpr fun a => ?_, rfl, rfl, rfl, rfl⟩
        simp only [State.live, TxThread.nbs, State.unlinked, State.removeEntryList, htx,
          List.count_append, List.count_nil, Bool.false_eq_true, if_false]
        omega
      | some next =>
        have hmem : next ∈ s.txPendingList := hlink rfl nb next item htx
        rw [State.removeEntryList, if_pos hmem] at h
        subst h
        refine ⟨List.perm_iff_count.mpr fun a => ?_, rfl, rfl, rfl, rfl⟩
        have hcount := congrArg (List.count a)
          (s.txPendingList.takeWhile_append_dropWhile (p := fun nb => decide (nb ≠ next)))
        simp only [List.count_append] at hcount
        simp only [State.live, TxThread.nbs, State.unlinked, htx, List.count_append,
          Bool.false_eq_true, if_false]
        omega
  next => cases h

theorem finishes_finish (h : s.finish = some s') :
    ∃ nb item send, s.tx = .finishing nb item send ∧ Finishes s s' nb ∧
      s'.nBusyTx = s.nBusyTx - 1 := by
  unfold State.finish at h
  split at h
  next nb send htx =>
    obtain rfl := Option.some.inj h
    refine ⟨nb, none, send, htx, ⟨List.perm_iff_count.mpr fun a => ?_, rfl, rfl, rfl⟩, rfl⟩
    simp only [State.live, State.irpComplete, TxThread.nbs, htx, Option.toList_none,
      List.flatMap_nil, List.count_append, List.count_cons, List.count_nil]
    omega
  next nb item send htx =>
    obtain rfl := Option.some.inj h
    refine ⟨nb, some item, send, htx, ⟨List.perm_iff_count.mpr fun a => ?_, rfl, rfl, rfl⟩, rfl⟩
    simp only [State.live, State.irpComplete, TxThread.nbs, htx, Option.toList_some,
      List.flatMap_cons, List.flatMap_nil, List.append_nil, List.count_append, List.count_cons]
    omega
  next => cases h

/-! ## Completions in USB -/

theorem moves_usbCompletes {k : Nat} (h : s.usbCompletes k = some s') : Moves s s' [] := by
  obtain ⟨item, hk, rfl⟩ := Option.map_eq_some_iff.mp h
  have hout := flatMap_perm_eraseIdx (f := fun item : TlpItem => item.packetList) hk
  refine ⟨List.perm_iff_count.mpr fun a => ?_, rfl, rfl, rfl, rfl⟩
  have hcount := hout.count_eq a
  simp only [List.count_append] at hcount
  simp only [State.live, List.flatMap_append, List.flatMap_cons, List.flatMap_nil,
    List.append_nil, List.count_append]
  omega

/-- The loop over an item finishes its first packet, or is at its end. -/
theorem completeNext_cases {k : Nat} (h : s.completeNext k = some s') :
    Moves s s' [] ∨
      ∃ hasData nb rest, s.completing[k]? = some ⟨hasData, nb :: rest⟩ ∧ Finishes s s' nb ∧
        s'.nBusyTx = s.nBusyTx - 1 := by
  unfold State.completeNext at h
  split at h
  next => cases h
  next hk =>
    obtain rfl := Option.some.inj h
    have hout := flatMap_perm_eraseIdx (f := fun item : TlpItem => item.packetList) hk
    refine .inl ⟨List.perm_iff_count.mpr fun a => ?_, rfl, rfl, rfl, rfl⟩
    have hcount := hout.count_eq a
    simp only [List.count_append, List.count_nil] at hcount
    simp only [State.live, List.flatMap_append, List.flatMap_cons, List.flatMap_nil,
      List.append_nil, List.count_append]
    omega
  next hasData nb rest hk =>
    obtain rfl := Option.some.inj h
    have hout := flatMap_perm_eraseIdx (f := fun item : TlpItem => item.packetList) hk
    have hin := flatMap_set_perm (f := fun item : TlpItem => item.packetList) hk ⟨hasData, rest⟩
    refine .inr ⟨hasData, nb, rest, hk, ⟨List.perm_iff_count.mpr fun a => ?_, rfl, rfl, rfl⟩, rfl⟩
    have hcount := hout.count_eq a
    have hcount' := hin.count_eq a
    simp only [List.count_append, List.count_cons] at hcount hcount'
    simp only [State.live, State.irpComplete, List.count_append, List.count_cons]
    omega

/-! ## Cancellations -/

/-- The entries that the walk of a cancellation removes and does not put on its queue. -/
def cancelDrops (cancelId : Nat) : List Nb → List TxContextNbl → List Nb
  | [], _ => []
  | nb :: rest, contexts =>
    match contexts[nb.nbl]? with
    | none => nb :: cancelDrops cancelId rest contexts
    | some c =>
      if c.canceld then nb :: cancelDrops cancelId rest contexts
      else if c.cancelId = cancelId then
        cancelDrops cancelId rest (contexts.set nb.nbl { c with canceld := true })
      else cancelDrops cancelId rest contexts

theorem cancelWalk_perm (cancelId : Nat) (nbs : List Nb) (contexts : List TxContextNbl) :
    ((State.cancelWalk cancelId nbs contexts).1 ++ (State.cancelWalk cancelId nbs contexts).2.1 ++
      cancelDrops cancelId nbs contexts).Perm nbs := by
  induction nbs generalizing contexts with
  | nil => exact .refl _
  | cons nb rest ih =>
    cases hc : contexts[nb.nbl]? with
    | none =>
      simp only [State.cancelWalk, cancelDrops, hc]
      exact List.perm_middle.trans ((ih contexts).cons nb)
    | some c =>
      by_cases hcanceld : c.canceld = true
      · simp only [State.cancelWalk, cancelDrops, hc, if_pos hcanceld]
        exact List.perm_middle.trans ((ih contexts).cons nb)
      · by_cases hid : c.cancelId = cancelId
        · simp only [State.cancelWalk, cancelDrops, hc, if_neg hcanceld, if_pos hid]
          exact (List.perm_middle.append_right _).trans ((ih _).cons nb)
        · simp only [State.cancelWalk, cancelDrops, hc, if_neg hcanceld, if_neg hid]
          exact (ih contexts).cons nb

theorem cancelWalk_progress (cancelId : Nat) (nbs : List Nb) (contexts : List TxContextNbl) :
    (State.cancelWalk cancelId nbs contexts).2.2.map (fun c => (c.nbContext, c.completions))
      = contexts.map fun c => (c.nbContext, c.completions) := by
  induction nbs generalizing contexts with
  | nil => rfl
  | cons nb rest ih =>
    unfold State.cancelWalk
    split
    next => exact ih contexts
    next c hc =>
      obtain ⟨hlt, hget⟩ := List.getElem?_eq_some_iff.mp hc
      split
      · exact ih contexts
      · split
        · refine (ih _).trans (List.ext_getElem? fun i => ?_)
          rw [List.map_set, List.getElem?_set]
          split
          next heq =>
            subst heq
            simp [hlt, ← hget]
          next => rfl
        · exact ih contexts

theorem moves_cancelSend (s : State) (cancelId : Nat) :
    Moves s (s.cancelSend cancelId) (cancelDrops cancelId s.txPendingList s.contexts) := by
  refine ⟨List.perm_iff_count.mpr fun a => ?_,
    cancelWalk_progress cancelId s.txPendingList s.contexts, rfl, rfl, rfl⟩
  have hcount := (cancelWalk_perm cancelId s.txPendingList s.contexts).count_eq a
  simp only [List.count_append] at hcount
  simp only [State.live, State.cancelSend, List.flatMap_append, List.flatMap_cons, id,
    List.flatMap_nil, List.append_nil, List.count_append]
  omega

/-- The loop over the queue of a cancellation finishes its first entry, or is at its end. -/
theorem cancelNext_cases {k : Nat} (h : s.cancelNext k = some s') :
    Moves s s' [] ∨
      ∃ nb rest, s.cancelQueues[k]? = some (nb :: rest) ∧ Finishes s s' nb ∧
        s'.nBusyTx = s.nBusyTx - 1 := by
  unfold State.cancelNext at h
  split at h
  next => cases h
  next hk =>
    obtain rfl := Option.some.inj h
    have hout := flatMap_perm_eraseIdx (f := id) hk
    refine .inl ⟨List.perm_iff_count.mpr fun a => ?_, rfl, rfl, rfl, rfl⟩
    have hcount := hout.count_eq a
    simp only [id, List.nil_append] at hcount
    simp only [State.live, List.append_nil, List.count_append]
    omega
  next nb rest hk =>
    obtain rfl := Option.some.inj h
    have hout := flatMap_perm_eraseIdx (f := id) hk
    have hin := flatMap_set_perm (f := id) hk rest
    refine .inr ⟨nb, rest, hk, ⟨List.perm_iff_count.mpr fun a => ?_, rfl, rfl, rfl⟩, rfl⟩
    have hcount := hout.count_eq a
    have hcount' := hin.count_eq a
    simp only [id, List.count_append, List.count_cons] at hcount hcount'
    simp only [State.live, State.irpComplete, List.count_append, List.count_cons]
    omega

/-! ## Purges, clean-ups and flow control -/

theorem finishes_purgeQmap (h : s.purgeQmap = some s') :
    ∃ nb rest, s.qmapFlowControlList = nb :: rest ∧ Finishes s s' nb ∧
      s'.nBusyTx = s.nBusyTx - 2 := by
  unfold State.purgeQmap at h
  split at h
  next => cases h
  next nb rest hheld =>
    obtain rfl := Option.some.inj h
    refine ⟨nb, rest, hheld, ⟨List.perm_iff_count.mpr fun a => ?_, rfl, rfl, rfl⟩, ?_⟩
    · simp only [State.live, State.irpComplete, hheld, List.count_append, List.count_cons]
      omega
    · simp only [State.irpComplete]
      omega

theorem finishes_purgeFlow {version : IPVer} (h : s.purgeFlow version = some s') :
    ∃ nb rest, s.flowControlList version = nb :: rest ∧ Finishes s s' nb ∧
      s'.nBusyTx = s.nBusyTx - 2 := by
  unfold State.purgeFlow at h
  split at h
  next => cases h
  next nb rest hheld =>
    obtain rfl := Option.some.inj h
    refine ⟨nb, rest, hheld, ⟨List.perm_iff_count.mpr fun a => ?_, rfl, rfl, rfl⟩, ?_⟩
    · cases version <;>
        simp only [State.live, State.irpComplete, hheld, Function.update_self, ne_eq, reduceCtorEq,
          not_false_eq_true, Function.update_of_ne, List.count_append, List.count_cons] <;>
        omega
    · simp only [State.irpComplete]
      omega

/-- A loop over `TxPendingList` finishes its first entry. -/
theorem finishes_pending {nb : Nb} {rest : List Nb} (hpending : s.txPendingList = nb :: rest) :
    Finishes s ({ s with txPendingList := rest }.irpComplete nb) nb := by
  refine ⟨List.perm_iff_count.mpr fun a => ?_, rfl, rfl, rfl⟩
  simp only [State.live, State.irpComplete, hpending, List.count_append, List.count_cons]
  omega

theorem moves_purgeTLP (hempty : ∀ item ∈ s.uplinkFreeBufferQueue, item.packetList = [])
    (h : s.purgeTLP = some s') : Moves s s' [] := by
  unfold State.purgeTLP at h
  split at h
  next =>
    have hall : (s.uplinkFreeBufferQueue.all fun item => item.packetList.isEmpty) = true := by
      simpa using hempty
    rw [if_pos hall] at h
    obtain rfl := Option.some.inj h
    have hnone : s.uplinkFreeBufferQueue.flatMap (·.packetList) = [] :=
      List.flatMap_eq_nil_iff.mpr hempty
    refine ⟨.of_eq ?_, rfl, rfl, rfl, rfl⟩
    simp [State.live, hnone]
  next => cases h

theorem moves_qmapFlowControlCall (s : State) (flowControlled : Bool) :
    Moves s (s.qmapFlowControlCall flowControlled) [] := by
  cases flowControlled <;> refine ⟨List.perm_iff_count.mpr fun a => ?_, rfl, rfl, rfl, rfl⟩ <;>
    simp only [State.live, State.qmapFlowControlCall, if_true, if_false, Bool.false_eq_true,
      List.count_append, List.count_nil] <;>
    omega

theorem moves_flowControlCall (s : State) (version : IPVer) (flowControlled : Bool) :
    Moves s (s.flowControlCall version flowControlled) [] := by
  cases flowControlled <;> cases version <;>
    refine ⟨List.perm_iff_count.mpr fun a => ?_, rfl, rfl, rfl, rfl⟩ <;>
    simp [State.live, State.flowControlCall, List.count_append] <;>
    omega

/-! ## Unfinished net buffers -/

/-- The net buffer was accepted and is not finished. -/
def State.Open (s : State) (nb : Nb) : Prop :=
  ∃ c b, s.contexts[nb.nbl]? = some c ∧ c.nbContext[nb.index]? = some b ∧ b.finished = false

theorem State.open_iff_progress (s : State) (nb : Nb) :
    s.Open nb ↔ ∃ p b, s.progress[nb.nbl]? = some p ∧ p.1[nb.index]? = some b ∧
      b.finished = false := by
  simp only [Open, progress, List.getElem?_map, Option.map_eq_some_iff]
  constructor
  · rintro ⟨c, b, hc, hb, hfinished⟩
    exact ⟨_, b, ⟨c, hc, rfl⟩, hb, hfinished⟩
  · rintro ⟨_, b, ⟨c, hc, rfl⟩, hb, hfinished⟩
    exact ⟨c, b, hc, hb, hfinished⟩

theorem State.unfinished_eq_progress (s : State) :
    s.unfinished = (s.progress.map fun p => p.1.countP (! ·.finished)).sum := by
  simp [unfinished, progress, Function.comp_def]

theorem open_of_progress (h : s'.progress = s.progress) (nb : Nb) : s'.Open nb ↔ s.Open nb := by
  rw [State.open_iff_progress, State.open_iff_progress, h]

theorem unfinished_of_progress (h : s'.progress = s.progress) : s'.unfinished = s.unfinished := by
  rw [State.unfinished_eq_progress, State.unfinished_eq_progress, h]

theorem TxContextNbl.nbContext_irpComplete (c : TxContextNbl) (index : Nat) :
    (c.irpComplete index).nbContext = c.nbContext.modify index fun b =>
      { b with completed := true, finished := true } := by
  unfold irpComplete
  split <;> rfl

/-- `MP_TxIRPCompleteEx` leaves one net buffer fewer unfinished. -/
theorem Finishes.unfinished {nb : Nb} (hf : Finishes s s' nb) (hopen : s.Open nb) :
    s'.unfinished + 1 = s.unfinished := by
  obtain ⟨c, b, hc, hb, hfinished⟩ := hopen
  have hone : (c.irpComplete nb.index).nbContext.countP (! ·.finished) + 1
      = c.nbContext.countP (! ·.finished) := by
    rw [c.nbContext_irpComplete, (modify_perm _ hb).countP_eq, (perm_cons_eraseIdx hb).countP_eq]
    simp [hfinished]
  unfold State.unfinished
  rw [hf.contexts, ((modify_perm _ hc).map _).sum_eq, ((perm_cons_eraseIdx hc).map _).sum_eq,
    List.map_cons, List.map_cons, List.sum_cons, List.sum_cons, ← hone]
  omega

theorem Finishes.open_iff {nb : Nb} (hf : Finishes s s' nb) (other : Nb) :
    s'.Open other ↔ other ≠ nb ∧ s.Open other := by
  unfold State.Open
  rw [hf.contexts]
  by_cases hnbl : other.nbl = nb.nbl
  · rw [hnbl, List.getElem?_modify_eq]
    cases hc : s.contexts[nb.nbl]? with
    | none => simp
    | some c =>
      simp only [Option.map_eq_map, Option.map_some, Option.some.injEq, exists_and_left,
        exists_eq_left', c.nbContext_irpComplete]
      by_cases hindex : other.index = nb.index
      · have heq : other = nb := by
          cases other
          cases nb
          simp_all
        rw [hindex, List.getElem?_modify_eq]
        simp only [heq, ne_eq, not_true_eq_false, false_and, iff_false]
        rintro ⟨b, hb, hfinished⟩
        obtain ⟨b', -, rfl⟩ := Option.map_eq_some_iff.mp hb
        simp at hfinished
      · have hne : other ≠ nb := fun heq => hindex (heq ▸ rfl)
        rw [List.getElem?_modify_ne _ _ (Ne.symm hindex)]
        simp [hne]
  · have hne : other ≠ nb := fun heq => hnbl (heq ▸ rfl)
    rw [List.getElem?_modify_ne _ _ (Ne.symm hnbl)]
    simp [hne]

/-! ## What is under way is unfinished -/

/-- Each net buffer under way is in one place and unfinished. -/
structure State.Sound (s : State) : Prop where
  nodup : s.live.Nodup
  live_open : ∀ nb ∈ s.live, s.Open nb

theorem Moves.sound {dropped : List Nb} (hm : Moves s s' dropped) (h : s.Sound) : s'.Sound where
  nodup := (List.nodup_append.mp (hm.live.nodup_iff.mpr h.nodup)).1
  live_open nb hnb := by
    rw [open_of_progress hm.progress]
    exact h.live_open nb (hm.live.subset (List.mem_append_left _ hnb))

theorem Finishes.mem_live {nb : Nb} (hf : Finishes s s' nb) : nb ∈ s.live :=
  hf.live.subset List.mem_cons_self

theorem Finishes.sound {nb : Nb} (hf : Finishes s s' nb) (h : s.Sound) : s'.Sound := by
  obtain ⟨hout, hnodup⟩ := List.nodup_cons.mp (hf.live.nodup_iff.mpr h.nodup)
  refine ⟨hnodup, fun other hother => (hf.open_iff other).mpr ⟨?_, ?_⟩⟩
  · rintro rfl
    exact hout hother
  · exact h.live_open other (hf.live.subset (List.mem_cons_of_mem _ hother))

/-! ## Marks and sends -/

/-- A net buffer that is marked completed is as unfinished as before. -/
structure Marks (s s' : State) (nb : Nb) : Prop where
  live : s'.live = s.live
  contexts : s'.contexts = s.contexts.modify nb.nbl (·.setCompleted nb.index)
  busy : s'.nBusyTx = s.nBusyTx
  intact : s'.intact = s.intact
  pauses : s'.pauses = s.pauses

theorem marks_mark (h : s.mark = some s') :
    ∃ nb flink item, s.tx = .processing nb flink item ∧ Marks s s' nb := by
  unfold State.mark at h
  split at h
  next nb flink item htx =>
    obtain rfl := Option.some.inj h
    exact ⟨nb, flink, item, htx, rfl, rfl, rfl, rfl, rfl⟩
  next => cases h

/-- Which net buffers of the lists are finished. -/
def State.finishedFlags (s : State) : List (List Bool) :=
  s.contexts.map fun c => c.nbContext.map (·.finished)

theorem State.open_iff_flags (s : State) (nb : Nb) :
    s.Open nb ↔ ∃ flags, s.finishedFlags[nb.nbl]? = some flags ∧
      flags[nb.index]? = some false := by
  simp only [Open, finishedFlags, List.getElem?_map, Option.map_eq_some_iff]
  constructor
  · rintro ⟨c, b, hc, hb, hfinished⟩
    exact ⟨_, ⟨c, hc, rfl⟩, by simp [hb, hfinished]⟩
  · rintro ⟨_, ⟨c, hc, rfl⟩, hflag⟩
    rw [List.getElem?_map, Option.map_eq_some_iff] at hflag
    obtain ⟨b, hb, hfinished⟩ := hflag
    exact ⟨c, b, hc, hb, hfinished⟩

theorem State.unfinished_eq_flags (s : State) :
    s.unfinished = (s.finishedFlags.map (List.countP (!·))).sum := by
  simp [unfinished, finishedFlags, Function.comp_def, List.countP_map]

theorem Marks.finishedFlags {nb : Nb} (hm : Marks s s' nb) :
    s'.finishedFlags = s.finishedFlags := by
  have hsame (c : TxContextNbl) : (c.setCompleted nb.index).nbContext.map (·.finished)
      = c.nbContext.map (·.finished) :=
    map_modify_of_eq (f := fun b : TxContextNb => { b with completed := true })
      (g := (·.finished)) (fun _ => rfl) c.nbContext nb.index
  unfold State.finishedFlags
  rw [hm.contexts]
  exact map_modify_of_eq hsame s.contexts nb.nbl

theorem Marks.sound {nb : Nb} (hm : Marks s s' nb) (h : s.Sound) : s'.Sound where
  nodup := hm.live ▸ h.nodup
  live_open other hother := by
    rw [State.open_iff_flags, hm.finishedFlags, ← State.open_iff_flags]
    exact h.live_open other (hm.live ▸ hother)

theorem Marks.unfinished {nb : Nb} (hm : Marks s s' nb) : s'.unfinished = s.unfinished := by
  rw [State.unfinished_eq_flags, State.unfinished_eq_flags, hm.finishedFlags]

/-- A list that is accepted. -/
theorem live_send (s : State) (cancelId : Nat) (canceld : Bool)
    {versions : List (Option IPVer)} (hne : versions ≠ []) :
    (s.send cancelId canceld versions true).live.Perm
      (s.sentNbs versions.length ++ s.live) := by
  rw [s.send_eq cancelId canceld hne]
  refine List.perm_iff_count.mpr fun a => ?_
  by_cases hflow : s.qmapFlowControl = true
  · simp only [State.live, if_pos hflow, List.count_append]
    omega
  · simp only [State.live, if_neg hflow, List.count_append]
    omega

theorem open_append {contexts : List TxContextNbl} (h : s'.contexts = s.contexts ++ contexts)
    {nb : Nb} (hopen : s.Open nb) : s'.Open nb := by
  obtain ⟨c, b, hc, hb, hfinished⟩ := hopen
  refine ⟨c, b, ?_, hb, hfinished⟩
  rw [h, List.getElem?_append_left (List.getElem?_eq_some_iff.mp hc).1, hc]

theorem Open.nbl_lt {nb : Nb} (hopen : s.Open nb) : nb.nbl < s.contexts.length := by
  obtain ⟨c, -, hc, -⟩ := hopen
  exact (List.getElem?_eq_some_iff.mp hc).1

theorem State.Sound.send (h : s.Sound) (cancelId : Nat) (canceld : Bool)
    {versions : List (Option IPVer)} (hne : versions ≠ []) :
    (s.send cancelId canceld versions true).Sound := by
  have hperm := live_send s cancelId canceld hne
  have hcontexts : (s.send cancelId canceld versions true).contexts
      = s.contexts ++ [newContext cancelId canceld versions] := by rw [s.send_eq cancelId canceld hne]
  constructor
  · refine hperm.nodup_iff.mpr (List.nodup_append'.mpr ⟨?_, h.nodup, fun nb hnew hold => ?_⟩)
    · exact List.nodup_range.map fun a b heq => congrArg Nb.index heq
    · obtain ⟨index, -, rfl⟩ := List.mem_map.mp hnew
      exact Nat.lt_irrefl _ (Open.nbl_lt (h.live_open _ hold))
  · intro nb hnb
    rcases List.mem_append.mp (hperm.subset hnb) with hnew | hold
    · obtain ⟨index, hindex, rfl⟩ := List.mem_map.mp hnew
      have hlt : index < versions.length := List.mem_range.mp hindex
      refine ⟨newContext cancelId canceld versions, ⟨versions[index], false, false⟩, ?_, ?_, rfl⟩
      · rw [hcontexts]
        simp
      · simp [newContext, hlt]
    · exact open_append hcontexts (h.live_open nb hold)

theorem unfinished_send (s : State) (cancelId : Nat) (canceld : Bool)
    {versions : List (Option IPVer)} (hne : versions ≠ []) :
    (s.send cancelId canceld versions true).unfinished = s.unfinished + versions.length := by
  rw [s.send_eq cancelId canceld hne]
  simp [State.unfinished, State.newContext, List.countP_map, Function.comp_def]

/-- A list that is given back at once. -/
theorem State.Sound.send_refused (h : s.Sound) (cancelId : Nat) (canceld : Bool)
    {versions : List (Option IPVer)} {allocated : Bool}
    (hrefused : ¬ (versions ≠ [] ∧ allocated)) :
    (s.send cancelId canceld versions allocated).Sound ∧
      (s.send cancelId canceld versions allocated).unfinished = s.unfinished := by
  rw [s.send_refused cancelId canceld hrefused]
  exact ⟨⟨h.nodup, fun nb hnb => open_append rfl (h.live_open nb hnb)⟩, by simp [unfinished]⟩

end Ndis.Tx
