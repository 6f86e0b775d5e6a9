-- SUMMARY: When every net buffer list is given back exactly once in the aggregating modes.
import QcomUsb.Ndis.TxLive

/-!
# Completed net buffer lists

The net buffers of a list share one context. `MP_TxIRPCompleteEx` completes the list when all of them
are marked completed, so a list is completed once as long as no net buffer is lost on the way, none
is marked before it is finished, and nothing gives the list back as a whole.
-/

namespace Ndis.Tx

open Transition Places

/-- Every list was completed at most once, not before its last net buffer, and with it. -/
structure State.CompletedOnce (s : State) : Prop where
  once : ∀ c ∈ s.contexts, c.completions ≤ 1
  not_early : ∀ nbl c, s.contexts[nbl]? = some c → ∀ nb ∈ s.live, nb.nbl = nbl → c.completions = 0
  completed : ∀ nbl c, s.contexts[nbl]? = some c → (∀ nb ∈ s.live, nb.nbl ≠ nbl) →
    c.completions = 1

/-! ## The condition on a step -/

/-- The list of the net buffer has the cancel id. -/
def hasCancelId (contexts : List TxContextNbl) (cancelId : Nat) (nb : Nb) : Bool :=
  contexts[nb.nbl]?.any fun c => c.cancelId == cancelId

namespace State

/-- The other net buffers of the list. -/
def siblings (s : State) (nb : Nb) : List TxContextNb :=
  (s.contexts[nb.nbl]?.map fun c => c.nbContext.eraseIdx nb.index).getD []

/-- No other net buffer of the list is the last to be finished and marked already. -/
def MarkedLast (s : State) (nb : Nb) : Prop :=
  (∀ b ∈ s.siblings nb, b.completed = true) → ∀ b ∈ s.siblings nb, b.finished = true

/-- A pending net buffer's list was not marked cancelled. -/
def NotCanceld (s : State) (nb : Nb) : Prop :=
  ∃ c ∈ s.contexts[nb.nbl]?, c.canceld = false

/-- The link that the packet kept leads to the head of `TxPendingList`. -/
def LinkFresh (s : State) : Prop :=
  match s.tx with
  | .processing _ flink _ => flink = s.txPendingList.head?
  | _ => True

end State

/-- The net buffer on which a step runs `MP_TxIRPCompleteEx`. -/
def Op.finishes? (s : State) : Op → Option Nb
  | .finish =>
    match s.tx with
    | .finishing nb _ _ => some nb
    | _ => none
  | .completeNext k => s.completing[k]?.bind fun item => item.packetList.head?
  | .cancelNext k => s.cancelQueues[k]?.bind List.head?
  | .purgeQmap => s.qmapFlowControlList.head?
  | .purgeFlow version => (s.flowControlList version).head?
  | .cleanupNext | .purgeTLPNext => s.txPendingList.head?
  | _ => none

/-- A cancellation finds no list that is marked cancelled, and of each list with its cancel id one
net buffer at most. A packet is given up while its link is fresh, the items are purged empty, and a
list is given back as a whole only when one net buffer of it is left. -/
def Op.KeepsNbs (quickTx : Bool) (s : State) : Op → Prop
  | .cancelSend cancelId =>
    (∀ nb ∈ s.txPendingList, s.NotCanceld nb) ∧
      ((s.txPendingList.filter (hasCancelId s.contexts cancelId)).map (·.nbl)).Nodup
  | .fail => quickTx = false → s.LinkFresh
  | .processPendingTlpEx ready =>
    ready = false ∧
      ∀ nb ∈ s.txPendingList.head?, ∀ b ∈ s.siblings nb, b.finished = true
  | .purgeTLP => ∀ item ∈ s.uplinkFreeBufferQueue, item.packetList = []
  | _ => True

/-- The step loses no net buffer, and finishes none whose siblings are all marked completed while one
of them is under way. -/
structure Op.CompletesOnce (quickTx : Bool) (s : State) (op : Op) : Prop where
  keeps : op.KeepsNbs quickTx s
  last : ∀ nb ∈ op.finishes? s, s.MarkedLast nb

instance (s : State) (nb : Nb) : Decidable (s.MarkedLast nb) := by
  unfold State.MarkedLast
  infer_instance

instance (s : State) (nb : Nb) : Decidable (s.NotCanceld nb) := by
  unfold State.NotCanceld
  infer_instance

instance (s : State) : Decidable s.LinkFresh := by
  unfold State.LinkFresh
  split <;> infer_instance

instance (quickTx : Bool) (s : State) (op : Op) : Decidable (op.KeepsNbs quickTx s) := by
  unfold Op.KeepsNbs
  split <;> infer_instance

instance (quickTx : Bool) (s : State) (op : Op) : Decidable (op.CompletesOnce quickTx s) :=
  decidable_of_iff (op.KeepsNbs quickTx s ∧ ∀ nb ∈ op.finishes? s, s.MarkedLast nb)
    ⟨fun h => ⟨h.1, h.2⟩, fun h => ⟨h.keeps, h.last⟩⟩

/-! ## The invariant -/

/-- A list was completed if and only if all its net buffers are finished, and before that the
finished ones are marked completed. -/
structure Settled (p : List TxContextNb × Nat) : Prop where
  completions : p.2 = if p.1.all (·.finished) then 1 else 0
  marked : p.2 = 0 → ∀ b ∈ p.1, b.finished = true → b.completed = true

/-- What is under way is what is unfinished, and every list is settled. -/
structure State.Whole (s : State) : Prop where
  sound : s.Sound
  open_live : ∀ nb, s.Open nb → nb ∈ s.live
  settled : ∀ p ∈ s.progress, Settled p

variable {s s' : State} {quickTx : Bool}

theorem State.Whole.completedOnce (h : s.Whole) : s.CompletedOnce := by
  have hsettled {nbl : Nat} {c : TxContextNbl} (hc : s.contexts[nbl]? = some c) :
      Settled (c.nbContext, c.completions) :=
    h.settled _ (List.mem_map_of_mem (List.mem_of_getElem? hc))
  refine ⟨fun c hc => ?_, fun nbl c hc nb hnb hnbl => ?_, fun nbl c hc hnone => ?_⟩
  · obtain ⟨nbl, hnbl⟩ := List.getElem?_of_mem hc
    have hcount := (hsettled hnbl).completions
    dsimp only at hcount
    split at hcount <;> omega
  · subst hnbl
    obtain ⟨c', b, hc', hb, hfinished⟩ := h.sound.live_open nb hnb
    obtain rfl : c' = c := Option.some.inj (hc'.symm.trans hc)
    have hopen : ¬ c'.nbContext.all (·.finished) = true := fun hall => by
      have hb' := List.all_eq_true.mp hall b (List.mem_of_getElem? hb)
      simp [hfinished] at hb'
    simpa [hopen] using (hsettled hc).completions
  · have hall : c.nbContext.all (·.finished) = true := by
      refine List.all_eq_true.mpr fun b hb => ?_
      obtain ⟨index, hindex⟩ := List.getElem?_of_mem hb
      by_contra hfinished
      have hlive := h.open_live ⟨nbl, index⟩ ⟨c, b, hc, hindex, by simpa using hfinished⟩
      exact hnone _ hlive rfl
    simpa [hall] using (hsettled hc).completions

theorem Moves.whole (hm : Moves s s' []) (h : s.Whole) : s'.Whole where
  sound := hm.sound h.sound
  open_live nb hnb := by
    have hold := h.open_live nb ((open_of_progress hm.progress nb).mp hnb)
    simpa using hm.live.symm.subset hold
  settled := hm.progress ▸ h.settled

theorem all_modify_finished {c : TxContextNbl} {index : Nat} {b : TxContextNb}
    (hb : c.nbContext[index]? = some b) :
    (c.irpComplete index).nbContext.all (·.finished) = true ↔
      ∀ x ∈ c.nbContext.eraseIdx index, x.finished = true := by
  rw [c.nbContext_irpComplete, List.all_eq_true]
  simp [(modify_perm _ hb).mem_iff]

theorem allReturned_setFinished {c : TxContextNbl} {index : Nat} {b : TxContextNb}
    (hb : c.nbContext[index]? = some b) :
    (c.setFinished index).allReturned = true ↔
      ∀ x ∈ c.nbContext.eraseIdx index, x.completed = true := by
  rw [TxContextNbl.allReturned, TxContextNbl.setFinished, List.all_eq_true]
  simp [(modify_perm _ hb).mem_iff]

/-- `MP_TxIRPCompleteEx` settles the list anew, unless a net buffer is marked and not finished. -/
theorem Settled.irpComplete {c : TxContextNbl} {index : Nat} {b : TxContextNb}
    (h : Settled (c.nbContext, c.completions)) (hb : c.nbContext[index]? = some b)
    (hopen : b.finished = false)
    (hlast : (∀ x ∈ c.nbContext.eraseIdx index, x.completed = true) →
      ∀ x ∈ c.nbContext.eraseIdx index, x.finished = true) :
    Settled ((c.irpComplete index).nbContext, (c.irpComplete index).completions) := by
  have hzero : c.completions = 0 := by
    have hnot : ¬ c.nbContext.all (·.finished) = true := fun hall => by
      have hb' := List.all_eq_true.mp hall b (List.mem_of_getElem? hb)
      simp [hopen] at hb'
    simpa [hnot] using h.completions
  have hold : ∀ x ∈ c.nbContext.eraseIdx index, x.finished = true → x.completed = true :=
    fun x hx => h.marked hzero x ((List.eraseIdx_sublist c.nbContext index).subset hx)
  by_cases hall : ∀ x ∈ c.nbContext.eraseIdx index, x.completed = true
  · have hcount : (c.irpComplete index).completions = 1 := by
      rw [TxContextNbl.irpComplete, if_pos ((allReturned_setFinished hb).mpr hall)]
      exact congrArg (· + 1) hzero
    have hfinished := (all_modify_finished hb).mpr (hlast hall)
    exact ⟨by simp [hcount, hfinished], fun h0 => by simp [hcount] at h0⟩
  · have hcount : (c.irpComplete index).completions = 0 := by
      rw [TxContextNbl.irpComplete, if_neg fun h' => hall ((allReturned_setFinished hb).mp h')]
      exact hzero
    have hunfinished : ¬ (c.irpComplete index).nbContext.all (·.finished) = true := fun h' =>
      hall fun x hx => hold x hx ((all_modify_finished hb).mp h' x hx)
    refine ⟨by simp [hcount, hunfinished], fun _ x hx hfinished => ?_⟩
    rw [c.nbContext_irpComplete, (modify_perm _ hb).mem_iff] at hx
    rcases List.mem_cons.mp hx with rfl | hx
    · rfl
    · exact hold x hx hfinished

/-- A step that changes one context keeps the others settled. -/
theorem settled_modify {nbl : Nat} {f : TxContextNbl → TxContextNbl}
    (h : ∀ p ∈ s.progress, Settled p) (hcontexts : s'.contexts = s.contexts.modify nbl f)
    (hf : ∀ c, s.contexts[nbl]? = some c → Settled ((f c).nbContext, (f c).completions)) :
    ∀ p ∈ s'.progress, Settled p := by
  intro p hp
  obtain ⟨c', hc', rfl⟩ := List.mem_map.mp hp
  obtain ⟨k, hk⟩ := List.getElem?_of_mem hc'
  rw [hcontexts] at hk
  by_cases hnbl : nbl = k
  · subst hnbl
    rw [List.getElem?_modify_eq, Option.map_eq_map, Option.map_eq_some_iff] at hk
    obtain ⟨c, hc, rfl⟩ := hk
    exact hf c hc
  · rw [List.getElem?_modify_ne _ _ hnbl] at hk
    exact h _ (List.mem_map_of_mem (List.mem_of_getElem? hk))

theorem State.siblings_eq {nb : Nb} {c : TxContextNbl} (hc : s.contexts[nb.nbl]? = some c) :
    s.siblings nb = c.nbContext.eraseIdx nb.index := by
  simp [siblings, hc]

theorem Finishes.whole {nb : Nb} (hf : Finishes s s' nb) (h : s.Whole) (hlast : s.MarkedLast nb) :
    s'.Whole where
  sound := hf.sound h.sound
  open_live other hother := by
    obtain ⟨hne, hopen⟩ := (hf.open_iff other).mp hother
    rcases List.mem_cons.mp (hf.live.symm.subset (h.open_live other hopen)) with heq | hlive
    · exact absurd heq hne
    · exact hlive
  settled := by
    refine settled_modify h.settled hf.contexts fun c hc => ?_
    obtain ⟨c', b, hc', hb, hopen⟩ := h.sound.live_open nb hf.mem_live
    obtain rfl : c' = c := Option.some.inj (hc'.symm.trans hc)
    have hsettled := h.settled _ (List.mem_map_of_mem (List.mem_of_getElem? hc))
    refine hsettled.irpComplete hb hopen ?_
    simpa only [State.MarkedLast, State.siblings_eq hc] using hlast

theorem Marks.whole {nb : Nb} (hm : Marks s s' nb) (h : s.Whole) : s'.Whole where
  sound := hm.sound h.sound
  open_live other hother := by
    rw [State.open_iff_flags, hm.finishedFlags, ← State.open_iff_flags] at hother
    exact hm.live ▸ h.open_live other hother
  settled := by
    refine settled_modify h.settled hm.contexts fun c hc => ?_
    have hsettled := h.settled _ (List.mem_map_of_mem (List.mem_of_getElem? hc))
    have hflags : (c.setCompleted nb.index).nbContext.map (·.finished)
        = c.nbContext.map (·.finished) :=
      map_modify_of_eq (f := fun b : TxContextNb => { b with completed := true })
        (g := (·.finished)) (fun _ => rfl) c.nbContext nb.index
    have hall := congrArg (List.all · id) hflags
    simp only [List.all_map, Function.id_comp] at hall
    refine ⟨?_, fun hzero b hb hfinished => ?_⟩
    · have hcount := hsettled.completions
      dsimp only at hcount
      rw [← hall] at hcount
      exact hcount
    · obtain ⟨k, hk⟩ := List.getElem?_of_mem hb
      rw [TxContextNbl.setCompleted, List.getElem?_modify] at hk
      obtain ⟨b', hb', rfl⟩ := Option.map_eq_some_iff.mp hk
      by_cases hindex : nb.index = k
      · simp [hindex]
      · simp only [hindex, if_false] at hfinished ⊢
        exact hsettled.marked hzero b' (List.mem_of_getElem? hb') hfinished

/-- A fresh context is settled, with its net buffers under way or none at all. -/
theorem settled_append {c : TxContextNbl} (h : ∀ p ∈ s.progress, Settled p)
    (hcontexts : s'.contexts = s.contexts ++ [c]) (hc : Settled (c.nbContext, c.completions)) :
    ∀ p ∈ s'.progress, Settled p := by
  intro p hp
  rw [State.progress, hcontexts, List.map_append] at hp
  rcases List.mem_append.mp hp with hold | hnew
  · exact h p hold
  · obtain rfl := List.mem_singleton.mp hnew
    exact hc

/-- A net buffer that is open after a context was added was open before, or is of the new one. -/
theorem open_of_append {c : TxContextNbl} {nb : Nb} (hcontexts : s'.contexts = s.contexts ++ [c])
    (hopen : s'.Open nb) :
    s.Open nb ∨ nb.nbl = s.contexts.length ∧ nb.index < c.nbContext.length := by
  obtain ⟨c', b, hc', hb, hfinished⟩ := hopen
  rw [hcontexts] at hc'
  rcases Nat.lt_or_ge nb.nbl s.contexts.length with hlt | hge
  · rw [List.getElem?_append_left hlt] at hc'
    exact .inl ⟨c', b, hc', hb, hfinished⟩
  · obtain ⟨hlt, hget⟩ := List.getElem?_eq_some_iff.mp hc'
    have hnbl : nb.nbl = s.contexts.length := by
      simp at hlt
      omega
    obtain rfl : c = c' := by simpa [hnbl] using hget
    exact .inr ⟨hnbl, (List.getElem?_eq_some_iff.mp hb).1⟩

theorem State.Whole.send (h : s.Whole) (cancelId : Nat) (canceld : Bool)
    (versions : List (Option IPVer)) (allocated : Bool) :
    (s.send cancelId canceld versions allocated).Whole := by
  by_cases hsent : versions ≠ [] ∧ allocated = true
  · obtain ⟨hne, rfl⟩ := hsent
    have hlive := live_send s cancelId canceld hne
    have hcontexts : (s.send cancelId canceld versions true).contexts
        = s.contexts ++ [newContext cancelId canceld versions] := by
      rw [s.send_eq cancelId canceld hne]
    refine ⟨h.sound.send cancelId canceld hne, fun nb hopen => ?_, ?_⟩
    · refine hlive.symm.subset (List.mem_append.mpr ?_)
      rcases open_of_append hcontexts hopen with hold | ⟨hnbl, hindex⟩
      · exact .inr (h.open_live nb hold)
      · refine .inl (List.mem_map.mpr ⟨nb.index, List.mem_range.mpr ?_, ?_⟩)
        · simpa [newContext] using hindex
        · rw [← hnbl]
    · refine settled_append h.settled hcontexts ⟨?_, fun _ b hb hfinished => ?_⟩
      · simp [newContext, List.exists_mem_of_ne_nil _ hne]
      · obtain ⟨v, -, rfl⟩ := List.mem_map.mp hb
        cases hfinished
  · have hsound := (h.sound.send_refused cancelId canceld hsent).1
    rw [s.send_refused cancelId canceld hsent] at hsound ⊢
    refine ⟨hsound, fun nb hopen => ?_, ?_⟩
    · rcases open_of_append rfl hopen with hold | ⟨-, hindex⟩
      · exact h.open_live nb hold
      · exact absurd hindex (Nat.not_lt_zero _)
    · exact settled_append h.settled rfl ⟨rfl, fun hone => absurd hone Nat.one_ne_zero⟩

/-! ## Steps that could lose a net buffer -/

/-- A cancellation that finds one net buffer of each list loses none. -/
theorem cancelDrops_eq_nil {cancelId : Nat} {nbs : List Nb} {contexts : List TxContextNbl}
    (hfresh : ∀ nb ∈ nbs, ∃ c ∈ contexts[nb.nbl]?, c.canceld = false)
    (honce : ((nbs.filter (hasCancelId contexts cancelId)).map (·.nbl)).Nodup) :
    cancelDrops cancelId nbs contexts = [] := by
  induction nbs generalizing contexts with
  | nil => rfl
  | cons nb rest ih =>
    obtain ⟨c, hc, hcanceld⟩ := hfresh nb List.mem_cons_self
    have hrest : ∀ other ∈ rest, ∃ c ∈ contexts[other.nbl]?, c.canceld = false :=
      fun other hother => hfresh other (List.mem_cons_of_mem _ hother)
    rw [Option.mem_def] at hc
    by_cases hid : c.cancelId = cancelId
    · have hmatch : hasCancelId contexts cancelId nb = true := by
        simp [hasCancelId, hc, hid]
      rw [List.filter_cons_of_pos hmatch, List.map_cons, List.nodup_cons] at honce
      obtain ⟨hout, honce⟩ := honce
      -- the walk marks the context, and no later entry with the cancel id is of its list
      simp only [cancelDrops, hc, hcanceld, Bool.false_eq_true, if_false, if_pos hid]
      have hother (other : Nb) (hmem : other ∈ rest) : other.nbl ≠ nb.nbl := fun heq => by
        refine hout (List.mem_map.mpr ⟨other, List.mem_filter.mpr ⟨hmem, ?_⟩, heq⟩)
        rw [hasCancelId, heq]
        exact hmatch
      have hsame (other : Nb) (hmem : other ∈ rest) :
          (contexts.set nb.nbl { c with canceld := true })[other.nbl]? = contexts[other.nbl]? :=
        List.getElem?_set_ne (hother other hmem).symm
      refine ih (fun other hmem => ?_) ?_
      · rw [hsame other hmem]
        exact hrest other hmem
      · rw [List.filter_congr fun other hmem => by rw [hasCancelId, hsame other hmem]]
        exact honce
    · have hmiss : ¬ hasCancelId contexts cancelId nb = true := by
        simp [hasCancelId, hc, hid]
      rw [List.filter_cons_of_neg hmiss] at honce
      simp only [cancelDrops, hc, hcanceld, Bool.false_eq_true, if_false, if_neg hid]
      exact ih hrest honce

/-- A fresh link holds, and drops nothing. -/
theorem State.LinkFresh.unlinked (hfresh : quickTx = false → s.LinkFresh) :
    s.LinkHolds quickTx ∧ s.unlinked quickTx = [] := by
  cases quickTx with
  | true => exact ⟨fun h => Bool.noConfusion h, by unfold unlinked; split <;> rfl⟩
  | false =>
    have hlink := hfresh rfl
    unfold LinkFresh at hlink
    constructor
    · intro _ nb next item htx
      rw [htx] at hlink
      exact List.mem_of_mem_head? hlink.symm
    · unfold unlinked
      split
      next htx =>
        rw [htx] at hlink
        simpa using List.head?_eq_none_iff.mp hlink.symm
      next next _ htx =>
        rw [htx] at hlink
        obtain ⟨rest, hpending⟩ := List.head?_eq_some_iff.mp hlink.symm
        simp [hpending]
      next => rfl

/-- A list whose last net buffer is left is given back as a whole. -/
theorem State.Whole.giveBack {nb : Nb} {rest : List Nb} (h : s.Whole)
    (hpending : s.txPendingList = nb :: rest)
    (halone : ∀ b ∈ s.siblings nb, b.finished = true) :
    { s with
      txPendingList := rest
      contexts := s.contexts.modify nb.nbl (·.giveBack) }.Whole := by
  have hmem : nb ∈ s.live := by simp [live, hpending]
  obtain ⟨c, b, hc, hb, hopen⟩ := h.sound.live_open nb hmem
  have hperm : (nb :: ({ s with txPendingList := rest } : State).live).Perm s.live := by
    simp [live, hpending]
  obtain ⟨hout, hnodup⟩ := List.nodup_cons.mp (hperm.nodup_iff.mpr h.sound.nodup)
  rw [siblings_eq hc] at halone
  -- no other net buffer of the list is open, before or after
  have hlist (other : Nb) (hother : s.Open other) (hne : other ≠ nb) : nb.nbl ≠ other.nbl := by
    intro heq
    obtain ⟨c', b', hc', hb', hopen'⟩ := hother
    obtain rfl : c = c' := by simpa [← heq, hc] using hc'
    have hindex : other.index ≠ nb.index := fun hi => hne (by
      cases other
      cases nb
      simp_all)
    have hfinished := halone b' (List.mem_eraseIdx_iff_getElem?.mpr ⟨other.index, hindex, hb'⟩)
    simp [hopen'] at hfinished
  refine ⟨⟨hnodup, fun other hother => ?_⟩, fun other hother => ?_, ?_⟩
  · have hold := h.sound.live_open other (hperm.subset (List.mem_cons_of_mem _ hother))
    have hne : other ≠ nb := fun heq => hout (heq ▸ hother)
    obtain ⟨c', b', hc', hb', hopen'⟩ := hold
    refine ⟨c', b', ?_, hb', hopen'⟩
    rw [List.getElem?_modify_ne _ _ (hlist other ⟨c', b', hc', hb', hopen'⟩ hne)]
    exact hc'
  · obtain ⟨c', b', hc', hb', hopen'⟩ := hother
    by_cases hnbl : nb.nbl = other.nbl
    · rw [← hnbl, List.getElem?_modify_eq, hc] at hc'
      obtain rfl := Option.some.inj hc'
      obtain ⟨b'', -, rfl⟩ := List.mem_map.mp (List.mem_of_getElem? hb')
      cases hopen'
    · rw [List.getElem?_modify_ne _ _ hnbl] at hc'
      have hlive := h.open_live other ⟨c', b', hc', hb', hopen'⟩
      rcases List.mem_cons.mp (hperm.symm.subset hlive) with rfl | hrest
      · exact absurd rfl hnbl
      · exact hrest
  · refine settled_modify h.settled rfl fun c' hc' => ?_
    obtain rfl : c = c' := Option.some.inj (hc.symm.trans hc')
    have hnot : ¬ c.nbContext.all (·.finished) = true := fun hall => by
      have hb' := List.all_eq_true.mp hall b (List.mem_of_getElem? hb)
      simp [hopen] at hb'
    have hzero : c.completions = 0 := by
      have hcount := (h.settled _ (List.mem_map_of_mem (List.mem_of_getElem? hc))).completions
      simpa [hnot] using hcount
    refine ⟨?_, fun hone => ?_⟩
    · simp [TxContextNbl.giveBack, TxContextNbl.complete, hzero]
    · exact absurd hone (Nat.succ_ne_zero _)

theorem step_whole {op : Op} (h : s.Whole) (hop : op.CompletesOnce quickTx s)
    (hstep : s.step quickTx op = some s') : s'.Whole := by
  have moved (hm : Moves s s' []) : s'.Whole := hm.whole h
  have finished {nb : Nb} (hf : Finishes s s' nb) (hnb : op.finishes? s = some nb) : s'.Whole :=
    hf.whole h (hop.last nb hnb)
  have quiet (hlive : s'.live = s.live) (hcontexts : s'.contexts = s.contexts) : s'.Whole := by
    have hprogress : s'.progress = s.progress := by simp only [State.progress, hcontexts]
    refine ⟨⟨hlive ▸ h.sound.nodup, fun nb hnb => ?_⟩, fun nb hnb => ?_, hprogress ▸ h.settled⟩
    · exact (open_of_progress hprogress nb).mpr (h.sound.live_open nb (hlive ▸ hnb))
    · exact hlive ▸ h.open_live nb ((open_of_progress hprogress nb).mp hnb)
  cases op with
  | send cancelId canceld versions allocated =>
    obtain rfl := Option.some.inj hstep
    exact h.send cancelId canceld versions allocated
  | take ready => exact moved (moves_take hstep)
  | flush => exact moved (moves_flush hstep)
  | takeItem => exact moved (moves_takeItem hstep)
  | mark =>
    obtain ⟨nb, -, -, -, hm⟩ := marks_mark hstep
    exact hm.whole h
  | accept stays => exact moved (moves_accept hstep)
  | fail =>
    obtain ⟨hlink, hnone⟩ := State.LinkFresh.unlinked hop.keeps
    exact moved (hnone ▸ moves_fail hlink hstep)
  | finish =>
    obtain ⟨nb, item, send, htx, hf, -⟩ := finishes_finish hstep
    exact finished hf (by simp [Op.finishes?, htx])
  | letGo => exact moved (moves_letGo hstep)
  | usbCompletes k => exact moved (moves_usbCompletes hstep)
  | completeNext k =>
    rcases completeNext_cases hstep with hm | ⟨hasData, nb, rest, hk, hf, -⟩
    · exact moved hm
    · exact finished hf (by simp [Op.finishes?, hk])
  | cancelSend cancelId =>
    obtain rfl := Option.some.inj hstep
    obtain ⟨hfresh, honce⟩ := hop.keeps
    have hm := moves_cancelSend s cancelId
    rw [cancelDrops_eq_nil hfresh honce] at hm
    exact moved hm
  | cancelNext k =>
    rcases cancelNext_cases hstep with hm | ⟨nb, rest, hk, hf, -⟩
    · exact moved hm
    · exact finished hf (by simp [Op.finishes?, hk])
  | processPendingTlpEx ready =>
    obtain ⟨rfl, halone⟩ := hop.keeps
    simp only [State.step, State.processPendingTlpEx] at hstep
    split at hstep
    next nb rest _ hpending =>
      obtain rfl := Option.some.inj hstep
      exact h.giveBack hpending (halone nb (by simp [hpending]))
    next => cases hstep
  | purgeQmap =>
    obtain ⟨nb, rest, hheld, hf, -⟩ := finishes_purgeQmap hstep
    exact finished hf (by simp [Op.finishes?, hheld])
  | purgeFlow version =>
    obtain ⟨nb, rest, hheld, hf, -⟩ := finishes_purgeFlow hstep
    exact finished hf (by simp [Op.finishes?, hheld])
  | cleanup =>
    simp only [State.step, State.cleanup] at hstep
    split at hstep
    · obtain rfl := Option.some.inj hstep
      exact quiet rfl rfl
    · cases hstep
  | cleanupNext =>
    simp only [State.step, State.cleanupNext] at hstep
    split at hstep
    next => cases hstep
    next nb rest _ hpending =>
      obtain rfl := Option.some.inj hstep
      exact finished (finishes_pending hpending) (by simp [Op.finishes?, hpending])
    next =>
      obtain rfl := Option.some.inj hstep
      exact quiet rfl rfl
  | purgeTLP => exact moved (moves_purgeTLP hop.keeps hstep)
  | purgeTLPNext =>
    simp only [State.step, State.purgeTLPNext] at hstep
    split at hstep
    next => cases hstep
    next nb rest _ hpending =>
      obtain rfl := Option.some.inj hstep
      exact finished (finishes_pending hpending) (by simp [Op.finishes?, hpending])
    next =>
      obtain rfl := Option.some.inj hstep
      exact quiet rfl rfl
  | qmapFlowControlCall flowControlled =>
    obtain rfl := Option.some.inj hstep
    exact moved (moves_qmapFlowControlCall s flowControlled)
  | flowControlCall version flowControlled =>
    obtain rfl := Option.some.inj hstep
    exact moved (moves_flowControlCall s version flowControlled)
  | mediaConnect =>
    obtain rfl := Option.some.inj hstep
    exact quiet rfl rfl
  | mediaDisconnect disconnectAll =>
    obtain rfl := Option.some.inj hstep
    exact quiet rfl rfl
  | pauseReturns =>
    simp only [State.step, State.pauseReturns] at hstep
    split at hstep
    · cases hstep
    · obtain rfl := Option.some.inj hstep
      exact quiet rfl rfl

theorem start_whole (items : Nat) : (start items).Whole := by
  have hlive : (start items).live = [] := by
    simp [State.live, start, TxThread.nbs, List.flatMap_replicate]
  refine ⟨⟨hlive ▸ List.nodup_nil, fun nb hnb => absurd (hlive ▸ hnb) List.not_mem_nil⟩, ?_, ?_⟩
  · rintro nb ⟨c, b, hc, -⟩
    simp [start] at hc
  · exact fun p hp => absurd hp List.not_mem_nil

/-- In a run whose steps lose no net buffer and finish none out of turn, every list is completed
exactly once. -/
theorem txQueues_completedOnce (quickTx : Bool) (items : Nat) (ops : List Op)
    (hok : ∀ p ∈ (txQueues quickTx).fires (start items) ops, p.2.CompletesOnce quickTx p.1) :
    ∀ s ∈ (txQueues quickTx).visits (start items) ops, s.CompletedOnce := by
  have hstep : ∀ s op s' (o : Unit), State.Whole s → op.CompletesOnce quickTx s →
      txQueues quickTx s op = some (s', o) → s'.Whole := fun s op s' o h hop hs =>
    step_whole h hop (txQueues_step hs)
  intro s hs
  exact (Machine.visits_all_of_fires hstep (start_whole items) hok s hs).completedOnce

/-- Two net buffers of one list are aggregated, sent and completed. -/
def twoSent : List Op :=
  [.send 7 false [none, none] true, .take true, .takeItem, .accept true, .take true, .takeItem,
    .accept false, .letGo, .usbCompletes 0, .completeNext 0, .completeNext 0, .completeNext 0]

theorem txQueues_completedOnce_sent :
    (∀ p ∈ (txQueues false).fires (start 1) twoSent, p.2.CompletesOnce false p.1) ∧
      ∀ s ∈ (txQueues false).visits (start 1) twoSent, s.CompletedOnce := by
  have hok : ∀ p ∈ (txQueues false).fires (start 1) twoSent, p.2.CompletesOnce false p.1 := by
    decide +kernel
  exact ⟨hok, txQueues_completedOnce false 1 twoSent hok⟩

/-- A cancellation takes the second net buffer of the list off `TxPendingList` for good. -/
theorem txQueues_completedOnce_cancel :
    ¬ ∀ s ∈ (txQueues false).visits (start 1)
        [.send 7 false [none, none] true, .cancelSend 7, .cancelNext 0, .cancelNext 0],
      s.CompletedOnce := by
  intro hall
  have hlast := List.getLast_mem (List.ne_nil_of_mem (Machine.start_mem_visits
    (M := txQueues false) (start 1)
    [.send 7 false [none, none] true, .cancelSend 7, .cancelNext 0, .cancelNext 0]))
  have hdone := (hall _ hlast).completed 0 _ rfl (by decide +kernel)
  revert hdone
  decide +kernel

end Ndis.Tx
