-- SUMMARY: The transmit lists of the miniport without aggregation, where whole net buffer lists are queued, and their counter.
import QcomUsb.Library.Places
import QcomUsb.Library.Transition

/-!
# Transmit lists without aggregation

`MPTX_MiniportSendNetBufferLists` queues a net buffer list as a whole. The MP thread puts it on
`TxBusyList` and sends an IRP for each of its net buffers, and the list is completed when it leaves
`TxBusyList`. The purges and clean-ups take every entry for a net buffer.
-/

namespace Ndis.TxNbl

open Transition Places

/-- The fields of an `MPUSB_TX_CONTEXT_NBL`, with the `Completed` of its net buffers. An observer
counts how often `MPUSB_CompleteNetBufferList` was called for it. A context that was freed keeps its
fields. -/
structure TxContextNbl where
  cancelId : Nat
  numProcessed : Nat
  numCompleted : Nat
  abortFlag : Bool
  completed : List Bool
  completions : Nat
deriving DecidableEq

/-- Where the MP thread is: not sending, or in the loop of `MP_USBTxPacketEx` over a list. -/
inductive TxThread
  | idle
  | sending (nbl : Nat) (index : Nat) (abort : Bool)
deriving DecidableEq

/-- The fields of the adapter, with lists of context numbers, the IRPs in USB with the net buffer of
each, and the threads in a cancellation or a clean-up. An observer keeps the number of unfinished
lists each time `MPMAIN_MiniportPause` returned. -/
structure State where
  contexts : List TxContextNbl
  txPendingList : List Nat
  qmapFlowControlList : List Nat
  txBusyList : List Nat
  qmapFlowControl : Bool
  nBusyTx : Int
  tx : TxThread
  irps : List (Nat × Nat)
  cancelQueues : List (List Nat)
  cleanups : Nat
  intact : Bool
  pauses : List Nat

/-- What becomes of a net buffer in `MP_USBTxPacketEx`: its IRP is sent, it is marked completed and
the list aborted, or the list is aborted for lack of an IRP. -/
inductive Outcome
  | sent
  | marked
  | noIrp
deriving DecidableEq

inductive Op
  | send (cancelId : Nat) (numNBs : Nat) (allocated : Bool)
  | pass (ready : Bool)
  | txPacket (outcome : Outcome)
  | irpCompletes (k : Nat)
  | cancelSend (cancelId : Nat)
  | cancelNext (k : Nat)
  | purgeQmap
  | cleanup
  | cleanupLists
  | qmapFlowControlCall (flowControlled : Bool)
  | pauseReturns

def newContext (cancelId numNBs completions : Nat) : TxContextNbl :=
  ⟨cancelId, 0, 0, false, List.replicate numNBs false, completions⟩

namespace State

/-- `MPUSB_CompleteNetBufferList`. -/
def complete (s : State) (nbl : Nat) : State :=
  { s with
    contexts := s.contexts.modify nbl fun c => { c with completions := c.completions + 1 } }

/-- `MPUSB_TryToCompleteNBL` with `TxBusyList`. -/
def tryToComplete (s : State) (nbl : Nat) : State :=
  if nbl ∈ s.txBusyList then
    { s with nBusyTx := s.nBusyTx - 1, txBusyList := s.txBusyList.erase nbl }.complete nbl
  else s

/-- The number of lists that were accepted and are not finished. -/
def unfinished (s : State) : Nat := s.contexts.countP fun c => c.completions == 0

/-- `MPTX_MiniportSendNetBufferLists` for one list. -/
def send (s : State) (cancelId numNBs : Nat) (allocated : Bool) : State :=
  let nbl := s.contexts.length
  if numNBs ≠ 0 ∧ allocated then
    let s := { s with
      contexts := s.contexts ++ [newContext cancelId numNBs 0]
      nBusyTx := s.nBusyTx + 1 }
    if s.qmapFlowControl then { s with qmapFlowControlList := s.qmapFlowControlList ++ [nbl] }
    else { s with txPendingList := s.txPendingList ++ [nbl] }
  else { s with contexts := s.contexts ++ [newContext cancelId 0 1] }

/-- The pass of `MPTX_ProcessPendingTxQueueEx` over one entry. -/
def pass (s : State) (ready : Bool) : Option State :=
  match s.tx, s.txPendingList with
  | .idle, nbl :: rest =>
    if ready then
      some { s with
        txPendingList := rest
        txBusyList := s.txBusyList ++ [nbl]
        tx := .sending nbl 0 false }
    else if s.txBusyList = [] then some ({ s with txPendingList := rest }.complete nbl)
    else some s
  | _, _ => none

/-- A context is changed. -/
def modify (s : State) (nbl : Nat) (f : TxContextNbl → TxContextNbl) : State :=
  { s with contexts := s.contexts.modify nbl f }

/-- The end of `MP_USBTxPacketEx`. -/
def txEnd (s : State) (nbl : Nat) (abort : Bool) : State :=
  let s := { s with tx := .idle }
  if abort then
    let s := s.modify nbl fun c => { c with abortFlag := true }
    match s.contexts[nbl]? with
    | some c => if c.numCompleted = c.numProcessed then s.tryToComplete nbl else s
    | none => s
  else s

/-- One round of the loop of `MP_USBTxPacketEx`, or its end. -/
def txPacket (s : State) (outcome : Outcome) : Option State :=
  match s.tx with
  | .idle => none
  | .sending nbl index abort =>
    match s.contexts[nbl]? with
    | none => none
    | some c =>
      if index < c.completed.length ∧ abort = false then
        match outcome with
        | .sent =>
          some { s.modify nbl fun c => { c with numProcessed := c.numProcessed + 1 } with
            irps := s.irps ++ [(nbl, index)]
            tx := .sending nbl (index + 1) false }
        | .marked =>
          some { s.modify nbl fun c => { c with completed := c.completed.set index true } with
            tx := .sending nbl (index + 1) true }
        | .noIrp => some { s with tx := .sending nbl (index + 1) true }
      else some (s.txEnd nbl abort)

/-- `MP_TxIRPCompleteEx` with an IRP. -/
def irpComplete (s : State) (nbl index : Nat) : State :=
  let s := s.modify nbl fun c =>
    { c with numCompleted := c.numCompleted + 1, completed := c.completed.set index true }
  match s.contexts[nbl]? with
  | none => s
  | some c =>
    if c.abortFlag then
      if c.numCompleted = c.numProcessed then s.tryToComplete nbl else s
    else if c.completed.all id then s.tryToComplete nbl
    else s

def irpCompletes (s : State) (k : Nat) : Option State :=
  s.irps[k]?.map fun nb => { s with irps := s.irps.eraseIdx k }.irpComplete nb.1 nb.2

/-- The list has the cancel id. -/
def hasCancelId (s : State) (cancelId nbl : Nat) : Bool :=
  s.contexts[nbl]?.any fun c => c.cancelId == cancelId

/-- `MPTX_MiniportCancelSend` under `TxLock`. -/
def cancelSend (s : State) (cancelId : Nat) : State :=
  { s with
    txPendingList := s.txPendingList.filter fun nbl => ! s.hasCancelId cancelId nbl
    cancelQueues := s.cancelQueues ++ [s.txPendingList.filter (s.hasCancelId cancelId)] }

/-- The loop of `MPTX_MiniportCancelSend` over its queue. -/
def cancelNext (s : State) (k : Nat) : Option State :=
  match s.cancelQueues[k]? with
  | none => none
  | some [] => some { s with cancelQueues := s.cancelQueues.eraseIdx k }
  | some (nbl :: rest) => some ({ s with cancelQueues := s.cancelQueues.set k rest }.complete nbl)

/-- `MPMAIN_QMAPPurgeFlowControlledPackets` takes the list for a net buffer. -/
def purgeQmap (s : State) : Option State :=
  if s.qmapFlowControlList = [] then none else some { s with intact := false }

/-- The test in `MPMAIN_CleanupTxQueues`. -/
def cleanup (s : State) : Option State :=
  if s.nBusyTx > 0 then some { s with cleanups := s.cleanups + 1 } else none

/-- `MPMAIN_CleanupTxQueues` takes every list for a net buffer. -/
def cleanupLists (s : State) : Option State :=
  match s.cleanups with
  | 0 => none
  | n + 1 =>
    if s.txPendingList = [] ∧ s.txBusyList = [] then
      some { s with nBusyTx := 0, cleanups := n }
    else some { s with intact := false }

/-- `MPMAIN_QMAPFlowControlCall`. -/
def qmapFlowControlCall (s : State) (flowControlled : Bool) : State :=
  if flowControlled then
    { s with
      qmapFlowControlList := s.qmapFlowControlList ++ s.txPendingList
      txPendingList := []
      qmapFlowControl := true }
  else
    { s with
      txPendingList := s.qmapFlowControlList ++ s.txPendingList
      qmapFlowControlList := []
      qmapFlowControl := false }

/-- `MPMAIN_MiniportPause` returns. -/
def pauseReturns (s : State) : Option State :=
  if s.nBusyTx > 0 then none else some { s with pauses := s.unfinished :: s.pauses }

def step (s : State) : Op → Option State
  | .send cancelId numNBs allocated => some (s.send cancelId numNBs allocated)
  | .pass ready => s.pass ready
  | .txPacket outcome => s.txPacket outcome
  | .irpCompletes k => s.irpCompletes k
  | .cancelSend cancelId => some (s.cancelSend cancelId)
  | .cancelNext k => s.cancelNext k
  | .purgeQmap => s.purgeQmap
  | .cleanup => s.cleanup
  | .cleanupLists => s.cleanupLists
  | .qmapFlowControlCall flowControlled => some (s.qmapFlowControlCall flowControlled)
  | .pauseReturns => s.pauseReturns

end State

/-- The transmit side of an adapter without aggregation. -/
def txNbl : Machine State Op Unit := fun s op =>
  if s.intact then (s.step op).map fun s' => (s', ()) else none

def start : State := ⟨[], [], [], [], false, 0, .idle, [], [], 0, true, []⟩

/-- `nBusyTx` is the number of unfinished lists, and no pause returned with one unfinished. -/
structure State.Counted (s : State) : Prop where
  intact : s.intact = true
  count : s.nBusyTx = s.unfinished
  paused : ∀ n ∈ s.pauses, n = 0

/-- No list is completed off `TxPendingList`: the pass that finds the miniport not ready finds
`TxBusyList` in use, and cancellations find nothing. The purge finds no list held back, and a
clean-up nothing unfinished. -/
def Op.Counts (s : State) : Op → Prop
  | .pass ready => ready = true ∨ s.txBusyList ≠ []
  | .cancelNext k => s.cancelQueues[k]? = some []
  | .purgeQmap => s.qmapFlowControlList = []
  | .cleanupLists => s.txPendingList = [] ∧ s.txBusyList = [] ∧ s.unfinished = 0
  | _ => True

/-! ## Lists under way -/

/-- The lists that are queued, being sent or being cancelled. -/
def State.live (s : State) : List Nat :=
  s.txPendingList ++ s.qmapFlowControlList ++ s.txBusyList ++ s.cancelQueues.flatMap id

/-- How often each list was completed. -/
def State.completions (s : State) : List Nat := s.contexts.map (·.completions)

/-- Each list under way is in one place and was never completed. -/
structure State.Sound (s : State) : Prop where
  nodup : s.live.Nodup
  live_open : ∀ nbl ∈ s.live, s.completions[nbl]? = some 0

/-- A step that moves lists. -/
structure Moves (s s' : State) : Prop where
  live : s'.live.Perm s.live
  completions : s'.completions = s.completions
  busy : s'.nBusyTx = s.nBusyTx
  intact : s'.intact = s.intact
  pauses : s'.pauses = s.pauses

/-- A step that completes a list. -/
structure Finishes (s s' : State) (nbl : Nat) : Prop where
  live : (nbl :: s'.live).Perm s.live
  completions : s'.completions = s.completions.modify nbl (· + 1)
  intact : s'.intact = s.intact
  pauses : s'.pauses = s.pauses

variable {s s' : State}

theorem State.unfinished_eq (s : State) : s.unfinished = s.completions.count 0 := by
  simp [unfinished, completions, List.count_eq_countP, List.countP_map, Function.comp_def]

theorem Moves.sound (hm : Moves s s') (h : s.Sound) : s'.Sound where
  nodup := hm.live.nodup_iff.mpr h.nodup
  live_open nbl hnbl := hm.completions ▸ h.live_open nbl (hm.live.subset hnbl)

theorem Moves.counted (hm : Moves s s') (h : s.Counted) : s'.Counted where
  intact := hm.intact.trans h.intact
  count := by rw [hm.busy, h.count, s'.unfinished_eq, s.unfinished_eq, hm.completions]
  paused := hm.pauses ▸ h.paused

theorem Moves.trans {t : State} (h : Moves s s') (h' : Moves s' t) : Moves s t :=
  ⟨h'.live.trans h.live, h'.completions.trans h.completions, h'.busy.trans h.busy,
    h'.intact.trans h.intact, h'.pauses.trans h.pauses⟩

theorem Finishes.sound {nbl : Nat} (hf : Finishes s s' nbl) (h : s.Sound) : s'.Sound := by
  obtain ⟨hout, hnodup⟩ := List.nodup_cons.mp (hf.live.nodup_iff.mpr h.nodup)
  refine ⟨hnodup, fun other hother => ?_⟩
  have hne : nbl ≠ other := fun heq => hout (heq ▸ hother)
  rw [hf.completions, List.getElem?_modify_ne _ _ hne]
  exact h.live_open other (hf.live.subset (List.mem_cons_of_mem _ hother))

/-- A completed list is one unfinished list fewer. -/
theorem Finishes.unfinished {nbl : Nat} (hf : Finishes s s' nbl) (h : s.Sound) :
    s'.unfinished + 1 = s.unfinished := by
  have hopen := h.live_open nbl (hf.live.subset List.mem_cons_self)
  rw [s'.unfinished_eq, s.unfinished_eq, hf.completions, (modify_perm _ hopen).count_eq,
    (perm_cons_eraseIdx hopen).count_eq]
  simp

/-- Completed without being counted down, a list leaves the counter wrong. -/
theorem Finishes.not_counted {nbl : Nat} (hf : Finishes s s' nbl) (hs : s.Sound) (h : s.Counted)
    (hbusy : s'.nBusyTx = s.nBusyTx) : ¬ s'.Counted := by
  intro h'
  have hone := hf.unfinished hs
  have hcount := h.count
  have hcount' := h'.count
  omega

/-- A step that moves lists, or completes one and counts it down. -/
def Settles (s s' : State) : Prop :=
  Moves s s' ∨ ∃ nbl, Finishes s s' nbl ∧ s'.nBusyTx = s.nBusyTx - 1

theorem Settles.sound (hm : Settles s s') (h : s.Sound) : s'.Sound := by
  rcases hm with hm | ⟨nbl, hf, -⟩
  · exact hm.sound h
  · exact hf.sound h

theorem Settles.counted (hm : Settles s s') (hs : s.Sound) (h : s.Counted) : s'.Counted := by
  rcases hm with hm | ⟨nbl, hf, hbusy⟩
  · exact hm.counted h
  · refine ⟨hf.intact.trans h.intact, ?_, hf.pauses ▸ h.paused⟩
    have hone := hf.unfinished hs
    have hcount := h.count
    omega

theorem Moves.settles {t : State} (hm : Moves s s') (h : Settles s' t) : Settles s t := by
  rcases h with h | ⟨nbl, hf, hbusy⟩
  · exact .inl (hm.trans h)
  · refine .inr ⟨nbl, ⟨hf.live.trans hm.live, ?_, ?_, ?_⟩, ?_⟩
    · rw [hf.completions, hm.completions]
    · exact hf.intact.trans hm.intact
    · exact hf.pauses.trans hm.pauses
    · rw [hbusy, hm.busy]

/-! ## The steps -/

theorem moves_modify (s : State) (nbl : Nat) {f : TxContextNbl → TxContextNbl}
    (hf : ∀ c, (f c).completions = c.completions) : Moves s (s.modify nbl f) := by
  refine ⟨.refl _, ?_, rfl, rfl, rfl⟩
  apply List.ext_getElem?
  intro k
  by_cases hk : nbl = k
  · subst hk
    cases hc : s.contexts[nbl]? with
    | none => simp [State.modify, State.completions, hc]
    | some c => simp [State.modify, State.completions, hc, hf]
  · simp [State.modify, State.completions, List.getElem?_modify_ne _ _ hk]

theorem completions_complete (s : State) (nbl : Nat) :
    (s.complete nbl).completions = s.completions.modify nbl (· + 1) := by
  apply List.ext_getElem?
  intro k
  by_cases hk : nbl = k
  · subst hk
    cases hc : s.contexts[nbl]? <;> simp [State.complete, State.completions, hc]
  · simp [State.complete, State.completions, List.getElem?_modify_ne _ _ hk]

theorem settles_tryToComplete (s : State) (nbl : Nat) : Settles s (s.tryToComplete nbl) := by
  unfold State.tryToComplete
  by_cases hbusy : nbl ∈ s.txBusyList
  · rw [if_pos hbusy]
    refine .inr ⟨nbl, ⟨?_, completions_complete _ nbl, rfl, rfl⟩, rfl⟩
    have hout := List.perm_cons_erase hbusy
    refine List.perm_iff_count.mpr fun a => ?_
    have hcount := hout.count_eq a
    simp only [State.live, State.complete, List.count_cons, List.count_append] at hcount ⊢
    omega
  · rw [if_neg hbusy]
    exact .inl ⟨.refl _, rfl, rfl, rfl, rfl⟩

/-- A list under way keeps its entry when a context is added. -/
theorem State.Sound.append (h : s.Sound) (x : Nat) {nbl : Nat} (hnbl : nbl ∈ s.live) :
    (s.completions ++ [x])[nbl]? = some 0 := by
  have hopen := h.live_open nbl hnbl
  obtain ⟨hlt, -⟩ := List.getElem?_eq_some_iff.mp hopen
  rw [List.getElem?_append_left hlt]
  exact hopen

/-- A list is accepted. -/
structure Accepts (s s' : State) : Prop where
  live : s'.live.Perm (s.completions.length :: s.live)
  completions : s'.completions = s.completions ++ [0]
  busy : s'.nBusyTx = s.nBusyTx + 1
  intact : s'.intact = s.intact
  pauses : s'.pauses = s.pauses

theorem Accepts.sound (ha : Accepts s s') (h : s.Sound) : s'.Sound := by
  constructor
  · refine ha.live.nodup_iff.mpr (List.nodup_cons.mpr ⟨fun hmem => ?_, h.nodup⟩)
    obtain ⟨hlt, -⟩ := List.getElem?_eq_some_iff.mp (h.live_open _ hmem)
    exact Nat.lt_irrefl _ hlt
  · intro nbl hnbl
    rw [ha.completions]
    rcases List.mem_cons.mp (ha.live.subset hnbl) with rfl | hold
    · simp
    · exact h.append 0 hold

theorem Accepts.counted (ha : Accepts s s') (h : s.Counted) : s'.Counted where
  intact := ha.intact.trans h.intact
  count := by
    rw [ha.busy, h.count, s'.unfinished_eq, s.unfinished_eq, ha.completions]
    simp
  paused := ha.pauses ▸ h.paused

theorem accepts_send (s : State) (cancelId : Nat) {numNBs : Nat} (hne : numNBs ≠ 0) :
    Accepts s (s.send cancelId numNBs true) := by
  have hlen : s.completions.length = s.contexts.length := by simp [State.completions]
  unfold State.send
  rw [if_pos ⟨hne, rfl⟩]
  by_cases hflow : s.qmapFlowControl = true
  · refine ⟨?_, ?_, ?_, ?_, ?_⟩ <;> simp only [hflow, if_true]
    · refine List.perm_iff_count.mpr fun a => ?_
      simp only [State.live, hlen, List.count_cons, List.count_append, List.count_nil]
      omega
    · simp [State.completions, newContext]
  · refine ⟨?_, ?_, ?_, ?_, ?_⟩ <;> simp only [hflow, Bool.false_eq_true, if_false]
    · refine List.perm_iff_count.mpr fun a => ?_
      simp only [State.live, hlen, List.count_cons, List.count_append, List.count_nil]
      omega
    · simp [State.completions, newContext]

theorem send_counted (hs : s.Sound) (h : s.Counted) (cancelId numNBs : Nat) (allocated : Bool) :
    (s.send cancelId numNBs allocated).Sound ∧ (s.send cancelId numNBs allocated).Counted := by
  by_cases hsent : numNBs ≠ 0 ∧ allocated = true
  · obtain ⟨hne, rfl⟩ := hsent
    have ha := accepts_send s cancelId hne
    exact ⟨ha.sound hs, ha.counted h⟩
  · have hrefused : (s.send cancelId numNBs allocated).completions = s.completions ++ [1] := by
      simp [State.send, hsent, State.completions, newContext]
    unfold State.send at hrefused ⊢
    rw [if_neg hsent] at hrefused ⊢
    refine ⟨⟨hs.nodup, fun nbl hnbl => ?_⟩, h.intact, ?_, h.paused⟩
    · rw [hrefused]
      exact hs.append 1 hnbl
    · rw [State.unfinished_eq, hrefused, List.count_append]
      simpa [← s.unfinished_eq] using h.count

theorem pass_cases {ready : Bool} (hstep : s.pass ready = some s') :
    (Moves s s' ∧ (ready = true ∨ s.txBusyList ≠ [])) ∨
      (∃ nbl, Finishes s s' nbl ∧ s'.nBusyTx = s.nBusyTx) ∧
        ¬ (ready = true ∨ s.txBusyList ≠ []) := by
  unfold State.pass at hstep
  split at hstep
  next nbl rest _ hpending =>
    cases ready with
    | true =>
      obtain rfl := Option.some.inj hstep
      refine .inl ⟨⟨?_, rfl, rfl, rfl, rfl⟩, .inl rfl⟩
      refine List.perm_iff_count.mpr fun a => ?_
      simp only [State.live, hpending, List.count_cons, List.count_append, List.count_nil]
      omega
    | false =>
      by_cases hbusy : s.txBusyList = []
      · simp only [Bool.false_eq_true, if_false, hbusy, if_true, Option.some.injEq] at hstep
        subst hstep
        refine .inr ⟨⟨nbl, ⟨?_, completions_complete _ nbl, rfl, rfl⟩, rfl⟩, by simp [hbusy]⟩
        simp [State.live, State.complete, hpending, hbusy]
      · simp only [Bool.false_eq_true, if_false, hbusy, Option.some.injEq] at hstep
        exact .inl ⟨hstep ▸ ⟨.refl _, rfl, rfl, rfl, rfl⟩, .inr hbusy⟩
  next => cases hstep

theorem settles_txEnd (s : State) (nbl : Nat) (abort : Bool) : Settles s (s.txEnd nbl abort) := by
  have hidle : Moves s { s with tx := .idle } := ⟨.refl _, rfl, rfl, rfl, rfl⟩
  cases abort with
  | false => exact .inl hidle
  | true =>
    have hm := hidle.trans
      (moves_modify { s with tx := .idle } nbl (f := fun c => { c with abortFlag := true })
        fun _ => rfl)
    simp only [State.txEnd, if_true]
    split
    · split
      · exact hm.settles (settles_tryToComplete _ nbl)
      · exact .inl hm
    · exact .inl hm

theorem settles_txPacket {outcome : Outcome} (hstep : s.txPacket outcome = some s') :
    Settles s s' := by
  unfold State.txPacket at hstep
  split at hstep
  next => cases hstep
  next nbl index abort _ =>
    split at hstep
    next => cases hstep
    next c _ =>
      split at hstep
      next =>
        cases outcome with
        | sent =>
          obtain rfl := Option.some.inj hstep
          have hm := moves_modify s nbl
            (f := fun c => { c with numProcessed := c.numProcessed + 1 }) fun _ => rfl
          exact .inl ⟨hm.live, hm.completions, hm.busy, hm.intact, hm.pauses⟩
        | marked =>
          obtain rfl := Option.some.inj hstep
          have hm := moves_modify s nbl
            (f := fun c => { c with completed := c.completed.set index true }) fun _ => rfl
          exact .inl ⟨hm.live, hm.completions, hm.busy, hm.intact, hm.pauses⟩
        | noIrp =>
          obtain rfl := Option.some.inj hstep
          exact .inl ⟨.refl _, rfl, rfl, rfl, rfl⟩
      next =>
        obtain rfl := Option.some.inj hstep
        exact settles_txEnd s nbl abort

theorem settles_irpComplete (s : State) (nbl index : Nat) :
    Settles s (s.irpComplete nbl index) := by
  have hm := moves_modify s nbl
    (f := fun c =>
      { c with numCompleted := c.numCompleted + 1, completed := c.completed.set index true })
    fun _ => rfl
  have htry := hm.settles (settles_tryToComplete _ nbl)
  simp only [State.irpComplete]
  split
  · exact .inl hm
  · split
    · split
      · exact htry
      · exact .inl hm
    · split
      · exact htry
      · exact .inl hm

theorem settles_irpCompletes {k : Nat} (hstep : s.irpCompletes k = some s') : Settles s s' := by
  obtain ⟨nb, -, rfl⟩ := Option.map_eq_some_iff.mp hstep
  have hm : Moves s { s with irps := s.irps.eraseIdx k } := ⟨.refl _, rfl, rfl, rfl, rfl⟩
  exact hm.settles (settles_irpComplete _ nb.1 nb.2)

theorem moves_cancelSend (s : State) (cancelId : Nat) : Moves s (s.cancelSend cancelId) := by
  refine ⟨List.perm_iff_count.mpr fun a => ?_, rfl, rfl, rfl, rfl⟩
  have hsplit := (List.filter_append_perm (s.hasCancelId cancelId) s.txPendingList).count_eq a
  simp only [State.live, State.cancelSend, List.count_append, List.flatMap_append,
    List.flatMap_cons, List.flatMap_nil, List.append_nil, id_eq] at hsplit ⊢
  omega

theorem cancelNext_cases {k : Nat} (hstep : s.cancelNext k = some s') :
    (Moves s s' ∧ s.cancelQueues[k]? = some []) ∨
      (∃ nbl, Finishes s s' nbl ∧ s'.nBusyTx = s.nBusyTx) ∧ s.cancelQueues[k]? ≠ some [] := by
  unfold State.cancelNext at hstep
  split at hstep
  next => cases hstep
  next hk =>
    obtain rfl := Option.some.inj hstep
    refine .inl ⟨⟨?_, rfl, rfl, rfl, rfl⟩, hk⟩
    have hout := flatMap_perm_eraseIdx (f := id) hk
    exact (hout.symm.append_left _)
  next nbl rest hk =>
    obtain rfl := Option.some.inj hstep
    refine .inr ⟨⟨nbl, ⟨?_, completions_complete _ nbl, rfl, rfl⟩, rfl⟩, by simp [hk]⟩
    have hout := flatMap_perm_eraseIdx (f := id) hk
    have hin := flatMap_set_perm (f := id) hk rest
    refine List.perm_iff_count.mpr fun a => ?_
    have hcount := hout.count_eq a
    have hcount' := hin.count_eq a
    simp only [State.live, State.complete, id_eq, List.count_cons, List.count_append]
      at hcount hcount' ⊢
    omega

theorem moves_qmapFlowControlCall (s : State) (flowControlled : Bool) :
    Moves s (s.qmapFlowControlCall flowControlled) := by
  cases flowControlled with
  | true =>
    refine ⟨List.perm_iff_count.mpr fun a => ?_, rfl, rfl, rfl, rfl⟩
    simp only [State.live, State.qmapFlowControlCall, if_true, List.count_append, List.count_nil]
    omega
  | false =>
    refine ⟨List.perm_iff_count.mpr fun a => ?_, rfl, rfl, rfl, rfl⟩
    simp only [State.live, State.qmapFlowControlCall, Bool.false_eq_true, if_false,
      List.count_append, List.count_nil]
    omega

theorem step_counted {op : Op} (hs : s.Sound) (h : s.Counted) (hstep : s.step op = some s') :
    (op.Counts s → s'.Sound) ∧ (s'.Counted ↔ op.Counts s) := by
  have settled {P : Prop} (hm : Settles s s') (hP : P) :
      (P → s'.Sound) ∧ (s'.Counted ↔ P) :=
    ⟨fun _ => hm.sound hs, iff_of_true (hm.counted hs h) hP⟩
  have uncounted {P : Prop} (hm : ∃ nbl, Finishes s s' nbl ∧ s'.nBusyTx = s.nBusyTx) (hP : ¬ P) :
      (P → s'.Sound) ∧ (s'.Counted ↔ P) := by
    obtain ⟨nbl, hf, hbusy⟩ := hm
    exact ⟨fun _ => hf.sound hs, iff_of_false (hf.not_counted hs h hbusy) hP⟩
  have torn {P : Prop} (hbroken : s'.intact = false) (hP : ¬ P) :
      (P → s'.Sound) ∧ (s'.Counted ↔ P) :=
    ⟨fun hp => absurd hp hP,
      iff_of_false (fun h' => Bool.false_ne_true (hbroken.symm.trans h'.intact)) hP⟩
  cases op with
  | send cancelId numNBs allocated =>
    obtain rfl := Option.some.inj hstep
    obtain ⟨hsound, hcounted⟩ := send_counted hs h cancelId numNBs allocated
    exact ⟨fun _ => hsound, iff_of_true hcounted trivial⟩
  | pass ready =>
    rcases pass_cases hstep with ⟨hm, hready⟩ | ⟨hf, hidle⟩
    · exact settled (.inl hm) hready
    · exact uncounted hf hidle
  | txPacket outcome => exact settled (settles_txPacket hstep) trivial
  | irpCompletes k => exact settled (settles_irpCompletes hstep) trivial
  | cancelSend cancelId =>
    obtain rfl := Option.some.inj hstep
    exact settled (.inl (moves_cancelSend s cancelId)) trivial
  | cancelNext k =>
    rcases cancelNext_cases hstep with ⟨hm, hnone⟩ | ⟨hf, hsome⟩
    · exact settled (.inl hm) hnone
    · exact uncounted hf hsome
  | purgeQmap =>
    simp only [State.step, State.purgeQmap] at hstep
    split at hstep
    next => cases hstep
    next hheld =>
      obtain rfl := Option.some.inj hstep
      exact torn rfl hheld
  | cleanup =>
    simp only [State.step, State.cleanup] at hstep
    split at hstep
    next =>
      obtain rfl := Option.some.inj hstep
      exact settled (.inl ⟨.refl _, rfl, rfl, rfl, rfl⟩) trivial
    next => cases hstep
  | cleanupLists =>
    simp only [State.step, State.cleanupLists] at hstep
    split at hstep
    next => cases hstep
    next =>
      split at hstep
      next hempty =>
        obtain rfl := Option.some.inj hstep
        refine ⟨fun _ => ⟨hs.nodup, hs.live_open⟩, fun h' => ?_, fun hnone => ?_⟩
        · have hzero : (0 : Int) = s.unfinished := h'.count
          exact ⟨hempty.1, hempty.2, by exact_mod_cast hzero.symm⟩
        · have hzero : (0 : Int) = s.unfinished := by
            rw [hnone.2.2]
            rfl
          exact { h with count := hzero }
      next hfull =>
        obtain rfl := Option.some.inj hstep
        exact torn rfl fun hall => hfull ⟨hall.1, hall.2.1⟩
  | qmapFlowControlCall flowControlled =>
    obtain rfl := Option.some.inj hstep
    exact settled (.inl (moves_qmapFlowControlCall s flowControlled)) trivial
  | pauseReturns =>
    simp only [State.step, State.pauseReturns] at hstep
    split at hstep
    next => cases hstep
    next hidle =>
      obtain rfl := Option.some.inj hstep
      have hcount := h.count
      have hpaused : s.unfinished = 0 := by omega
      refine ⟨fun _ => ⟨hs.nodup, hs.live_open⟩, iff_of_true ?_ trivial⟩
      exact ⟨h.intact, h.count, List.forall_mem_cons.mpr ⟨hpaused, h.paused⟩⟩

theorem txNbl_step {op : Op} {o : Unit} (hstep : txNbl s op = some (s', o)) :
    s.step op = some s' := by
  unfold txNbl at hstep
  split at hstep
  · obtain ⟨t, ht, heq⟩ := Option.map_eq_some_iff.mp hstep
    obtain ⟨rfl, -⟩ := Prod.mk.inj heq
    exact ht
  · cases hstep

/-- The counter is right over a run exactly if every step meets its condition. -/
theorem txNbl_visits_counted (ops : List Op) :
    (∀ s ∈ txNbl.visits start ops, s.Counted) ↔ ∀ p ∈ txNbl.fires start ops, p.2.Counts p.1 := by
  have hkept : ∀ s op s' (o : Unit), State.Sound s → s.Counted → op.Counts s →
      txNbl s op = some (s', o) → s'.Sound := fun s op s' o hs h hop hstep =>
    (step_counted hs h (txNbl_step hstep)).1 hop
  have hiff : ∀ s op s' (o : Unit), State.Sound s → s.Counted →
      txNbl s op = some (s', o) → (s'.Counted ↔ op.Counts s) := fun s op s' o hs h hstep =>
    (step_counted hs h (txNbl_step hstep)).2
  have hsound : start.Sound := ⟨List.nodup_nil, fun nbl hnbl => absurd hnbl List.not_mem_nil⟩
  refine Machine.visits_all_iff_fires_of_ok hkept hiff hsound ⟨rfl, rfl, ?_⟩
  exact fun n hn => absurd hn List.not_mem_nil

end Ndis.TxNbl
