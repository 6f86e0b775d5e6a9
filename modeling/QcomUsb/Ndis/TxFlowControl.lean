-- SUMMARY: Flow control of the transmit lists: what a flow that is off holds back, and the order in which packets leave.
import QcomUsb.Ndis.TxQueues

/-!
# Flow control

While the QMAP flow of the adapter is off its packets wait on `QMAPFlowControlList`, and while the
flow of an IP version is off those of that version wait on `FlowControlListV4` or
`FlowControlListV6`.
-/

namespace Ndis.Tx

open Transition

/-- Submitted before: in an earlier list, or earlier in the same list. -/
def Nb.Before (a b : Nb) : Prop := a.nbl < b.nbl ∨ a.nbl = b.nbl ∧ a.index < b.index

instance : DecidableRel Nb.Before := fun a b =>
  inferInstanceAs (Decidable (a.nbl < b.nbl ∨ a.nbl = b.nbl ∧ a.index < b.index))

/-- The IP version of a packet. -/
def State.versionOf (s : State) (nb : Nb) : Option IPVer := (s.nbContext? nb).bind (·.pktIpVer)

/-- The flow-control lists hold packets only while their flow is off, `TxPendingList` has none of a
flow that is off, and the packets left in the order in which they were submitted. -/
structure State.FlowKept (s : State) : Prop where
  intact : s.intact = true
  qmapHeld : s.qmapFlowControlList ≠ [] → s.qmapFlowControl = true
  held : ∀ version, s.flowControlList version ≠ [] → s.flowControl version = true
  qmapOff : s.qmapFlowControl = true → s.txPendingList = []
  off : ∀ version, s.flowControl version = true → ∀ nb ∈ s.txPendingList,
    s.versionOf nb ≠ some version
  ordered : s.copied.Pairwise Nb.Before

/-- The flow of a packet's IP version is on. -/
def State.FlowOn (s : State) (version : Option IPVer) : Prop :=
  ∀ v, version = some v → s.flowControl v = false

/-- Nothing is pending, or becomes pending, while the flow of its IP version is off. The last
connection only goes down with nothing on `QMAPFlowControlList`. An entry that `MPUSB_TLPTxPacketEx`
gives up has a neighbour that is still pending, or had none. -/
def Op.KeepsFlow (quickTx : Bool) (s : State) : Op → Prop
  | .send _ _ versions allocated =>
    allocated = true → s.qmapFlowControl = false → ∀ version ∈ versions, s.FlowOn version
  | .qmapFlowControlCall flowControlled =>
    flowControlled = false → ∀ nb ∈ s.qmapFlowControlList, s.FlowOn (s.versionOf nb)
  | .flowControlCall version flowControlled =>
    flowControlled = true → ∀ nb ∈ s.txPendingList, s.versionOf nb ≠ some version
  | .mediaDisconnect disconnectAll =>
    disconnectAll = true ∨ s.numberOfConnections ≤ 1 → s.qmapFlowControlList = []
  | .fail =>
    quickTx = false → ∀ nb next item, s.tx = .processing nb (some next) item →
      next ∈ s.txPendingList
  | .processPendingTlpEx ready => ready = false
  | .purgeTLP => ∀ item ∈ s.uplinkFreeBufferQueue, item.packetList = []
  | _ => True

/-! ## Versions -/

/-- The IP versions of the net buffers of a list. -/
def TxContextNbl.versions (c : TxContextNbl) : List (Option IPVer) := c.nbContext.map (·.pktIpVer)

/-- The IP versions of the net buffers of all lists. -/
def State.versions (s : State) : List (List (Option IPVer)) := s.contexts.map (·.versions)

theorem State.versionOf_eq (s : State) (nb : Nb) :
    s.versionOf nb = (s.versions[nb.nbl]?.bind fun versions => versions[nb.index]?).join := by
  unfold versionOf nbContext? versions
  rw [List.getElem?_map]
  cases s.contexts[nb.nbl]? with
  | none => rfl
  | some c =>
    simp only [Option.map_some, Option.bind_some, TxContextNbl.versions, List.getElem?_map]
    cases c.nbContext[nb.index]? <;> rfl

@[simp] theorem TxContextNbl.versions_setCompleted (c : TxContextNbl) (index : Nat) :
    (c.setCompleted index).versions = c.versions :=
  map_modify_of_eq (f := fun b : TxContextNb => { b with completed := true })
    (g := (·.pktIpVer)) (fun _ => rfl) c.nbContext index

@[simp] theorem TxContextNbl.versions_setFinished (c : TxContextNbl) (index : Nat) :
    (c.setFinished index).versions = c.versions :=
  map_modify_of_eq (f := fun b : TxContextNb => { b with completed := true, finished := true })
    (g := (·.pktIpVer)) (fun _ => rfl) c.nbContext index

@[simp] theorem TxContextNbl.versions_irpComplete (c : TxContextNbl) (index : Nat) :
    (c.irpComplete index).versions = c.versions := by
  unfold irpComplete
  split
  · exact c.versions_setFinished index
  · exact c.versions_setFinished index

theorem TxContextNbl.versions_giveBack (c : TxContextNbl) : c.giveBack.versions = c.versions := by
  simp [giveBack, versions, Function.comp_def]

@[simp] theorem State.versions_irpComplete (s : State) (nb : Nb) :
    (s.irpComplete nb).versions = s.versions :=
  map_modify_of_eq (fun c => c.versions_irpComplete nb.index) s.contexts nb.nbl

theorem cancelWalk_versions (cancelId : Nat) (nbs : List Nb) (contexts : List TxContextNbl) :
    (State.cancelWalk cancelId nbs contexts).2.2.map (·.versions)
      = contexts.map (·.versions) := by
  induction nbs generalizing contexts with
  | nil => rfl
  | cons nb rest ih =>
    unfold State.cancelWalk
    split
    next => exact ih contexts
    next c hc =>
      obtain ⟨hlt, hget⟩ := List.getElem?_eq_some_iff.mp hc
      split
      · exact ih contexts
      · split
        · refine (ih _).trans ?_
          rw [List.map_set]
          refine List.ext_getElem? fun i => ?_
          rw [List.getElem?_set]
          split
          next heq =>
            subst heq
            simp [hlt, ← hget, TxContextNbl.versions]
          next => rfl
        · exact ih contexts

theorem cancelWalk_sublist (cancelId : Nat) (nbs : List Nb) (contexts : List TxContextNbl) :
    (State.cancelWalk cancelId nbs contexts).1.Sublist nbs := by
  induction nbs generalizing contexts with
  | nil => exact .slnil
  | cons nb rest ih =>
    unfold State.cancelWalk
    split
    · exact (ih contexts).cons nb
    · split
      · exact (ih contexts).cons nb
      · split
        · exact (ih _).cons nb
        · exact (ih contexts).cons_cons nb

/-! ## The line of packets -/

/-- The net buffer on its way from `TxPendingList` into an item. -/
def TxThread.underway : TxThread → List Nb
  | .popped nb _ => [nb]
  | .processing nb _ _ => [nb]
  | _ => []

/-- The packets that have left and those that have not, in the order in which they leave. -/
def State.line (s : State) : List Nb :=
  s.copied ++ s.tx.underway ++ s.txPendingList ++ s.qmapFlowControlList

/-- The packets stand in the order in which they were submitted. -/
structure State.Lined (s : State) : Prop where
  unheld : ∀ version, s.flowControlList version = []
  sorted : s.line.Pairwise Nb.Before
  known : ∀ nb ∈ s.line, nb.nbl < s.versions.length

/-- A step that takes packets off the lists, or moves one on towards USB. -/
structure Narrows (s s' : State) : Prop where
  intact : s'.intact = s.intact
  versions : s'.versions = s.versions
  qmapFlag : s'.qmapFlowControl = s.qmapFlowControl
  flag : s'.flowControl = s.flowControl
  line : s'.line.Sublist s.line
  pending : s'.txPendingList.Sublist s.txPendingList
  qmapHeld : s'.qmapFlowControlList.Sublist s.qmapFlowControlList
  held : ∀ version, (s'.flowControlList version).Sublist (s.flowControlList version)

variable {s s' : State} {quickTx : Bool}

theorem State.Lined.ordered (h : s.Lined) : s.copied.Pairwise Nb.Before := by
  have hsub : s.copied.Sublist s.line := by
    simp only [State.line, List.append_assoc]
    exact List.sublist_append_left ..
  exact h.sorted.sublist hsub

theorem Narrows.lined (hn : Narrows s s') (h : s.Lined) : s'.Lined where
  unheld version := List.sublist_nil.mp (h.unheld version ▸ hn.held version)
  sorted := h.sorted.sublist hn.line
  known nb hnb := hn.versions ▸ h.known nb (hn.line.subset hnb)

theorem Narrows.versionOf (hn : Narrows s s') (nb : Nb) : s'.versionOf nb = s.versionOf nb := by
  rw [State.versionOf_eq, State.versionOf_eq, hn.versions]

theorem Narrows.flowKept (hn : Narrows s s') (hl : s.Lined) (h : s.FlowKept) : s'.FlowKept where
  intact := hn.intact.trans h.intact
  qmapHeld hne := by
    rw [hn.qmapFlag]
    exact h.qmapHeld fun hnil => hne (List.sublist_nil.mp (hnil ▸ hn.qmapHeld))
  held version hne := absurd ((hn.lined hl).unheld version) hne
  qmapOff hoff := by
    have hnil := h.qmapOff (hn.qmapFlag ▸ hoff)
    exact List.sublist_nil.mp (hnil ▸ hn.pending)
  off version hoff nb hnb := by
    rw [hn.versionOf]
    exact h.off version (hn.flag ▸ hoff) nb (hn.pending.subset hnb)
  ordered := (hn.lined hl).ordered

/-! ## Steps that narrow the line -/

theorem narrows_take {ready : Bool} (h : s.take ready = some s') : Narrows s s' := by
  unfold State.take at h
  split at h
  next nb rest htx _ hpending =>
    have hrest : rest.Sublist s.txPendingList := by
      rw [hpending]
      exact List.sublist_cons_self nb rest
    cases ready with
    | true =>
      simp only [if_true, Option.some.injEq] at h
      subst h
      refine ⟨rfl, rfl, rfl, rfl, ?_, hrest, .refl _, fun _ => .refl _⟩
      simp [State.line, TxThread.underway, htx, hpending]
    | false =>
      simp only [Bool.false_eq_true, if_false, Option.some.injEq] at h
      subst h
      refine ⟨rfl, rfl, rfl, rfl, ?_, hrest, .refl _, fun _ => .refl _⟩
      simp only [State.line, TxThread.underway, htx]
      exact (hrest.append_left _).append_right _
  next => cases h

/-- A step that only changes what is not in the line. -/
theorem Narrows.of_line (hintact : s'.intact = s.intact) (hversions : s'.versions = s.versions)
    (hflag : s'.qmapFlowControl = s.qmapFlowControl) (hflags : s'.flowControl = s.flowControl)
    (hcopied : s'.copied ++ s'.tx.underway = s.copied ++ s.tx.underway)
    (hpending : s'.txPendingList = s.txPendingList)
    (hqmap : s'.qmapFlowControlList = s.qmapFlowControlList)
    (hlists : s'.flowControlList = s.flowControlList) : Narrows s s' := by
  refine ⟨hintact, hversions, hflag, hflags, ?_, ?_, ?_, fun _ => ?_⟩
  · simp [State.line, hcopied, hpending, hqmap]
  · simp [hpending]
  · simp [hqmap]
  · simp [hlists]

theorem narrows_flush (h : s.flush = some s') : Narrows s s' := by
  unfold State.flush at h
  split at h
  next htx _ =>
    obtain rfl := Option.some.inj h
    exact .of_line rfl rfl rfl rfl (by simp [TxThread.underway, htx]) rfl rfl rfl
  next => cases h

theorem narrows_takeItem (h : s.takeItem = some s') : Narrows s s' := by
  unfold State.takeItem at h
  split at h
  next htx =>
    obtain rfl := Option.some.inj h
    exact .of_line rfl rfl rfl rfl (by simp [TxThread.underway, htx]) rfl rfl rfl
  next => cases h

theorem narrows_mark (h : s.mark = some s') : Narrows s s' := by
  unfold State.mark at h
  split at h
  next nb _ _ htx =>
    obtain rfl := Option.some.inj h
    have hversions := map_modify_of_eq (fun c : TxContextNbl => c.versions_setCompleted nb.index)
      s.contexts nb.nbl
    exact .of_line rfl hversions rfl rfl rfl rfl rfl rfl
  next => cases h

theorem narrows_accept {stays : Bool} (h : s.accept quickTx stays = some s') : Narrows s s' := by
  unfold State.accept at h
  split at h
  next nb flink item htx =>
    cases quickTx <;> cases stays <;> obtain rfl := Option.some.inj h <;>
      exact .of_line rfl rfl rfl rfl (by simp [TxThread.underway, htx]) rfl rfl rfl
  next => cases h

theorem narrows_finish (h : s.finish = some s') : Narrows s s' := by
  unfold State.finish at h
  split at h
  next htx =>
    obtain rfl := Option.some.inj h
    exact .of_line rfl (s.versions_irpComplete _) rfl rfl
      (by simp [State.irpComplete, TxThread.underway, htx]) rfl rfl rfl
  next htx =>
    obtain rfl := Option.some.inj h
    exact .of_line rfl (s.versions_irpComplete _) rfl rfl
      (by simp [State.irpComplete, TxThread.underway, htx]) rfl rfl rfl
  next => cases h

theorem narrows_letGo (h : s.letGo = some s') : Narrows s s' := by
  unfold State.letGo at h
  split at h
  next htx =>
    obtain rfl := Option.some.inj h
    exact .of_line rfl rfl rfl rfl (by simp [TxThread.underway, htx]) rfl rfl rfl
  next htx =>
    obtain rfl := Option.some.inj h
    exact .of_line rfl rfl rfl rfl (by simp [TxThread.underway, htx]) rfl rfl rfl
  next => cases h

theorem narrows_usbCompletes {k : Nat} (h : s.usbCompletes k = some s') : Narrows s s' := by
  obtain ⟨item, -, rfl⟩ := Option.map_eq_some_iff.mp h
  exact .of_line rfl rfl rfl rfl rfl rfl rfl rfl

theorem narrows_completeNext {k : Nat} (h : s.completeNext k = some s') : Narrows s s' := by
  unfold State.completeNext at h
  split at h
  next => cases h
  next =>
    obtain rfl := Option.some.inj h
    exact .of_line rfl rfl rfl rfl rfl rfl rfl rfl
  next =>
    obtain rfl := Option.some.inj h
    exact .of_line rfl (s.versions_irpComplete _) rfl rfl rfl rfl rfl rfl

theorem narrows_cancelNext {k : Nat} (h : s.cancelNext k = some s') : Narrows s s' := by
  unfold State.cancelNext at h
  split at h
  next => cases h
  next =>
    obtain rfl := Option.some.inj h
    exact .of_line rfl rfl rfl rfl rfl rfl rfl rfl
  next =>
    obtain rfl := Option.some.inj h
    exact .of_line rfl (s.versions_irpComplete _) rfl rfl rfl rfl rfl rfl

/-- A step that takes packets off `TxPendingList`. -/
theorem Narrows.of_pending {contexts : List TxContextNbl} {pending : List Nb} {cancelQueues}
    {nBusyTx : Int} (hversions : contexts.map (·.versions) = s.versions)
    (hsub : pending.Sublist s.txPendingList) :
    Narrows s { s with contexts, txPendingList := pending, cancelQueues, nBusyTx } := by
  refine ⟨rfl, hversions, rfl, rfl, ?_, hsub, .refl _, fun _ => .refl _⟩
  exact (hsub.append_left _).append_right _

theorem narrows_cancelSend (cancelId : Nat) : Narrows s (s.cancelSend cancelId) :=
  .of_pending (cancelWalk_versions cancelId s.txPendingList s.contexts)
    (cancelWalk_sublist cancelId s.txPendingList s.contexts)

theorem narrows_cleanupNext (h : s.cleanupNext = some s') : Narrows s s' := by
  unfold State.cleanupNext at h
  split at h
  next => cases h
  next nb rest _ hpending =>
    obtain rfl := Option.some.inj h
    have hsub : rest.Sublist s.txPendingList := hpending ▸ List.sublist_cons_self nb rest
    exact .of_pending (s.versions_irpComplete nb) hsub
  next =>
    obtain rfl := Option.some.inj h
    exact .of_line rfl rfl rfl rfl rfl rfl rfl rfl

theorem narrows_purgeTLPNext (h : s.purgeTLPNext = some s') : Narrows s s' := by
  unfold State.purgeTLPNext at h
  split at h
  next => cases h
  next nb rest _ hpending =>
    obtain rfl := Option.some.inj h
    have hsub : rest.Sublist s.txPendingList := hpending ▸ List.sublist_cons_self nb rest
    exact .of_pending (s.versions_irpComplete nb) hsub
  next =>
    obtain rfl := Option.some.inj h
    exact .of_line rfl rfl rfl rfl rfl rfl rfl rfl

theorem narrows_purgeQmap (h : s.purgeQmap = some s') : Narrows s s' := by
  unfold State.purgeQmap at h
  split at h
  next => cases h
  next nb rest hheld =>
    obtain rfl := Option.some.inj h
    have hsub : rest.Sublist s.qmapFlowControlList := hheld ▸ List.sublist_cons_self nb rest
    exact ⟨rfl, s.versions_irpComplete nb, rfl, rfl, hsub.append_left _, .refl _, hsub,
      fun _ => .refl _⟩

/-! ## Sends -/

theorem versionOf_append_old {nb : Nb} {versions : List (Option IPVer)}
    (h : s'.versions = s.versions ++ [versions]) (hnb : nb.nbl < s.versions.length) :
    s'.versionOf nb = s.versionOf nb := by
  rw [State.versionOf_eq, State.versionOf_eq, h, List.getElem?_append_left hnb]

theorem versionOf_append_new {index : Nat} {versions : List (Option IPVer)}
    (h : s'.versions = s.versions ++ [versions]) :
    s'.versionOf ⟨s.versions.length, index⟩ = versions[index]?.join := by
  rw [State.versionOf_eq, h]
  simp

theorem pairwise_sentNbs (n : Nat) : (s.sentNbs n).Pairwise Nb.Before := by
  refine List.pairwise_map.mpr (List.pairwise_lt_range.imp fun hlt => ?_)
  exact .inr ⟨rfl, hlt⟩

theorem State.Lined.send (hl : s.Lined) (h : s.FlowKept) (cancelId : Nat) (canceld : Bool)
    {versions : List (Option IPVer)} (hne : versions ≠ []) :
    (s.send cancelId canceld versions true).Lined := by
  have hline : (s.send cancelId canceld versions true).line
      = s.line ++ s.sentNbs versions.length := by
    rw [s.send_eq cancelId canceld hne]
    by_cases hflow : s.qmapFlowControl = true
    · simp [line, hflow]
    · have hheld : s.qmapFlowControlList = [] := by
        by_contra hheld
        exact hflow (h.qmapHeld hheld)
      simp [line, hflow, hheld]
  have hlen : s.versions.length = s.contexts.length := List.length_map ..
  have hsent : ∀ nb ∈ s.sentNbs versions.length, nb.nbl = s.contexts.length := by
    simp only [sentNbs, List.mem_map]
    rintro nb ⟨index, -, rfl⟩
    rfl
  refine ⟨fun version => ?_, ?_, fun nb hnb => ?_⟩
  · rw [s.send_eq cancelId canceld hne]
    exact hl.unheld version
  · rw [hline]
    refine List.pairwise_append.mpr ⟨hl.sorted, pairwise_sentNbs _, fun a ha b hb => ?_⟩
    have hlt := hl.known a ha
    rw [hlen] at hlt
    exact .inl (hsent b hb ▸ hlt)
  · have hlen' : (s.send cancelId canceld versions true).versions.length
        = s.contexts.length + 1 := by simp [s.send_eq cancelId canceld hne, State.versions]
    rw [hlen']
    rcases List.mem_append.mp (hline ▸ hnb) with hold | hnew
    · have hlt := hl.known nb hold
      omega
    · rw [hsent nb hnew]
      exact Nat.lt_succ_self _

/-- A list is only accepted well if its packets are held back, or their flows are on. -/
theorem send_flowKept (hl : s.Lined) (h : s.FlowKept) (cancelId : Nat) (canceld : Bool)
    {versions : List (Option IPVer)} (hne : versions ≠ []) :
    (s.send cancelId canceld versions true).FlowKept ↔
      (s.qmapFlowControl = false → ∀ version ∈ versions, s.FlowOn version) := by
  have hl' := hl.send h cancelId canceld hne
  have heq := s.send_eq cancelId canceld hne
  have hversions : (s.send cancelId canceld versions true).versions
      = s.versions ++ [versions] := by
    rw [heq]
    simp [State.versions, State.newContext, TxContextNbl.versions, Function.comp_def]
  have hlen : s.versions.length = s.contexts.length := List.length_map ..
  have hold : ∀ nb ∈ s.txPendingList,
      (s.send cancelId canceld versions true).versionOf nb = s.versionOf nb := by
    intro nb hnb
    refine versionOf_append_old hversions (hl.known nb ?_)
    simp [State.line, hnb]
  by_cases hflow : s.qmapFlowControl = true
  · refine iff_of_true ?_ fun hoff => absurd hoff (by simp [hflow])
    have hpending : (s.send cancelId canceld versions true).txPendingList = [] := by
      rw [heq]
      simp [hflow, h.qmapOff hflow]
    refine ⟨?_, fun _ => ?_, fun version hheld => absurd (hl'.unheld version) hheld,
      fun _ => hpending, fun version _ nb hnb => ?_, hl'.ordered⟩
    · rw [heq]
      exact h.intact
    · rw [heq]
      exact hflow
    · simp [hpending] at hnb
  · have hheld : s.qmapFlowControlList = [] := by
      by_contra hheld
      exact hflow (h.qmapHeld hheld)
    have hpending : (s.send cancelId canceld versions true).txPendingList
        = s.txPendingList ++ s.sentNbs versions.length := by
      rw [heq]
      simp [hflow]
    have hflags : (s.send cancelId canceld versions true).flowControl = s.flowControl := by rw [heq]
    constructor
    · intro h' _ version hversion v hv
      obtain ⟨index, hindex, rfl⟩ := List.mem_iff_getElem.mp hversion
      by_contra hon
      have hoff : (s.send cancelId canceld versions true).flowControl v = true := by
        simpa [hflags] using hon
      refine h'.off v hoff ⟨s.versions.length, index⟩ ?_ ?_
      · rw [hpending, hlen]
        exact List.mem_append_right _ (List.mem_map.mpr ⟨index, by simpa using hindex, rfl⟩)
      · rw [versionOf_append_new hversions, List.getElem?_eq_getElem hindex]
        exact hv
    · intro hon
      refine ⟨?_, fun hne => ?_, fun version hheld => absurd (hl'.unheld version) hheld,
        fun hoff => ?_, fun v hoff nb hnb => ?_, hl'.ordered⟩
      · rw [heq]
        exact h.intact
      · rw [heq] at hne
        simp [hflow, hheld] at hne
      · rw [heq] at hoff
        exact absurd hoff hflow
      · rw [hflags] at hoff
        rw [hpending] at hnb
        rcases List.mem_append.mp hnb with hmem | hmem
        · rw [hold nb hmem]
          exact h.off v hoff nb hmem
        · obtain ⟨index, hindex, rfl⟩ := List.mem_map.mp hmem
          rw [← hlen, versionOf_append_new hversions]
          intro hv
          have hlt : index < versions.length := by simpa using hindex
          rw [List.getElem?_eq_getElem hlt] at hv
          have := hon (by simpa using hflow) _ (List.getElem_mem hlt) v hv
          simp [this] at hoff

/-! ## One step -/

/-- A list that is given back at once changes nothing about the flows. -/
theorem send_refused_flowKept (hl : s.Lined) (h : s.FlowKept) (cancelId : Nat) (canceld : Bool)
    {versions : List (Option IPVer)} {allocated : Bool}
    (hrefused : ¬ (versions ≠ [] ∧ allocated)) :
    (s.send cancelId canceld versions allocated).Lined ∧
      (s.send cancelId canceld versions allocated).FlowKept := by
  rw [s.send_refused cancelId canceld hrefused]
  have hversions : ({ s with
      contexts := s.contexts ++ [⟨cancelId, canceld, [], 1⟩] } : State).versions
      = s.versions ++ [[]] := by simp [State.versions, TxContextNbl.versions]
  constructor
  · refine ⟨hl.unheld, hl.sorted, fun nb hnb => ?_⟩
    rw [hversions, List.length_append]
    exact Nat.lt_add_right _ (hl.known nb hnb)
  · refine { h with off := fun v hoff nb hnb => ?_ }
    have hknown : nb.nbl < s.versions.length := hl.known nb (by
      have hmem : nb ∈ s.txPendingList := hnb
      simp [State.line, hmem])
    rw [versionOf_append_old hversions hknown]
    exact h.off v hoff nb hnb

theorem not_qmapFlowControl (h : s.FlowKept) (hflow : ¬ s.qmapFlowControl = true) :
    s.qmapFlowControlList = [] := by
  by_contra hheld
  exact hflow (h.qmapHeld hheld)

/-- Pause moves what is pending behind what is held back, and resume puts it all back in front. -/
theorem qmapFlowControlCall_line (h : s.FlowKept) (flowControlled : Bool) :
    (s.qmapFlowControlCall flowControlled).line = s.line := by
  by_cases hflow : s.qmapFlowControl = true
  · cases flowControlled <;>
      simp [State.line, State.qmapFlowControlCall, h.qmapOff hflow]
  · cases flowControlled <;>
      simp [State.line, State.qmapFlowControlCall, not_qmapFlowControl h hflow]

theorem qmapFlowControlCall_flowKept (hl : s.Lined) (h : s.FlowKept) (flowControlled : Bool) :
    (s.qmapFlowControlCall flowControlled).Lined ∧
      ((s.qmapFlowControlCall flowControlled).FlowKept ↔
        (flowControlled = false → ∀ nb ∈ s.qmapFlowControlList, s.FlowOn (s.versionOf nb))) := by
  have hline := qmapFlowControlCall_line h flowControlled
  have hl' : (s.qmapFlowControlCall flowControlled).Lined := by
    refine ⟨?_, hline ▸ hl.sorted, fun nb hnb => ?_⟩
    · cases flowControlled <;> exact hl.unheld
    · cases flowControlled <;> exact hl.known nb (hline ▸ hnb)
  refine ⟨hl', ?_⟩
  cases flowControlled with
  | true =>
    refine iff_of_true ?_ (by simp)
    exact { h with
      qmapHeld := fun _ => rfl
      qmapOff := fun _ => rfl
      off := fun _ _ nb hnb => absurd hnb List.not_mem_nil }
  | false =>
    constructor
    · intro h' _ nb hnb v hv
      by_contra hon
      have hmem : nb ∈ (s.qmapFlowControlCall false).txPendingList :=
        List.mem_append_left _ hnb
      exact h'.off v (eq_true_of_ne_false hon) nb hmem hv
    · intro hon
      refine { h with
        qmapHeld := fun hne => absurd rfl hne
        qmapOff := fun hoff => Bool.noConfusion hoff
        off := fun v hoff nb hnb hv => ?_ }
      rcases List.mem_append.mp hnb with hheld | hpending
      · have hflow : s.flowControl v = false := hon rfl nb hheld v hv
        exact Bool.false_ne_true (hflow.symm.trans hoff)
      · exact h.off v hoff nb hpending hv

theorem flowControlCall_flowKept (hl : s.Lined) (h : s.FlowKept) (version : IPVer)
    (flowControlled : Bool) :
    (s.flowControlCall version flowControlled).Lined ∧
      ((s.flowControlCall version flowControlled).FlowKept ↔
        (flowControlled = true → ∀ nb ∈ s.txPendingList, s.versionOf nb ≠ some version)) := by
  have heq : s.flowControlCall version flowControlled =
      { s with flowControl := Function.update s.flowControl version flowControlled } := by
    have hsame : Function.update s.flowControlList version [] = s.flowControlList := by
      rw [← hl.unheld version, Function.update_eq_self]
    cases flowControlled <;> simp [State.flowControlCall, hl.unheld version, hsame]
  rw [heq]
  have hl' : ({ s with
      flowControl := Function.update s.flowControl version flowControlled } : State).Lined :=
    ⟨hl.unheld, hl.sorted, hl.known⟩
  refine ⟨hl', fun h' hon nb hnb => ?_, fun hon => ?_⟩
  · subst hon
    exact h'.off version (Function.update_self ..) nb hnb
  · refine { h with
      held := fun v hheld => absurd (hl'.unheld v) hheld
      off := fun v hoff nb hnb => ?_ }
    rcases eq_or_ne v version with rfl | hv
    · exact hon (by simpa using hoff) nb hnb
    · have hold : s.flowControl v = true := (Function.update_of_ne hv ..).symm.trans hoff
      exact h.off v hold nb hnb

theorem mediaDisconnect_flowKept (hl : s.Lined) (h : s.FlowKept) (disconnectAll : Bool) :
    (s.mediaDisconnect disconnectAll).Lined ∧
      ((s.mediaDisconnect disconnectAll).FlowKept ↔
        (disconnectAll = true ∨ s.numberOfConnections ≤ 1 → s.qmapFlowControlList = [])) := by
  refine ⟨⟨hl.unheld, hl.sorted, hl.known⟩, ?_⟩
  have hzero : (if disconnectAll = true then 0 else s.numberOfConnections - 1) = 0 ↔
      disconnectAll = true ∨ s.numberOfConnections ≤ 1 := by
    cases disconnectAll <;> simp [Nat.sub_eq_zero_iff_le]
  by_cases hdown : disconnectAll = true ∨ s.numberOfConnections ≤ 1
  · have hflag : (s.mediaDisconnect disconnectAll).qmapFlowControl = false :=
      if_pos (hzero.mpr hdown)
    constructor
    · intro h' _
      have hoff : ¬ (s.mediaDisconnect disconnectAll).qmapFlowControl = true := by simp [hflag]
      have hempty : (s.mediaDisconnect disconnectAll).qmapFlowControlList = [] :=
        not_qmapFlowControl h' hoff
      exact hempty
    · intro hempty
      exact { h with
        qmapHeld := fun hne => absurd (hempty hdown) hne
        qmapOff := fun hoff => absurd hoff (by simp [hflag]) }
  · refine iff_of_true ?_ fun hd => absurd hd hdown
    have hflag : (s.mediaDisconnect disconnectAll).qmapFlowControl = s.qmapFlowControl :=
      if_neg fun hz => hdown (hzero.mp hz)
    exact { h with
      qmapHeld := fun hne => hflag.trans (h.qmapHeld hne)
      qmapOff := fun hoff => h.qmapOff (hflag.symm.trans hoff) }

theorem removeEntryList_cases (s : State) (flink : Option Nb) :
    (∃ pending, pending.Sublist s.txPendingList ∧
      s.removeEntryList flink = { s with txPendingList := pending }) ∧
        (∀ next, flink = some next → next ∈ s.txPendingList) ∨
    (∃ next, flink = some next ∧ next ∉ s.txPendingList) ∧
      s.removeEntryList flink = { s with intact := false } := by
  cases flink with
  | none => exact .inl ⟨⟨[], List.nil_sublist _, rfl⟩, by simp⟩
  | some next =>
    by_cases hmem : next ∈ s.txPendingList
    · refine .inl ⟨⟨_, List.dropWhile_sublist _, if_pos hmem⟩, ?_⟩
      intro other heq
      exact Option.some.inj heq ▸ hmem
    · exact .inr ⟨⟨next, rfl, hmem⟩, if_neg hmem⟩

theorem fail_flowKept (hl : s.Lined) (h : s.FlowKept) (hstep : s.fail quickTx = some s') :
    s'.Lined ∧ (s'.FlowKept ↔ Op.KeepsFlow quickTx s .fail) := by
  unfold State.fail at hstep
  split at hstep
  next nb flink item htx =>
    have hsub {pending : List Nb} (hpending : pending.Sublist s.txPendingList) :
        Narrows s { s with txPendingList := pending, tx := .finishing nb item false } := by
      refine ⟨rfl, rfl, rfl, rfl, ?_, hpending, .refl _, fun _ => .refl _⟩
      simp only [State.line, TxThread.underway]
      refine ((List.Sublist.append_left ?_ _).append hpending).append_right _
      exact List.nil_sublist _
    cases quickTx with
    | true =>
      obtain rfl := Option.some.inj hstep
      have hn := hsub (.refl s.txPendingList)
      exact ⟨hn.lined hl, iff_of_true (hn.flowKept hl h) fun hquick => absurd hquick (by simp)⟩
    | false =>
      simp only [Bool.false_eq_true, if_false, Option.some.injEq] at hstep
      rcases removeEntryList_cases s flink with
        ⟨⟨pending, hpending, heq⟩, hmem⟩ | ⟨⟨next, hnext, hmem⟩, heq⟩
      · rw [heq] at hstep
        subst hstep
        have hn := hsub hpending
        refine ⟨hn.lined hl, iff_of_true (hn.flowKept hl h) ?_⟩
        intro _ nb' next item' htx'
        rw [htx] at htx'
        cases htx'
        exact hmem next rfl
      · rw [heq] at hstep
        subst hstep
        have hn := hsub (.refl s.txPendingList)
        have hl' := hn.lined hl
        refine ⟨⟨hl'.unheld, hl'.sorted, hl'.known⟩, iff_of_false ?_ ?_⟩
        · exact fun h' => Bool.false_ne_true h'.intact
        · intro hok
          exact hmem (hok rfl nb next item (hnext ▸ htx))
  next => cases hstep

theorem processPendingTlpEx_flowKept {ready : Bool} (hl : s.Lined) (h : s.FlowKept)
    (hstep : s.processPendingTlpEx ready = some s') :
    s'.Lined ∧ (s'.FlowKept ↔ ready = false) := by
  unfold State.processPendingTlpEx at hstep
  split at hstep
  next nb rest _ hpending =>
    have hsub : rest.Sublist s.txPendingList := hpending ▸ List.sublist_cons_self nb rest
    cases ready with
    | true =>
      obtain rfl := Option.some.inj hstep
      have hn : Narrows s { s with txPendingList := rest } := .of_pending rfl hsub
      have hl' := hn.lined hl
      refine ⟨⟨hl'.unheld, hl'.sorted, hl'.known⟩, iff_of_false ?_ (by simp)⟩
      exact fun h' => Bool.false_ne_true h'.intact
    | false =>
      simp only [Bool.false_eq_true, if_false, Option.some.injEq] at hstep
      subst hstep
      have hn : Narrows s { s with
          contexts := s.contexts.modify nb.nbl (·.giveBack), txPendingList := rest } :=
        .of_pending (map_modify_of_eq (fun c => c.versions_giveBack) s.contexts nb.nbl) hsub
      exact ⟨hn.lined hl, iff_of_true (hn.flowKept hl h) rfl⟩
  next => cases hstep

theorem purgeTLP_flowKept (hl : s.Lined) (h : s.FlowKept) (hstep : s.purgeTLP = some s') :
    s'.Lined ∧
      (s'.FlowKept ↔ ∀ item ∈ s.uplinkFreeBufferQueue, item.packetList = []) := by
  unfold State.purgeTLP at hstep
  split at hstep
  next =>
    split at hstep
    next hempty =>
      obtain rfl := Option.some.inj hstep
      have hn : Narrows s { s with uplinkFreeBufferQueue := [], purges := s.purges + 1 } :=
        .of_line rfl rfl rfl rfl rfl rfl rfl rfl
      refine ⟨hn.lined hl, iff_of_true (hn.flowKept hl h) ?_⟩
      simpa using hempty
    next hempty =>
      obtain rfl := Option.some.inj hstep
      refine ⟨⟨hl.unheld, hl.sorted, hl.known⟩, iff_of_false ?_ ?_⟩
      · exact fun h' => Bool.false_ne_true h'.intact
      · simpa using hempty
  next => cases hstep

theorem step_flowKept {op : Op} (hl : s.Lined) (h : s.FlowKept)
    (hstep : s.step quickTx op = some s') : s'.Lined ∧ (s'.FlowKept ↔ op.KeepsFlow quickTx s) := by
  have quiet (hn : Narrows s s') : s'.Lined ∧ (s'.FlowKept ↔ True) :=
    ⟨hn.lined hl, iff_of_true (hn.flowKept hl h) trivial⟩
  cases op with
  | send cancelId canceld versions allocated =>
    obtain rfl := Option.some.inj hstep
    by_cases hsent : versions ≠ [] ∧ allocated = true
    · obtain ⟨hne, rfl⟩ := hsent
      refine ⟨hl.send h cancelId canceld hne, ?_⟩
      rw [send_flowKept hl h cancelId canceld hne]
      exact ⟨fun hon _ => hon, fun hon => hon rfl⟩
    · have hboth := send_refused_flowKept hl h cancelId canceld hsent
      refine ⟨hboth.1, iff_of_true hboth.2 fun hallocated _ version hversion => ?_⟩
      exact absurd ⟨List.ne_nil_of_mem hversion, hallocated⟩ hsent
  | take ready => exact quiet (narrows_take hstep)
  | flush => exact quiet (narrows_flush hstep)
  | takeItem => exact quiet (narrows_takeItem hstep)
  | mark => exact quiet (narrows_mark hstep)
  | accept stays => exact quiet (narrows_accept hstep)
  | fail => exact fail_flowKept hl h hstep
  | finish => exact quiet (narrows_finish hstep)
  | letGo => exact quiet (narrows_letGo hstep)
  | usbCompletes k => exact quiet (narrows_usbCompletes hstep)
  | completeNext k => exact quiet (narrows_completeNext hstep)
  | cancelSend cancelId =>
    obtain rfl := Option.some.inj hstep
    exact quiet (narrows_cancelSend cancelId)
  | cancelNext k => exact quiet (narrows_cancelNext hstep)
  | processPendingTlpEx ready => exact processPendingTlpEx_flowKept hl h hstep
  | purgeQmap => exact quiet (narrows_purgeQmap hstep)
  | purgeFlow version => simp [State.step, State.purgeFlow, hl.unheld version] at hstep
  | cleanup =>
    simp only [State.step, State.cleanup] at hstep
    split at hstep
    · obtain rfl := Option.some.inj hstep
      exact quiet (.of_line rfl rfl rfl rfl rfl rfl rfl rfl)
    · cases hstep
  | cleanupNext => exact quiet (narrows_cleanupNext hstep)
  | purgeTLP => exact purgeTLP_flowKept hl h hstep
  | purgeTLPNext => exact quiet (narrows_purgeTLPNext hstep)
  | qmapFlowControlCall flowControlled =>
    obtain rfl := Option.some.inj hstep
    exact qmapFlowControlCall_flowKept hl h flowControlled
  | flowControlCall version flowControlled =>
    obtain rfl := Option.some.inj hstep
    exact flowControlCall_flowKept hl h version flowControlled
  | mediaConnect =>
    obtain rfl := Option.some.inj hstep
    exact quiet (.of_line rfl rfl rfl rfl rfl rfl rfl rfl)
  | mediaDisconnect disconnectAll =>
    obtain rfl := Option.some.inj hstep
    exact mediaDisconnect_flowKept hl h disconnectAll
  | pauseReturns =>
    simp only [State.step, State.pauseReturns] at hstep
    split at hstep
    · cases hstep
    · obtain rfl := Option.some.inj hstep
      exact quiet (.of_line rfl rfl rfl rfl rfl rfl rfl rfl)

/-- Flow control is kept exactly if no packet becomes pending while the flow of its IP version is
off, and no disconnect forgets what is held back. -/
theorem txQueues_flowKept (quickTx : Bool) (items : Nat) (ops : List Op) :
    (∀ s ∈ (txQueues quickTx).visits (start items) ops, s.FlowKept) ↔
      ∀ p ∈ (txQueues quickTx).fires (start items) ops, p.2.KeepsFlow quickTx p.1 := by
  have hkept : ∀ s op s' (o : Unit), State.Lined s → s.FlowKept → op.KeepsFlow quickTx s →
      txQueues quickTx s op = some (s', o) → s'.Lined := fun s op s' o hl h _ hstep =>
    (step_flowKept hl h (txQueues_step hstep)).1
  have hiff : ∀ s op s' (o : Unit), State.Lined s → s.FlowKept →
      txQueues quickTx s op = some (s', o) → (s'.FlowKept ↔ op.KeepsFlow quickTx s) :=
    fun s op s' o hl h hstep => (step_flowKept hl h (txQueues_step hstep)).2
  refine Machine.visits_all_iff_fires_of_ok hkept hiff ?_ ?_
  · exact ⟨fun _ => rfl, .nil, fun nb hnb => absurd hnb List.not_mem_nil⟩
  · exact ⟨rfl, fun h => absurd rfl h, fun _ h => absurd rfl h, fun h => Bool.noConfusion h,
      fun _ _ nb hnb => absurd hnb List.not_mem_nil, .nil⟩

/-- A disconnect switches the flow on and leaves a packet on `QMAPFlowControlList`. -/
theorem txQueues_flowKept_disconnect :
    ¬ ∀ s ∈ (txQueues false).visits (start 1)
        [.qmapFlowControlCall true, .send 0 false [some .v4] true, .mediaDisconnect true],
      s.FlowKept := by
  intro hall
  have hlast := List.getLast_mem (List.ne_nil_of_mem (Machine.start_mem_visits
    (M := txQueues false) (start 1)
    [.qmapFlowControlCall true, .send 0 false [some .v4] true, .mediaDisconnect true]))
  have hheld := (hall _ hlast).qmapHeld
  revert hheld
  decide

end Ndis.Tx
