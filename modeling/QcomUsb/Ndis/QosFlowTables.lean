-- SUMMARY: In every run each QoS flow is in one table, and the precedence list holds the filters of the flows in order.
import QcomUsb.Ndis.QosFlows

/-!
# The flow tables over runs

The threads change the tables one hold of `TxLock` at a time. Every step keeps each flow in one table
that agrees with its `FlowState`, and keeps the list of the ordered filters: they are the filters of
the flows in the tables, so that no filter or flow that was freed is looked at.
-/

namespace Ndis.Qos

open Transition

variable {P : Type} {s s' : State P} {fl x y : FlowPtr} {f g : Nat} {q q' q₀ : QosFlowQueueType}

namespace State

/-! ## What the invariant says -/

/-- Each flow is in one table, and its `FlowState` says in which. A flow without data has none, and
the ids of the flows outside of the default table are different. -/
structure Tables (s : State P) : Prop where
  nodup : ∀ q, (s.flowDataQueue q).Nodup
  unique : ∀ {q q' fl}, fl ∈ s.flowDataQueue q → fl ∈ s.flowDataQueue q' → q = q'
  state : ∀ {q fl}, fl ∈ s.flowDataQueue q → fl ≠ .defaultQosFlow → (s.flow fl).flowState = q
  default : .defaultQosFlow ∈ s.flowDataQueue .default
  noData : ∀ fl ∈ s.flowDataQueue .sendWithoutData, (s.flow fl).packets = []
  ids : ∀ {q q' fl fl'}, q ≠ .default → q' ≠ .default → fl ∈ s.flowDataQueue q →
    fl' ∈ s.flowDataQueue q' → (s.flow fl).flowId = (s.flow fl').flowId → fl = fl'

/-- The filter is one of a flow in the tables. -/
def Linked (s : State P) (f : Nat) : Prop := ∃ q, ∃ fl ∈ s.flowDataQueue q, f ∈ (s.flow fl).filterList

/-- Each filter belongs to the flow that has it. The precedence list holds the filters with a valid
precedence, each once and in order. -/
structure Filters (s : State P) : Prop where
  owner : ∀ {q fl f}, fl ∈ s.flowDataQueue q → f ∈ (s.flow fl).filterList → (s.filter f).flow = fl
  nodup : ∀ {q fl}, fl ∈ s.flowDataQueue q → (s.flow fl).filterList.Nodup
  default : ∀ fl ∈ s.flowDataQueue .default, (s.flow fl).filterList = []
  ordered : StableOrder.Ordered s.precedence s.filterPrecedenceList
  listed : s.filterPrecedenceList.Nodup
  mem_iff : ∀ f, f ∈ s.filterPrecedenceList ↔
    s.precedence f < qosFilterPrecedenceInvalid ∧ s.Linked f

theorem mem_tables (q : QosFlowQueueType) : q ∈ tables := by
  cases q <;> simp [tables]

theorem holds_iff : s.Holds f ↔ s.Linked f := by
  simp only [Holds, Linked, List.mem_flatMap]
  constructor
  · rintro ⟨fl, ⟨q, -, hfl⟩, hf⟩
    exact ⟨q, fl, hfl, hf⟩
  · rintro ⟨q, fl, hfl, hf⟩
    exact ⟨fl, ⟨q, mem_tables q, hfl⟩, hf⟩

/-- Changes that the tables do not depend on. -/
theorem Tables.congr (h : s.Tables) (hqueue : s'.flowDataQueue = s.flowDataQueue)
    (hstate : ∀ fl, (s'.flow fl).flowState = (s.flow fl).flowState)
    (hid : ∀ fl, (s'.flow fl).flowId = (s.flow fl).flowId)
    (hdata : ∀ fl ∈ s.flowDataQueue .sendWithoutData, (s'.flow fl).packets = []) : s'.Tables where
  nodup := hqueue ▸ h.nodup
  unique := hqueue ▸ h.unique
  state hfl hne := (hstate _).trans (h.state (hqueue ▸ hfl) hne)
  default := hqueue ▸ h.default
  noData fl hfl := hdata fl (hqueue ▸ hfl)
  ids hq hq' hfl hfl' heq := h.ids hq hq' (hqueue ▸ hfl) (hqueue ▸ hfl') (by rwa [hid, hid] at heq)

/-- Changes that the filters do not depend on. -/
theorem Filters.congr (h : s.Filters)
    (hqueue : ∀ q fl, fl ∈ s'.flowDataQueue q ↔ fl ∈ s.flowDataQueue q)
    (hlist : ∀ fl, (s'.flow fl).filterList = (s.flow fl).filterList)
    (hflow : ∀ f, s.Linked f → (s'.filter f).flow = (s.filter f).flow)
    (hprec : ∀ f, s.Linked f → s'.precedence f = s.precedence f)
    (hprecs : s'.filterPrecedenceList = s.filterPrecedenceList) : s'.Filters where
  owner {q fl f} hfl hf := by
    have hfl' := (hqueue q fl).mp hfl
    have hf' := hlist fl ▸ hf
    exact (hflow f ⟨q, fl, hfl', hf'⟩).trans (h.owner hfl' hf')
  nodup hfl := (hlist _).symm ▸ h.nodup ((hqueue _ _).mp hfl)
  default fl hfl := (hlist fl).trans (h.default fl ((hqueue _ _).mp hfl))
  ordered := by
    rw [hprecs]
    refine h.ordered.imp_of_mem fun {f g} hf hg hle => ?_
    rwa [hprec f ((h.mem_iff f).mp hf).2, hprec g ((h.mem_iff g).mp hg).2]
  listed := hprecs ▸ h.listed
  mem_iff f := by
    have hlinked : s'.Linked f ↔ s.Linked f := by simp only [Linked, hqueue, hlist]
    rw [hprecs, h.mem_iff, hlinked]
    exact and_congr_left fun hf => by rw [hprec f hf]

/-! ## Moving a flow -/

theorem setFlow_flow (s : State P) (fl x : FlowPtr) (entry : MpqosFlowEntry P) :
    (s.setFlow fl entry).flow x = if x = fl then entry else s.flow x := by
  simp [setFlow, Function.update_apply]

theorem mem_move (hnodup : ∀ q, (s.flowDataQueue q).Nodup) :
    x ∈ (s.move fl q).flowDataQueue q' ↔ if x = fl then q' = q else x ∈ s.flowDataQueue q' := by
  simp only [move, insertTailList, removeEntryList, setFlowState, setFlow, Function.update_apply]
  split_ifs with hq hx hx
  · simp [hx, hq]
  · subst hq
    simp [(hnodup q').mem_erase_iff, hx]
  · simp [hx, hq, (hnodup q').mem_erase_iff]
  · simp [(hnodup q').mem_erase_iff, hx]

theorem nodup_move (hnodup : ∀ q, (s.flowDataQueue q).Nodup) (q' : QosFlowQueueType) :
    ((s.move fl q).flowDataQueue q').Nodup := by
  simp only [move, insertTailList, removeEntryList, setFlowState, setFlow, Function.update_apply]
  split_ifs
  · refine List.nodup_append.mpr ⟨(hnodup q).erase fl, List.nodup_singleton fl, ?_⟩
    intro x hx y hy
    rintro rfl
    exact ((hnodup q).mem_erase_iff.mp hx).1 (List.mem_singleton.mp hy)
  · exact (hnodup q').erase fl

theorem move_flow (s : State P) (fl : FlowPtr) (q : QosFlowQueueType) (x : FlowPtr) :
    (s.move fl q).flow x = { s.flow x with flowState := if x = fl then q else (s.flow x).flowState } := by
  by_cases hx : x = fl
  · subst hx
    simp [move, insertTailList, removeEntryList, setFlowState, setFlow]
  · simp [move, insertTailList, removeEntryList, setFlowState, setFlow, hx]

/-- A flow that is in a table moves to another. It does not come back from the default table. -/
theorem Tables.move (h : s.Tables) (hfl : fl ∈ s.flowDataQueue q₀)
    (hdefault : fl = .defaultQosFlow → q = .default)
    (hback : q ≠ .default → q₀ ≠ .default)
    (hdata : q = .sendWithoutData → (s.flow fl).packets = []) : (s.move fl q).Tables where
  nodup := nodup_move h.nodup
  unique {q₁ q₂ x} h₁ h₂ := by
    rw [mem_move h.nodup] at h₁ h₂
    split_ifs at h₁ h₂ with hx
    · exact h₁.trans h₂.symm
    · exact h.unique h₁ h₂
  state {q₁ x} h₁ hne := by
    rw [mem_move h.nodup] at h₁
    rw [move_flow]
    split_ifs at h₁ with hx
    · simp [hx, h₁]
    · simpa [hx] using h.state h₁ hne
  default := by
    rw [mem_move h.nodup]
    split_ifs with hx
    · exact (hdefault hx.symm).symm
    · exact h.default
  noData x hx := by
    rw [mem_move h.nodup] at hx
    rw [move_flow]
    split_ifs at hx with heq
    · exact heq ▸ hdata hx.symm
    · exact h.noData x hx
  ids {q₁ q₂ x y} h₁ h₂ hx hy heq := by
    rw [mem_move h.nodup] at hx hy
    simp only [move_flow] at heq
    split_ifs at hx hy with hxfl hyfl hyfl
    · exact hxfl.trans hyfl.symm
    · exact hxfl ▸ h.ids (hback (hx ▸ h₁)) h₂ hfl hy (hxfl ▸ heq)
    · exact hyfl ▸ h.ids h₁ (hback (hy ▸ h₂)) hx hfl (hyfl ▸ heq)
    · exact h.ids h₁ h₂ hx hy heq

theorem linked_move (h : s.Tables) (hfl : fl ∈ s.flowDataQueue q₀) :
    (s.move fl q).Linked f ↔ s.Linked f := by
  simp only [Linked, mem_move h.nodup, move_flow]
  constructor
  · rintro ⟨q₁, x, hx, hf⟩
    split_ifs at hx with heq
    · exact ⟨q₀, fl, hfl, heq ▸ hf⟩
    · exact ⟨q₁, x, hx, hf⟩
  · rintro ⟨q₁, x, hx, hf⟩
    by_cases heq : x = fl
    · exact ⟨q, x, by simp [heq], hf⟩
    · exact ⟨q₁, x, by simp [heq, hx], hf⟩

theorem Filters.move (h : s.Filters) (ht : s.Tables) (hfl : fl ∈ s.flowDataQueue q₀)
    (hdefault : q = .default → (s.flow fl).filterList = []) : (s.move fl q).Filters where
  owner {q₁ x g} hx hg := by
    rw [mem_move ht.nodup] at hx
    rw [move_flow] at hg
    split_ifs at hx with heq
    · exact h.owner (heq ▸ hfl) hg
    · exact h.owner hx hg
  nodup {q₁ x} hx := by
    rw [mem_move ht.nodup] at hx
    rw [move_flow]
    split_ifs at hx with heq
    · exact h.nodup (heq ▸ hfl)
    · exact h.nodup hx
  default x hx := by
    rw [mem_move ht.nodup] at hx
    rw [move_flow]
    split_ifs at hx with heq
    · exact heq ▸ hdefault hx.symm
    · exact h.default x hx
  ordered := h.ordered
  listed := h.listed
  mem_iff g := (h.mem_iff g).trans (and_congr_right fun _ => (linked_move ht hfl).symm)

/-! ## The filters of a flow -/

theorem purgeFilterList_flow (s : State P) (fl x : FlowPtr) : (s.purgeFilterList fl).flow x =
    { s.flow x with filterList := if x = fl then [] else (s.flow x).filterList } := by
  by_cases hx : x = fl
  · subst hx
    simp [purgeFilterList, removeQosFilterFromPrecedenceList, setFlow]
  · simp [purgeFilterList, removeQosFilterFromPrecedenceList, setFlow, hx]

theorem Tables.purgeFilterList (h : s.Tables) (fl : FlowPtr) : (s.purgeFilterList fl).Tables := by
  refine h.congr rfl (fun x => ?_) (fun x => ?_) fun x hx => ?_
  · rw [purgeFilterList_flow]
  · rw [purgeFilterList_flow]
  · rw [purgeFilterList_flow]
    exact h.noData x hx

theorem linked_purgeFilterList (h : s.Filters) (hfl : fl ∈ s.flowDataQueue q) :
    (s.purgeFilterList fl).Linked f ↔ s.Linked f ∧ f ∉ (s.flow fl).filterList := by
  simp only [Linked, purgeFilterList_flow]
  constructor
  · rintro ⟨q', x, hx, hf⟩
    split_ifs at hf with heq
    · simp at hf
    · refine ⟨⟨q', x, hx, hf⟩, fun hfl' => heq ?_⟩
      exact (h.owner hx hf).symm.trans (h.owner hfl hfl')
  · rintro ⟨⟨q', x, hx, hf⟩, hnot⟩
    have hne : x ≠ fl := by
      rintro rfl
      exact hnot hf
    exact ⟨q', x, hx, by rwa [if_neg hne]⟩

theorem Filters.purgeFilterList (h : s.Filters) (hfl : fl ∈ s.flowDataQueue q) :
    (s.purgeFilterList fl).Filters where
  owner {q' x g} hx hg := by
    rw [purgeFilterList_flow] at hg
    dsimp only at hg
    split_ifs at hg
    · simp at hg
    · exact h.owner hx hg
  nodup {q' x} hx := by
    rw [purgeFilterList_flow]
    dsimp only
    split_ifs
    · exact List.nodup_nil
    · exact h.nodup hx
  default x hx := by
    rw [purgeFilterList_flow]
    dsimp only
    split_ifs
    · rfl
    · exact h.default x hx
  ordered := h.ordered.filter _
  listed := h.listed.filter _
  mem_iff g := by
    rw [linked_purgeFilterList h hfl, ← and_assoc]
    refine List.mem_filter.trans (and_congr (h.mem_iff g) ?_)
    simp

theorem purgeFilterList_of_nil (hnil : (s.flow fl).filterList = []) : s.purgeFilterList fl = s := by
  have hprec : s.filterPrecedenceList.filter (· ∉ ([] : List Nat)) = s.filterPrecedenceList := by simp
  have hflow : Function.update s.flow fl { s.flow fl with filterList := [] } = s.flow := by
    rw [← hnil]
    exact Function.update_eq_self fl s.flow
  rw [State.purgeFilterList, removeQosFilterFromPrecedenceList, hnil, setFlow]
  simp only [hflow, hprec]

theorem addQosFilterToPrecedenceList_frame (s : State P) (filterList : List Nat) :
    ∃ l, s.addQosFilterToPrecedenceList filterList = { s with filterPrecedenceList := l } := by
  induction filterList generalizing s with
  | nil => exact ⟨_, rfl⟩
  | cons f fs ih =>
    rw [addQosFilterToPrecedenceList, List.foldl_cons, addToPrecedenceList]
    split_ifs
    · exact ih s
    · exact ih _

/-- Only the filters change. -/
theorem addQosFilter_frame (s : State P) (fl : FlowPtr) (filterList : List Nat) :
    ∃ l filter, s.addQosFilter fl filterList = { s with
      filterPrecedenceList := l
      filter := filter
      flow := Function.update s.flow fl
        { s.flow fl with filterList := (s.flow fl).filterList ++ filterList } } := by
  obtain ⟨l, heq⟩ := addQosFilterToPrecedenceList_frame s filterList
  rw [addQosFilter, heq]
  exact ⟨l, _, rfl⟩

theorem addQosFilter_packets (s : State P) (fl : FlowPtr) (filterList : List Nat) (x : FlowPtr) :
    ((s.addQosFilter fl filterList).flow x).packets = (s.flow x).packets := by
  obtain ⟨l, filter, heq⟩ := addQosFilter_frame s fl filterList
  rw [heq]
  by_cases hx : x = fl
  · subst hx
    simp
  · simp [hx]

/-- The new filters of a flow are put in order. Only the precedence list changes. -/
theorem addQosFilterToPrecedenceList_spec (s : State P) (filterList : List Nat)
    (hordered : StableOrder.Ordered s.precedence s.filterPrecedenceList)
    (hnodup : (filterList ++ s.filterPrecedenceList).Nodup) :
    ∃ l, s.addQosFilterToPrecedenceList filterList = { s with filterPrecedenceList := l } ∧
      StableOrder.Ordered s.precedence l ∧ l.Nodup ∧
        ∀ g, g ∈ l ↔ g ∈ s.filterPrecedenceList ∨
          g ∈ filterList ∧ s.precedence g < qosFilterPrecedenceInvalid := by
  induction filterList generalizing s with
  | nil => exact ⟨s.filterPrecedenceList, rfl, hordered, hnodup, fun g => by simp⟩
  | cons f fs ih =>
    rw [List.cons_append, List.nodup_cons, List.mem_append, not_or] at hnodup
    obtain ⟨hf, hrest⟩ := hnodup
    rw [addQosFilterToPrecedenceList, List.foldl_cons, addToPrecedenceList]
    split_ifs with hinvalid
    · obtain ⟨l, heq, hl, hlnodup, hmem⟩ := ih s hordered hrest
      refine ⟨l, heq, hl, hlnodup, fun g => (hmem g).trans (or_congr_right ?_)⟩
      rw [List.mem_cons]
      constructor
      · rintro ⟨hg, hlt⟩
        exact ⟨.inr hg, hlt⟩
      · rintro ⟨rfl | hg, hlt⟩
        · omega
        · exact ⟨hg, hlt⟩
    · have hnodup' : (fs ++ StableOrder.put s.precedence f s.filterPrecedenceList).Nodup := by
        have hput : (StableOrder.put s.precedence f s.filterPrecedenceList).Perm
            (f :: s.filterPrecedenceList) := StableOrder.perm_put
        refine ((hput.append_left fs).trans List.perm_middle).nodup_iff.mpr ?_
        exact List.nodup_cons.mpr ⟨fun h => (List.mem_append.mp h).elim hf.1 hf.2, hrest⟩
      obtain ⟨l, heq, hl, hlnodup, hmem⟩ := ih { s with
        filterPrecedenceList := StableOrder.put s.precedence f s.filterPrecedenceList }
        (hordered.put f) hnodup'
      refine ⟨l, heq, hl, hlnodup, fun g => (hmem g).trans ?_⟩
      rw [StableOrder.mem_put, List.mem_cons]
      constructor
      · rintro ((rfl | hg) | hg)
        · exact .inr ⟨.inl rfl, Nat.not_le.mp hinvalid⟩
        · exact .inl hg
        · exact .inr ⟨.inr hg.1, hg.2⟩
      · rintro (hg | ⟨rfl | hg, hlt⟩)
        · exact .inl (.inr hg)
        · exact .inl (.inl rfl)
        · exact .inr ⟨hg, hlt⟩

theorem addQosFilter_spec (h : s.Filters) (fl : FlowPtr) (filterList : List Nat) (hnodup : filterList.Nodup)
    (hnew : ∀ f ∈ filterList, ¬ s.Linked f) :
    (s.addQosFilter fl filterList).flowDataQueue = s.flowDataQueue ∧
      (∀ x, (s.addQosFilter fl filterList).flow x = { s.flow x with
        filterList := (s.flow x).filterList ++ if x = fl then filterList else [] }) ∧
      (∀ f, (s.addQosFilter fl filterList).filter f =
        if f ∈ filterList then { s.filter f with flow := fl } else s.filter f) ∧
      StableOrder.Ordered s.precedence (s.addQosFilter fl filterList).filterPrecedenceList ∧
      (s.addQosFilter fl filterList).filterPrecedenceList.Nodup ∧
      ∀ g, g ∈ (s.addQosFilter fl filterList).filterPrecedenceList ↔
        s.precedence g < qosFilterPrecedenceInvalid ∧ (s.Linked g ∨ g ∈ filterList) := by
  have hdisjoint : (filterList ++ s.filterPrecedenceList).Nodup := by
    refine List.nodup_append.mpr ⟨hnodup, h.listed, fun f hf g hg => ?_⟩
    rintro rfl
    exact hnew f hf ((h.mem_iff f).mp hg).2
  obtain ⟨l, heq, hordered, hlnodup, hmem⟩ :=
    addQosFilterToPrecedenceList_spec s filterList h.ordered hdisjoint
  simp only [addQosFilter, heq, setFlow]
  refine ⟨trivial, fun x => ?_, fun f => trivial, hordered, hlnodup, fun g => ?_⟩
  · by_cases hx : x = fl
    · subst hx
      simp
    · simp [hx]
  · rw [hmem, h.mem_iff, and_comm (a := g ∈ filterList), ← and_or_left]

theorem precedence_addQosFilter (h : s.Filters) (filterList : List Nat) (hnodup : filterList.Nodup)
    (hnew : ∀ f ∈ filterList, ¬ s.Linked f) :
    (s.addQosFilter fl filterList).precedence = s.precedence := by
  obtain ⟨-, -, hfilter, -⟩ := addQosFilter_spec h fl filterList hnodup hnew
  funext f
  rw [precedence, hfilter]
  split_ifs <;> rfl

theorem Tables.addQosFilter (h : s.Tables) (hf : s.Filters) (filterList : List Nat)
    (hnodup : filterList.Nodup) (hnew : ∀ f ∈ filterList, ¬ s.Linked f) (fl : FlowPtr) :
    (s.addQosFilter fl filterList).Tables := by
  obtain ⟨hqueue, hflow, -⟩ := addQosFilter_spec hf fl filterList hnodup hnew
  refine h.congr hqueue (fun x => ?_) (fun x => ?_) fun x hx => ?_
  · rw [hflow]
  · rw [hflow]
  · rw [hflow]
    exact h.noData x hx

/-- A flow outside of the default table gets filters that no flow has. -/
theorem Filters.addQosFilter (h : s.Filters) (ht : s.Tables) (filterList : List Nat)
    (hnodup : filterList.Nodup) (hnew : ∀ f ∈ filterList, ¬ s.Linked f)
    (hfl : fl ∈ s.flowDataQueue q) (hq : q ≠ .default) : (s.addQosFilter fl filterList).Filters := by
  obtain ⟨hqueue, hflow, hfilter, hordered, hlisted, hmem⟩ :=
    addQosFilter_spec h fl filterList hnodup hnew
  have hmemlist : ∀ {x g}, g ∈ ((s.addQosFilter fl filterList).flow x).filterList ↔
      g ∈ (s.flow x).filterList ∨ x = fl ∧ g ∈ filterList := by
    intro x g
    rw [hflow]
    by_cases hx : x = fl <;> simp [hx]
  constructor
  · intro q' x g hx hg
    rw [hqueue] at hx
    rw [hfilter]
    rcases hmemlist.mp hg with hold | ⟨rfl, hnewg⟩
    · rw [if_neg fun hmem => hnew g hmem ⟨q', x, hx, hold⟩]
      exact h.owner hx hold
    · rw [if_pos hnewg]
  · intro q' x hx
    rw [hqueue] at hx
    rw [hflow]
    refine List.nodup_append.mpr ⟨h.nodup hx, ?_, fun f hf g hg => ?_⟩
    · split_ifs
      · exact hnodup
      · exact List.nodup_nil
    · rintro rfl
      split_ifs at hg
      · exact hnew f hg ⟨q', x, hx, hf⟩
      · simp at hg
  · intro x hx
    rw [hqueue] at hx
    rw [hflow, h.default x hx]
    have hne : x ≠ fl := by
      rintro rfl
      exact hq (ht.unique hfl hx)
    simp [hne]
  · rwa [precedence_addQosFilter h filterList hnodup hnew]
  · exact hlisted
  · intro g
    rw [hmem, precedence_addQosFilter h filterList hnodup hnew]
    refine and_congr_right fun _ => ?_
    simp only [Linked, hqueue, hmemlist]
    constructor
    · rintro (⟨q', x, hx, hg⟩ | hg)
      · exact ⟨q', x, hx, .inl hg⟩
      · exact ⟨q, fl, hfl, .inr ⟨rfl, hg⟩⟩
    · rintro ⟨q', x, hx, hg | ⟨-, hg⟩⟩
      · exact .inl ⟨q', x, hx, hg⟩
      · exact .inr hg

/-! ## Packets -/

theorem Tables.setPackets (h : s.Tables) (fl : FlowPtr) (ps : List P)
    (hdata : fl ∈ s.flowDataQueue .sendWithoutData → ps = []) :
    (s.setFlow fl { s.flow fl with packets := ps }).Tables := by
  refine h.congr rfl (fun x => ?_) (fun x => ?_) fun x hx => ?_
  · rw [setFlow_flow]
    split_ifs with heq <;> simp [heq]
  · rw [setFlow_flow]
    split_ifs with heq <;> simp [heq]
  · rw [setFlow_flow]
    split_ifs with heq
    · exact hdata (heq ▸ hx)
    · exact h.noData x hx

theorem Filters.setPackets (h : s.Filters) (fl : FlowPtr) (ps : List P) :
    (s.setFlow fl { s.flow fl with packets := ps }).Filters := by
  refine h.congr (fun _ _ => Iff.rfl) (fun x => ?_) (fun _ _ => rfl) (fun _ _ => rfl) rfl
  rw [setFlow_flow]
  split_ifs with heq <;> simp [heq]

theorem Tables.insertPacket (h : s.Tables) (p : P) (hdata : fl ∉ s.flowDataQueue .sendWithoutData) :
    (s.insertPacket fl p).Tables :=
  (h.setPackets fl _ fun hfl => absurd hfl hdata).congr rfl (fun _ => rfl) (fun _ => rfl)
    (h.setPackets fl _ fun hfl => absurd hfl hdata).noData

theorem Filters.insertPacket (h : s.Filters) (fl : FlowPtr) (p : P) : (s.insertPacket fl p).Filters :=
  (h.setPackets fl _).congr (fun _ _ => Iff.rfl) (fun _ => rfl) (fun _ _ => rfl) (fun _ _ => rfl) rfl

theorem insertPacket_move (s : State P) (fl : FlowPtr) (p : P) (q : QosFlowQueueType) :
    (s.insertPacket fl p).move fl q = (s.move fl q).insertPacket fl p := by
  simp [State.insertPacket, State.move, insertTailList, removeEntryList, setFlowState, setFlow, record]

/-- A filter only keeps other fragments after a packet. -/
theorem doesPktMatchThisFilterEx_eq {f f' : QmiFilter} {mem : Nat → UInt8} {size : Nat}
    {allocated b : Bool} (h : f.doesPktMatchThisFilterEx mem size allocated = some (b, f')) :
    ∃ infos, f' = { f with packetInfoList := infos } := by
  have htake : ∀ fragment info fits, ∃ infos,
      (f.takeFragment fragment info fits allocated).2 = { f with packetInfoList := infos } := by
    intro fragment info fits
    cases fragment with
    | whole => exact ⟨f.packetInfoList, rfl⟩
    | first =>
      simp only [QmiFilter.takeFragment, QmiFilter.cachePacketInfo]
      split_ifs
      · exact ⟨_, rfl⟩
      · exact ⟨f.packetInfoList, rfl⟩
      · exact ⟨f.packetInfoList, rfl⟩
    | middle => exact ⟨f.packetInfoList, rfl⟩
    | last =>
      simp only [QmiFilter.takeFragment]
      split_ifs
      · exact ⟨_, rfl⟩
      · exact ⟨f.packetInfoList, rfl⟩
  rw [QmiFilter.doesPktMatchThisFilterEx] at h
  split_ifs at h
  · obtain ⟨-, rfl⟩ := Prod.mk.inj (Option.some.inj h)
    exact ⟨f.packetInfoList, rfl⟩
  · obtain ⟨hdr, -, heq⟩ := Option.map_eq_some_iff.mp h
    obtain ⟨infos, hinfos⟩ := htake (fragmentOf (hdr.mFlag = 1) hdr.fragmentOffset) hdr.pktInfo
      (decide (f.FitsV6 hdr ∧ f.ComparesV6 hdr))
    exact ⟨infos, (congrArg Prod.snd heq).symm.trans hinfos⟩
  · obtain ⟨infos, hinfos⟩ := htake (fragmentOf ((getIPHeaderV4 mem).flags &&& 0x01 ≠ 0)
      (getIPHeaderV4 mem).fragmentOffset) (getIPHeaderV4 mem).pktInfo
      (decide (f.FitsV4 (getIPHeaderV4 mem)))
    exact ⟨infos, (congrArg Prod.snd (Option.some.inj h)).symm.trans hinfos⟩

/-- The filter takes the packet. -/
def Takes (s : State P) (mem : Nat → UInt8) (size : Nat) (allocated : Bool) (f : Nat) : Prop :=
  ∃ filter, (s.filter f).filter.doesPktMatchThisFilterEx mem size allocated = some (true, filter)

/-- The search stops at the first filter that takes the packet. -/
theorem firstMatch_some {mem : Nat → UInt8} {size : Nat} {allocated : Bool}
    {l : List (FlowPtr × Nat)} {filter : QmiFilter}
    (h : s.firstMatch mem size allocated l = some (some (fl, f, filter))) :
    ∃ front back, l = front ++ (fl, f) :: back ∧
      (s.filter f).filter.doesPktMatchThisFilterEx mem size allocated = some (true, filter) ∧
      ∀ c ∈ front, ¬ s.Takes mem size allocated c.2 := by
  induction l with
  | nil => simp [firstMatch] at h
  | cons c l ih =>
    obtain ⟨fl', f'⟩ := c
    cases hm : (s.filter f').filter.doesPktMatchThisFilterEx mem size allocated with
    | none => simp [firstMatch, hm] at h
    | some r =>
      obtain ⟨b, g⟩ := r
      cases b with
      | true =>
        simp only [firstMatch, hm, Option.some.injEq, Prod.mk.injEq] at h
        obtain ⟨rfl, rfl, rfl⟩ := h
        exact ⟨[], l, rfl, hm, by simp⟩
      | false =>
        simp only [firstMatch, hm] at h
        obtain ⟨front, back, rfl, hmatch, hfront⟩ := ih h
        refine ⟨(fl', f') :: front, back, rfl, hmatch, List.forall_mem_cons.mpr ⟨?_, hfront⟩⟩
        rintro ⟨filter', htakes⟩
        simp [hm] at htakes

theorem firstMatch_none {mem : Nat → UInt8} {size : Nat} {allocated : Bool}
    {l : List (FlowPtr × Nat)} (h : s.firstMatch mem size allocated l = some none) :
    ∀ c ∈ l, ¬ s.Takes mem size allocated c.2 := by
  induction l with
  | nil => simp
  | cons c l ih =>
    obtain ⟨fl', f'⟩ := c
    cases hm : (s.filter f').filter.doesPktMatchThisFilterEx mem size allocated with
    | none => simp [firstMatch, hm] at h
    | some r =>
      obtain ⟨b, g⟩ := r
      cases b with
      | true => simp [firstMatch, hm] at h
      | false =>
        simp only [firstMatch, hm] at h
        refine List.forall_mem_cons.mpr ⟨?_, ih h⟩
        rintro ⟨filter', htakes⟩
        simp [hm] at htakes

/-- A filter that `MPQOS_Enqueue` looks at is one of a flow outside of the default table. -/
theorem Filters.candidate (h : s.Filters) (hc : (fl, f) ∈ s.orderedFilters ∨ (fl, f) ∈ s.unorderedFilters) :
    ∃ q, q ≠ .default ∧ fl ∈ s.flowDataQueue q ∧ f ∈ (s.flow fl).filterList := by
  rcases hc with hc | hc
  · obtain ⟨g, hg, heq⟩ := List.mem_map.mp hc
    obtain ⟨rfl, rfl⟩ := Prod.mk.inj heq
    obtain ⟨-, q, fl, hfl, hf⟩ := (h.mem_iff g).mp hg
    rw [h.owner hfl hf]
    refine ⟨q, ?_, hfl, hf⟩
    rintro rfl
    simp [h.default fl hfl] at hf
  · obtain ⟨x, hx, hc⟩ := List.mem_flatMap.mp hc
    obtain ⟨q, hq, hx⟩ := List.mem_flatMap.mp hx
    obtain ⟨g, hg, heq⟩ := List.mem_map.mp hc
    obtain ⟨rfl, rfl⟩ := Prod.mk.inj heq
    refine ⟨q, ?_, hx, (List.mem_filter.mp hg).1⟩
    rintro rfl
    simp at hq

theorem takenBy_eq {p : P} {filter : QmiFilter} {withoutData : Bool}
    (h : withoutData = true ↔ q = .sendWithoutData) :
    s.takenBy fl f filter p withoutData =
      (if q = .sendWithoutData then (s.setFilter f filter).move fl .sendWithData
        else s.setFilter f filter).insertPacket fl p := by
  rw [takenBy]
  split_ifs with hd hq hq
  · exact insertPacket_move _ fl p _
  · exact absurd (h.mp hd) hq
  · exact absurd (h.mpr hq) hd
  · rfl

/-- Where a packet goes: to a flow outside of the default table, which then is not without data, or
to the default flow. No ordered filter of a less precedence takes the packet, and a filter without a
valid precedence takes it only if QoS is not disabled. -/
theorem enqueue_cases {c : Config} {p : P} {mem : Nat → UInt8} {size : Nat} {allocated : Bool}
    (ht : s.Tables) (h : s.Filters) (he : s.enqueue c p mem size allocated = some s') :
    (s' = s.insertPacket .defaultQosFlow p ∧
      (∀ g ∈ s.filterPrecedenceList, ¬ s.Takes mem size allocated g) ∧
      (c.mpDisableQoS = false → ∀ g ∈ s.unorderedFilters, ¬ s.Takes mem size allocated g.2)) ∨
      ∃ q fl f filter, q ≠ .default ∧ fl ∈ s.flowDataQueue q ∧ f ∈ (s.flow fl).filterList ∧
        (s.filter f).filter.doesPktMatchThisFilterEx mem size allocated = some (true, filter) ∧
        (∀ g ∈ s.filterPrecedenceList, s.Takes mem size allocated g → s.precedence f ≤ s.precedence g) ∧
        (s.precedence f < qosFilterPrecedenceInvalid ∨ c.mpDisableQoS = false) ∧
        s' = (if q = .sendWithoutData then (s.setFilter f filter).move fl .sendWithData
          else s.setFilter f filter).insertPacket fl p := by
  rw [State.enqueue] at he
  cases hord : s.firstMatch mem size allocated s.orderedFilters with
  | none => simp [hord] at he
  | some r =>
    rw [hord] at he
    rcases r with _ | ⟨fl, f, filter⟩
    · have hnone : ∀ g ∈ s.filterPrecedenceList, ¬ s.Takes mem size allocated g :=
        fun g hg => firstMatch_none hord _ (List.mem_map_of_mem hg)
      cases hrest : s.firstMatch mem size allocated
        (if c.mpDisableQoS then [] else s.unorderedFilters) with
      | none => simp [hrest] at he
      | some r =>
        rw [hrest] at he
        rcases r with _ | ⟨fl, f, filter⟩
        · refine .inl ⟨(Option.some.inj he).symm, hnone, fun henabled => ?_⟩
          simpa [henabled] using firstMatch_none hrest
        · obtain ⟨front, back, heq, hmatch, -⟩ := firstMatch_some hrest
          have hc : (fl, f) ∈ s.unorderedFilters ∧ c.mpDisableQoS = false := by
            split_ifs at heq with hdisabled
            · simp at heq
            · exact ⟨by simp [heq], by simpa using hdisabled⟩
          obtain ⟨q, hq, hfl, hf⟩ := h.candidate (.inr hc.1)
          refine .inr ⟨q, fl, f, filter, hq, hfl, hf, hmatch, fun g hg htakes => absurd htakes (hnone g hg),
            .inr hc.2, ?_⟩
          rw [← Option.some.inj he]
          apply takenBy_eq
          rw [decide_eq_true_eq]
          exact ⟨fun hwithout => ht.unique hfl hwithout, fun heq => heq ▸ hfl⟩
    · obtain ⟨front, back, heq, hmatch, hfront⟩ := firstMatch_some hord
      have hc : (fl, f) ∈ s.orderedFilters := by simp [heq]
      have hordered : StableOrder.Ordered (fun c => s.precedence c.2) s.orderedFilters :=
        List.pairwise_map.mpr h.ordered
      obtain ⟨q, hq, hfl, hf⟩ := h.candidate (.inl hc)
      have hlisted : f ∈ s.filterPrecedenceList := by
        obtain ⟨g, hg, hpair⟩ := List.mem_map.mp hc
        rwa [← (Prod.mk.inj hpair).2]
      refine .inr ⟨q, fl, f, filter, hq, hfl, hf, hmatch, fun g hg htakes => ?_,
        .inl ((h.mem_iff f).mp hlisted).1, ?_⟩
      · have hg' : ((s.filter g).flow, g) ∈ s.orderedFilters :=
          List.mem_map_of_mem (f := fun f => ((s.filter f).flow, f)) hg
        exact (heq ▸ hordered).le_of_split hfront (heq ▸ hg') htakes
      rw [← Option.some.inj he]
      apply takenBy_eq
      have hne : fl ≠ .defaultQosFlow := by
        rintro rfl
        exact hq (ht.unique hfl ht.default)
      rw [decide_eq_true_eq, ht.state hfl hne]

/-! ## Each step -/

/-- The invariant of all runs. -/
structure Inv (s : State P) : Prop where
  tables : s.Tables
  filters : s.Filters

/-- Changes that are not about the flows. -/
theorem Inv.congr (h : s.Inv) (hqueue : s'.flowDataQueue = s.flowDataQueue) (hflow : s'.flow = s.flow)
    (hfilter : s'.filter = s.filter) (hprecs : s'.filterPrecedenceList = s.filterPrecedenceList) :
    s'.Inv where
  tables := h.tables.congr hqueue (fun _ => by rw [hflow]) (fun _ => by rw [hflow])
    (hflow ▸ h.tables.noData)
  filters := h.filters.congr (fun _ _ => by rw [hqueue]) (fun _ => by rw [hflow])
    (fun _ _ => by rw [hfilter]) (fun _ _ => by rw [precedence, hfilter, precedence]) hprecs

theorem Inv.setFilter (h : s.Inv) (f : Nat) {filter : QmiFilter}
    (hprec : filter.precedence = (s.filter f).filter.precedence) : (s.setFilter f filter).Inv where
  tables := h.tables.congr rfl (fun _ => rfl) (fun _ => rfl) h.tables.noData
  filters := by
    refine h.filters.congr (fun _ _ => Iff.rfl) (fun _ => rfl) (fun g _ => ?_) (fun g _ => ?_) rfl
    · by_cases hg : g = f
      · subst hg
        simp [State.setFilter]
      · simp [State.setFilter, hg]
    · by_cases hg : g = f
      · subst hg
        simp [State.setFilter, precedence, hprec]
      · simp [State.setFilter, precedence, hg]

theorem Inv.move (h : s.Inv) (hfl : fl ∈ s.flowDataQueue q₀) (hback : q ≠ .default → q₀ ≠ .default)
    (hdata : q = .sendWithoutData → (s.flow fl).packets = [])
    (hlist : q = .default → (s.flow fl).filterList = []) : (s.move fl q).Inv where
  tables := by
    refine h.tables.move hfl (fun heq => ?_) hback hdata
    subst heq
    by_contra hq
    exact hback hq (h.tables.unique hfl h.tables.default)
  filters := h.filters.move h.tables hfl hlist

theorem Inv.insertPacket (h : s.Inv) (p : P) (hdata : fl ∉ s.flowDataQueue .sendWithoutData) :
    (s.insertPacket fl p).Inv :=
  ⟨h.tables.insertPacket p hdata, h.filters.insertPacket fl p⟩

theorem Inv.enqueue {c : Config} {p : P} {mem : Nat → UInt8} {size : Nat} {allocated : Bool}
    (h : s.Inv) (he : s.enqueue c p mem size allocated = some s') : s'.Inv := by
  rcases enqueue_cases h.tables h.filters he with
    ⟨rfl, -⟩ | ⟨q, fl, f, filter, hq, hfl, -, hmatch, -, -, rfl⟩
  · refine h.insertPacket p fun hdefault => ?_
    have heq := h.tables.unique hdefault h.tables.default
    simp at heq
  · obtain ⟨infos, rfl⟩ := doesPktMatchThisFilterEx_eq hmatch
    have hset : (s.setFilter f { (s.filter f).filter with packetInfoList := infos }).Inv :=
      h.setFilter f rfl
    split_ifs with hwithout
    · refine (hset.move hfl (fun _ => hq) (by simp) (by simp)).insertPacket p ?_
      rw [mem_move hset.tables.nodup, if_pos rfl]
      simp
    · exact hset.insertPacket p fun hdata => hwithout (h.tables.unique hfl hdata)

theorem Inv.purgeFilterList (h : s.Inv) (hfl : fl ∈ s.flowDataQueue q) : (s.purgeFilterList fl).Inv :=
  ⟨h.tables.purgeFilterList fl, h.filters.purgeFilterList hfl⟩

theorem findQosFlow_some {queues : List QosFlowQueueType} {flowId : UInt32}
    (h : s.findQosFlow queues flowId = some fl) :
    (∃ q ∈ queues, fl ∈ s.flowDataQueue q) ∧ (s.flow fl).flowId = flowId :=
  ⟨by simpa using List.mem_of_find?_eq_some h, by simpa using List.find?_some h⟩

theorem findQosFlow_none {queues : List QosFlowQueueType} {flowId : UInt32}
    (h : s.findQosFlow queues flowId = none) :
    ∀ q ∈ queues, ∀ fl ∈ s.flowDataQueue q, (s.flow fl).flowId ≠ flowId := by
  intro q hq fl hfl
  simpa using List.find?_eq_none.mp h fl (List.mem_flatMap.mpr ⟨q, hq, hfl⟩)

theorem allocFilters_filter (s : State P) {addresses : List Nat} (filters : List QmiFilter)
    (hf : f ∉ addresses) : (s.allocFilters addresses filters).filter f = s.filter f := by
  have hfold : ∀ (l : List (Nat × QmiFilter)) (memory : Nat → FilterEntry), (∀ a ∈ l, a.1 ≠ f) →
      l.foldl (fun memory a => Function.update memory a.1 ⟨a.2, .defaultQosFlow⟩) memory f =
        memory f := by
    intro l
    induction l with
    | nil => exact fun _ _ => rfl
    | cons a l ih =>
      intro memory hne
      obtain ⟨ha, hl⟩ := List.forall_mem_cons.mp hne
      rw [List.foldl_cons, ih _ hl, Function.update_of_ne ha.symm]
  refine hfold _ _ fun a ha => ?_
  rintro rfl
  exact hf (List.of_mem_zip ha).1

theorem Inv.allocFilters (h : s.Inv) {addresses : List Nat} (filters : List QmiFilter)
    (hnew : ∀ f ∈ addresses, ¬ s.Linked f) : (s.allocFilters addresses filters).Inv := by
  have hsame : ∀ f, s.Linked f → (s.allocFilters addresses filters).filter f = s.filter f :=
    fun f hf => allocFilters_filter s filters fun hmem => hnew f hmem hf
  exact ⟨h.tables.congr rfl (fun _ => rfl) (fun _ => rfl) h.tables.noData,
    h.filters.congr (fun _ _ => Iff.rfl) (fun _ => rfl) (fun f hf => by rw [hsame f hf])
      (fun f hf => by rw [precedence, hsame f hf, precedence]) rfl⟩

theorem mem_addFlow {flowId : UInt32} : x ∈ (s.addFlow fl flowId).flowDataQueue q ↔
    x ∈ s.flowDataQueue q ∨ q = .sendWithoutData ∧ x = fl := by
  by_cases hq : q = .sendWithoutData
  · subst hq
    simp [addFlow, insertTailList, setFlow]
  · simp [addFlow, insertTailList, setFlow, hq]

theorem addFlow_flow (s : State P) (fl x : FlowPtr) (flowId : UInt32) :
    (s.addFlow fl flowId).flow x = if x = fl then
      { flowId := flowId, filterList := [], packets := [], flowState := .sendWithoutData }
    else s.flow x :=
  setFlow_flow s fl x _

theorem linked_addFlow {flowId : UInt32} (hnew : ∀ q, fl ∉ s.flowDataQueue q) :
    (s.addFlow fl flowId).Linked f ↔ s.Linked f := by
  simp only [Linked, mem_addFlow, addFlow_flow]
  constructor
  · rintro ⟨q, x, hx, hf⟩
    split_ifs at hf with heq
    · simp at hf
    · exact ⟨q, x, hx.resolve_right fun h => heq h.2, hf⟩
  · rintro ⟨q, x, hx, hf⟩
    have hne : x ≠ fl := by
      rintro rfl
      exact hnew q hx
    exact ⟨q, x, .inl hx, by rwa [if_neg hne]⟩

/-- A new flow has an id that no flow outside of the default table has. -/
theorem Inv.addFlow (h : s.Inv) {flowId : UInt32} (hnew : ∀ q, fl ∉ s.flowDataQueue q)
    (hid : ∀ q, q ≠ .default → ∀ x ∈ s.flowDataQueue q, (s.flow x).flowId ≠ flowId) :
    (s.addFlow fl flowId).Inv := by
  have hold : ∀ {q x}, x ∈ s.flowDataQueue q → x ≠ fl := by
    rintro q x hx rfl
    exact hnew q hx
  have hflow : ∀ {q x}, x ∈ s.flowDataQueue q → (s.addFlow fl flowId).flow x = s.flow x :=
    fun {q x} hx => by rw [addFlow_flow, if_neg (hold hx)]
  have hself : (s.addFlow fl flowId).flow fl =
      { flowId := flowId, filterList := [], packets := [], flowState := .sendWithoutData } := by
    rw [addFlow_flow, if_pos rfl]
  constructor
  · constructor
    · intro q
      by_cases hq : q = .sendWithoutData
      · subst hq
        have hqueue : (s.addFlow fl flowId).flowDataQueue .sendWithoutData =
            s.flowDataQueue .sendWithoutData ++ [fl] := by
          simp [State.addFlow, insertTailList, setFlow]
        rw [hqueue]
        refine List.nodup_append.mpr ⟨h.tables.nodup _, List.nodup_singleton fl, fun x hx y hy => ?_⟩
        rw [List.mem_singleton.mp hy]
        exact hold hx
      · have hqueue : (s.addFlow fl flowId).flowDataQueue q = s.flowDataQueue q :=
          Function.update_of_ne hq _ _
        rw [hqueue]
        exact h.tables.nodup q
    · intro q q' x hx hx'
      rcases mem_addFlow.mp hx with hx | ⟨hq, heq⟩ <;>
        rcases mem_addFlow.mp hx' with hx' | ⟨hq', heq'⟩
      · exact h.tables.unique hx hx'
      · exact absurd heq' (hold hx)
      · exact absurd heq (hold hx')
      · exact hq.trans hq'.symm
    · intro q x hx hne
      rcases mem_addFlow.mp hx with hx | ⟨rfl, rfl⟩
      · rw [hflow hx]
        exact h.tables.state hx hne
      · rw [hself]
    · exact mem_addFlow.mpr (.inl h.tables.default)
    · intro x hx
      rcases mem_addFlow.mp hx with hx | ⟨-, rfl⟩
      · rw [hflow hx]
        exact h.tables.noData x hx
      · rw [hself]
    · intro q q' x y hq hq' hx hy heq
      rcases mem_addFlow.mp hx with hx | ⟨-, hxfl⟩ <;>
        rcases mem_addFlow.mp hy with hy | ⟨-, hyfl⟩
      · rw [hflow hx, hflow hy] at heq
        exact h.tables.ids hq hq' hx hy heq
      · rw [hflow hx, hyfl, hself] at heq
        exact absurd heq (hid q hq x hx)
      · rw [hflow hy, hxfl, hself] at heq
        exact absurd heq.symm (hid q' hq' y hy)
      · exact hxfl.trans hyfl.symm
  · constructor
    · intro q x f hx hf
      rcases mem_addFlow.mp hx with hx | ⟨-, rfl⟩
      · rw [hflow hx] at hf
        exact h.filters.owner hx hf
      · simp [hself] at hf
    · intro q x hx
      rcases mem_addFlow.mp hx with hx | ⟨-, rfl⟩
      · rw [hflow hx]
        exact h.filters.nodup hx
      · rw [hself]
        exact List.nodup_nil
    · intro x hx
      rcases mem_addFlow.mp hx with hx | ⟨hq, -⟩
      · rw [hflow hx]
        exact h.filters.default x hx
      · simp at hq
    · exact h.filters.ordered
    · exact h.filters.listed
    · exact fun g => (h.filters.mem_iff g).trans (and_congr_right fun _ => (linked_addFlow hnew).symm)

theorem Inv.addQosFilter (h : s.Inv) {filterList : List Nat} (hnodup : filterList.Nodup)
    (hnew : ∀ f ∈ filterList, ¬ s.Linked f) (hfl : fl ∈ s.flowDataQueue q) (hq : q ≠ .default) :
    (s.addQosFilter fl filterList).Inv :=
  ⟨h.tables.addQosFilter h.filters filterList hnodup hnew fl,
    h.filters.addQosFilter h.tables filterList hnodup hnew hfl hq⟩

/-- The tables of the flows that a report is about. -/
theorem ne_default_of_mem (h : q ∈ [QosFlowQueueType.sendWithData, .sendWithoutData, .queued]) :
    q ≠ .default := by
  rintro rfl
  simp at h

theorem mem_of_ne_default (h : q ≠ .default) :
    q ∈ [QosFlowQueueType.sendWithData, .sendWithoutData, .queued] := by
  cases q <;> simp_all

theorem Inv.activateFlow (h : s.Inv) {flowId : UInt32} {address : Nat} {addresses : List Nat}
    (hnodup : addresses.Nodup) (hnew : ∀ f ∈ addresses, ¬ s.Linked f)
    (haddress : ∀ q, .entry address ∉ s.flowDataQueue q) :
    (s.activateFlow flowId address addresses).Inv := by
  rw [State.activateFlow]
  cases hfind : s.findQosFlow [.sendWithData, .sendWithoutData, .queued] flowId with
  | some fl => exact h
  | none =>
    have hid := findQosFlow_none hfind
    have hadd := h.addFlow haddress fun q hq x hx => hid q (mem_of_ne_default hq) x hx
    exact hadd.addQosFilter hnodup (fun f hf => fun hl => hnew f hf ((linked_addFlow haddress).mp hl))
      (mem_addFlow.mpr (.inr ⟨rfl, rfl⟩)) (by simp)

theorem Inv.modifyFlow (h : s.Inv) {flowId : UInt32} {addresses : List Nat}
    (hnodup : addresses.Nodup) (hnew : ∀ f ∈ addresses, ¬ s.Linked f) :
    (s.modifyFlow flowId addresses).Inv := by
  rw [State.modifyFlow]
  cases hfind : s.findQosFlow [.sendWithData, .sendWithoutData, .queued] flowId with
  | none => exact h
  | some fl =>
    obtain ⟨⟨q, hq, hfl⟩, -⟩ := findQosFlow_some hfind
    refine (h.purgeFilterList hfl).addQosFilter hnodup (fun f hf hl => hnew f hf ?_) hfl
      (ne_default_of_mem hq)
    exact ((linked_purgeFilterList h.filters hfl).mp hl).1

theorem Inv.deleteFlow (h : s.Inv) (flowId : UInt32) : (s.deleteFlow flowId).Inv := by
  rw [State.deleteFlow]
  cases hfind : s.findQosFlow [.sendWithData, .sendWithoutData, .queued] flowId with
  | none => exact h
  | some fl =>
    obtain ⟨⟨q, -, hfl⟩, -⟩ := findQosFlow_some hfind
    have hmoved := (h.purgeFilterList hfl).move (q := .default) hfl (by simp) (by simp)
      fun _ => by simp [purgeFilterList_flow]
    dsimp only
    split_ifs
    · exact hmoved
    · exact hmoved.congr rfl rfl rfl rfl

theorem Inv.enableFlow (h : s.Inv) (flowId : UInt32) : (s.enableFlow flowId).Inv := by
  rw [State.enableFlow]
  split_ifs
  · exact h.congr rfl rfl rfl rfl
  · cases hfind : s.findQosFlow [.queued] flowId with
    | none => exact h
    | some fl =>
      obtain ⟨⟨q, hq, hfl⟩, -⟩ := findQosFlow_some hfind
      obtain rfl := List.mem_singleton.mp hq
      dsimp only
      split_ifs with hempty
      · exact h.move hfl (by simp) (fun _ => hempty) (by simp)
      · exact (h.move (q := .sendWithData) hfl (by simp) (by simp) (by simp)).congr rfl rfl rfl rfl

theorem Inv.disableFlow (h : s.Inv) (flowId : UInt32) : (s.disableFlow flowId).Inv := by
  rw [State.disableFlow]
  split_ifs
  · exact h.congr rfl rfl rfl rfl
  · cases hfind : s.findQosFlow [.sendWithData, .sendWithoutData] flowId with
    | none => exact h
    | some fl =>
      obtain ⟨⟨q, hq, hfl⟩, -⟩ := findQosFlow_some hfind
      refine h.move hfl (fun _ => ?_) (by simp) (by simp)
      rintro rfl
      simp at hq

/-- What a report does, behind the filters that are allocated. -/
theorem processQosFlowReport_cases (h : s.Inv) {r : FlowReport} {address : Nat} {addresses : List Nat}
    (hr : s.processQosFlowReport r address addresses = some s') :
    ∃ a, a = s.allocFilters addresses r.filters ∧ a.Inv ∧ addresses.Nodup ∧
      (∀ f ∈ addresses, ¬ a.Linked f) ∧ (∀ q, .entry address ∉ a.flowDataQueue q) ∧
      (s' = a.activateFlow r.flowId address addresses ∨ s' = a.modifyFlow r.flowId addresses ∨
        s' = a.deleteFlow r.flowId ∨ s' = a.enableFlow r.flowId ∨ s' = a.disableFlow r.flowId ∨
        s' = a) := by
  rw [State.processQosFlowReport] at hr
  split_ifs at hr with hfresh
  obtain ⟨haddress, -, hnodup, hnew⟩ := hfresh
  simp only [holds_iff] at hnew
  refine ⟨_, rfl, h.allocFilters r.filters hnew, hnodup, hnew,
    fun q hq => haddress (List.mem_flatMap.mpr ⟨q, mem_tables q, hq⟩), ?_⟩
  cases haction : r.action with
  | activated =>
    rw [haction] at hr
    exact .inl (Option.some.inj hr).symm
  | modified =>
    rw [haction] at hr
    exact .inr (.inl (Option.some.inj hr).symm)
  | deleted =>
    rw [haction] at hr
    exact .inr (.inr (.inl (Option.some.inj hr).symm))
  | enabled =>
    rw [haction] at hr
    exact .inr (.inr (.inr (.inl (Option.some.inj hr).symm)))
  | disabled =>
    rw [haction] at hr
    exact .inr (.inr (.inr (.inr (.inl (Option.some.inj hr).symm))))
  | unknown =>
    rw [haction] at hr
    exact .inr (.inr (.inr (.inr (.inr (Option.some.inj hr).symm))))

theorem Inv.processQosFlowReport (h : s.Inv) {r : FlowReport} {address : Nat} {addresses : List Nat}
    (hr : s.processQosFlowReport r address addresses = some s') : s'.Inv := by
  obtain ⟨a, -, ha, hnodup, hnew, haddress, hcases⟩ := processQosFlowReport_cases h hr
  rcases hcases with rfl | rfl | rfl | rfl | rfl | rfl
  · exact ha.activateFlow hnodup hnew haddress
  · exact ha.modifyFlow hnodup hnew
  · exact ha.deleteFlow r.flowId
  · exact ha.enableFlow r.flowId
  · exact ha.disableFlow r.flowId
  · exact ha

theorem Inv.setPackets (h : s.Inv) (fl : FlowPtr) (ps : List P)
    (hdata : fl ∈ s.flowDataQueue .sendWithoutData → ps = []) :
    (s.setFlow fl { s.flow fl with packets := ps }).Inv :=
  ⟨h.tables.setPackets fl ps hdata, h.filters.setPackets fl ps⟩

theorem Inv.categorizePacket {c : Config} {flagged : Bool} {data : Option (Nat → UInt8)} {size : Nat}
    {allocated : Bool} (h : s.Inv) (hc : s.categorizePacket c flagged data size allocated = some s') :
    s'.Inv := by
  rw [State.categorizePacket] at hc
  cases hpending : s.txPendingList with
  | nil => simp [hpending] at hc
  | cons p rest =>
    rw [hpending] at hc
    have hrest : { s with txPendingList := rest }.Inv := h.congr rfl rfl rfl rfl
    cases flagged with
    | true => exact Option.some.inj hc ▸ hrest.congr rfl rfl rfl rfl
    | false =>
      cases data with
      | none => exact Option.some.inj hc ▸ hrest.congr rfl rfl rfl rfl
      | some mem =>
        obtain ⟨t, ht, rfl⟩ := Option.map_eq_some_iff.mp hc
        exact (hrest.enqueue ht).congr rfl rfl rfl rfl

theorem Inv.dequeuePacket (h : s.Inv) (fl : FlowPtr) (answers : Answers) :
    (s.dequeuePacket fl answers).Inv := by
  rw [State.dequeuePacket]
  cases hps : (s.flow fl).packets with
  | nil => exact h
  | cons p rest =>
    have hset := h.setPackets fl rest fun hfl => by simp [h.tables.noData fl hfl] at hps
    dsimp only
    split_ifs
    all_goals exact hset.congr rfl rfl rfl rfl

/-- The flows of the default table have no filters to purge. -/
theorem foldl_purgeFilterList (h : s.Filters) {l : List FlowPtr}
    (hl : ∀ fl ∈ l, fl ∈ s.flowDataQueue .default) : l.foldl State.purgeFilterList s = s := by
  induction l with
  | nil => rfl
  | cons fl l ih =>
    obtain ⟨hfl, hl⟩ := List.forall_mem_cons.mp hl
    rw [List.foldl_cons, purgeFilterList_of_nil (h.default fl hfl), ih hl]

/-- The default table without the deleted flows that are empty. -/
def cleanDefaultQueue (s : State P) : State P :=
  { s with
    flowDataQueue := Function.update s.flowDataQueue .default
      ((s.flowDataQueue .default).filter s.stays) }

theorem checkDefaultQueue_eq (h : s.Filters) : s.checkDefaultQueue =
    if s.PacketsPresent then
      if (s.cleanDefaultQueue.flowDataQueue .default).any fun fl => (s.flow fl).packets.isEmpty then
        { s.cleanDefaultQueue with qosDispThreadTxEvent := true }.move .defaultQosFlow .default
      else { s.cleanDefaultQueue with qosDispThreadTxEvent := true }
    else s.cleanDefaultQueue := by
  rw [checkDefaultQueue, foldl_purgeFilterList h fun fl hfl => (List.mem_filter.mp hfl).1]
  rfl

theorem mem_cleanDefaultQueue : x ∈ s.cleanDefaultQueue.flowDataQueue q ↔
    x ∈ s.flowDataQueue q ∧ (q = .default → s.stays x) := by
  by_cases hq : q = .default
  · subst hq
    simp [cleanDefaultQueue]
  · simp [cleanDefaultQueue, hq]

theorem stays_defaultQosFlow (s : State P) : s.stays .defaultQosFlow := by simp [stays]

theorem Inv.cleanDefaultQueue (h : s.Inv) : s.cleanDefaultQueue.Inv := by
  have hsub : ∀ {q x}, x ∈ s.cleanDefaultQueue.flowDataQueue q → x ∈ s.flowDataQueue q :=
    fun hx => (mem_cleanDefaultQueue.mp hx).1
  have hlinked : ∀ f, s.cleanDefaultQueue.Linked f ↔ s.Linked f := by
    intro f
    constructor
    · rintro ⟨q, x, hx, hf⟩
      exact ⟨q, x, hsub hx, hf⟩
    · rintro ⟨q, x, hx, hf⟩
      refine ⟨q, x, mem_cleanDefaultQueue.mpr ⟨hx, ?_⟩, hf⟩
      rintro rfl
      simp [h.filters.default x hx] at hf
  constructor
  · constructor
    · intro q
      by_cases hq : q = .default
      · subst hq
        have hqueue : s.cleanDefaultQueue.flowDataQueue .default =
            (s.flowDataQueue .default).filter s.stays := by
          simp [State.cleanDefaultQueue]
        rw [hqueue]
        exact (h.tables.nodup _).filter _
      · have hqueue : s.cleanDefaultQueue.flowDataQueue q = s.flowDataQueue q :=
          Function.update_of_ne hq _ _
        rw [hqueue]
        exact h.tables.nodup q
    · exact fun hx hx' => h.tables.unique (hsub hx) (hsub hx')
    · exact fun hx => h.tables.state (hsub hx)
    · exact mem_cleanDefaultQueue.mpr ⟨h.tables.default, fun _ => stays_defaultQosFlow s⟩
    · exact fun x hx => h.tables.noData x (hsub hx)
    · exact fun hq hq' hx hy => h.tables.ids hq hq' (hsub hx) (hsub hy)
  · constructor
    · exact fun hx => h.filters.owner (hsub hx)
    · exact fun hx => h.filters.nodup (hsub hx)
    · exact fun x hx => h.filters.default x (hsub hx)
    · exact h.filters.ordered
    · exact h.filters.listed
    · exact fun f => (h.filters.mem_iff f).trans (and_congr_right fun _ => (hlinked f).symm)

theorem Inv.checkDefaultQueue (h : s.Inv) : s.checkDefaultQueue.Inv := by
  rw [checkDefaultQueue_eq h.filters]
  have hclean := h.cleanDefaultQueue
  have hset : { s.cleanDefaultQueue with qosDispThreadTxEvent := true }.Inv :=
    hclean.congr rfl rfl rfl rfl
  have hmem : .defaultQosFlow ∈
      { s.cleanDefaultQueue with qosDispThreadTxEvent := true }.flowDataQueue .default :=
    hclean.tables.default
  split_ifs
  · exact hset.move hmem (by simp) (by simp) fun _ => hclean.filters.default _ hmem
  · exact hset
  · exact hclean

/-- The first flow with data goes to the end of its table. -/
theorem rotate_eq_move {rest : List FlowPtr} (h : s.Tables)
    (hqueue : s.flowDataQueue .sendWithData = fl :: rest) :
    (s.removeEntryList fl).insertTailList .sendWithData fl = s.move fl .sendWithData := by
  have hne : fl ≠ .defaultQosFlow := by
    rintro rfl
    have heq := h.unique (hqueue ▸ List.mem_cons_self) h.default
    simp at heq
  have hstate : (s.flow fl).flowState = .sendWithData := h.state (hqueue ▸ List.mem_cons_self) hne
  have hsame : s.setFlowState fl .sendWithData = s := by
    rw [setFlowState, setFlow, ← hstate]
    exact congrArg (fun flow => { s with flow := flow }) (Function.update_eq_self fl s.flow)
  rw [State.move, hsame]

theorem Inv.flowTurn (h : s.Inv) (c : Config) (answers : Answers) : (s.flowTurn c answers).Inv := by
  rw [State.flowTurn]
  cases hqueue : s.flowDataQueue .sendWithData with
  | nil => exact h.congr rfl rfl rfl rfl
  | cons fl rest =>
    have hfl : fl ∈ s.flowDataQueue .sendWithData := hqueue ▸ List.mem_cons_self
    have hsend : (((s.removeEntryList fl).insertTailList .sendWithData fl).dequeuePacket fl answers).Inv := by
      rw [rotate_eq_move h.tables hqueue]
      exact (h.move hfl (by simp) (by simp) (by simp)).dequeuePacket fl answers
    dsimp only
    split_ifs with hempty
    · exact h.move hfl (by simp) (fun _ => List.isEmpty_iff.mp hempty) (by simp)
    · cases c.tlp with
      | false => exact hsend
      | true =>
        cases answers.aggregation with
        | more => exact hsend
        | send => exact h
        | none => exact h.congr rfl rfl rfl rfl

theorem Inv.defaultTurn (h : s.Inv) (c : Config) (answers : Answers) :
    (s.defaultTurn c answers).Inv := by
  rw [State.defaultTurn]
  cases hqueue : s.flowDataQueue .default with
  | nil => exact h.congr rfl rfl rfl rfl
  | cons fl rest =>
    cases s.defaultFlowEnabled with
    | false => exact h.congr rfl rfl rfl rfl
    | true =>
      have hsend : { s.dequeuePacket fl answers with phase := .recheck }.Inv :=
        (h.dequeuePacket fl answers).congr rfl rfl rfl rfl
      dsimp only
      split_ifs
      · exact h.checkDefaultQueue.congr rfl rfl rfl rfl
      · cases c.tlp with
        | false => exact hsend
        | true =>
          cases answers.aggregation with
          | more => exact hsend
          | send => exact h.congr rfl rfl rfl rfl
          | none => exact h.congr rfl rfl rfl rfl

theorem Inv.dispatchTurn (h : s.Inv) {c : Config} {answers : Answers}
    (hd : s.dispatchTurn c answers = some s') : s'.Inv := by
  rw [State.dispatchTurn] at hd
  cases hphase : s.phase with
  | wait =>
    simp only [hphase] at hd
    split_ifs at hd
    exact Option.some.inj hd ▸ h.congr rfl rfl rfl rfl
  | flows =>
    simp only [hphase] at hd
    exact Option.some.inj hd ▸ h.flowTurn c answers
  | default =>
    simp only [hphase] at hd
    exact Option.some.inj hd ▸ h.defaultTurn c answers
  | recheck =>
    simp only [hphase] at hd
    exact Option.some.inj hd ▸ h.checkDefaultQueue.congr rfl rfl rfl rfl

/-! ## The end -/

theorem purgeFlow_flow (s : State P) (fl x : FlowPtr) : (s.purgeFlow fl).flow x =
    if x = fl then { s.flow fl with filterList := [], packets := [] } else s.flow x :=
  setFlow_flow _ fl x _

/-- Of the precedence list, there remain the filters that none of the purged flows has. -/
theorem foldl_purgeFlow_filters (s : State P) (l : List FlowPtr) {f : Nat}
    (hf : f ∈ (l.foldl purgeFlow s).filterPrecedenceList) :
    f ∈ s.filterPrecedenceList ∧ ∀ fl ∈ l, f ∉ (s.flow fl).filterList := by
  induction l generalizing s with
  | nil => exact ⟨hf, by simp⟩
  | cons fl l ih =>
    obtain ⟨hmem, hrest⟩ := ih (s.purgeFlow fl) hf
    obtain ⟨hmem, hfl⟩ := List.mem_filter.mp hmem
    have hfl : f ∉ (s.flow fl).filterList := by simpa using hfl
    refine ⟨hmem, List.forall_mem_cons.mpr ⟨hfl, fun x hx => ?_⟩⟩
    have hnot := hrest x hx
    rw [purgeFlow_flow] at hnot
    split_ifs at hnot with heq
    · exact heq ▸ hfl
    · exact hnot

theorem foldl_purgeFlow_flow (s : State P) (l : List FlowPtr) (x : FlowPtr) :
    (l.foldl purgeFlow s).flow x =
      if x ∈ l then { s.flow x with filterList := [], packets := [] } else s.flow x := by
  induction l generalizing s with
  | nil => rfl
  | cons fl l ih =>
    rw [List.foldl_cons, ih, purgeFlow_flow]
    by_cases hx : x = fl
    · subst hx
      simp
    · simp [hx]

theorem Inv.purgeQueues (h : s.Inv) : s.purgeQueues.Inv := by
  have hmem : ∀ {q x}, x ∈ s.purgeQueues.flowDataQueue q ↔ q = .default ∧ x = .defaultQosFlow := by
    intro q x
    cases q <;> simp [State.purgeQueues]
  have hdefault : .defaultQosFlow ∈ State.tables.flatMap s.flowDataQueue :=
    List.mem_flatMap.mpr ⟨.default, mem_tables _, h.tables.default⟩
  have hlist : (s.purgeQueues.flow .defaultQosFlow).filterList = [] := by
    simp [State.purgeQueues, setFlowState, setFlow, foldl_purgeFlow_flow, hdefault]
  have hnil : s.purgeQueues.filterPrecedenceList = [] := by
    refine List.eq_nil_iff_forall_not_mem.mpr fun f hf => ?_
    obtain ⟨hf, hnot⟩ := foldl_purgeFlow_filters s (State.tables.flatMap s.flowDataQueue) hf
    obtain ⟨q, fl, hfl, hlist⟩ := ((h.filters.mem_iff f).mp hf).2
    exact hnot fl (List.mem_flatMap.mpr ⟨q, mem_tables q, hfl⟩) hlist
  have hunlinked : ∀ f, ¬ s.purgeQueues.Linked f := by
    rintro f ⟨q, x, hx, hf⟩
    obtain ⟨-, rfl⟩ := hmem.mp hx
    simp [hlist] at hf
  constructor
  · constructor
    · intro q
      cases q <;> simp [State.purgeQueues]
    · exact fun hx hx' => (hmem.mp hx).1.trans (hmem.mp hx').1.symm
    · exact fun hx hne => absurd (hmem.mp hx).2 hne
    · exact hmem.mpr ⟨rfl, rfl⟩
    · exact fun x hx => absurd (hmem.mp hx).1 (by simp)
    · exact fun hq _ hx _ _ => absurd (hmem.mp hx).1 hq
  · constructor
    · exact fun hx hf => absurd ⟨_, _, hx, hf⟩ (hunlinked _)
    · intro q x hx
      obtain ⟨-, rfl⟩ := hmem.mp hx
      rw [hlist]
      exact List.nodup_nil
    · intro x hx
      obtain ⟨-, rfl⟩ := hmem.mp hx
      exact hlist
    · rw [hnil]
      exact List.Pairwise.nil
    · rw [hnil]
      exact List.nodup_nil
    · simp [hnil, hunlinked]

/-! ## Runs -/

theorem inv_initial (flow : FlowPtr → MpqosFlowEntry P) (filter : Nat → FilterEntry) :
    (initial flow filter).Inv := by
  have hmem : ∀ {q x}, x ∈ (initial flow filter).flowDataQueue q ↔
      q = .default ∧ x = .defaultQosFlow := by
    intro q x
    cases q <;> simp [initial]
  have hlist : ((initial flow filter).flow .defaultQosFlow).filterList = [] := by simp [initial]
  constructor
  · constructor
    · intro q
      cases q <;> simp [initial]
    · exact fun hx hx' => (hmem.mp hx).1.trans (hmem.mp hx').1.symm
    · exact fun hx hne => absurd (hmem.mp hx).2 hne
    · exact hmem.mpr ⟨rfl, rfl⟩
    · exact fun x hx => absurd (hmem.mp hx).1 (by simp)
    · exact fun hq _ hx _ _ => absurd (hmem.mp hx).1 hq
  · constructor
    · intro q x f hx hf
      obtain ⟨-, rfl⟩ := hmem.mp hx
      simp [hlist] at hf
    · intro q x hx
      obtain ⟨-, rfl⟩ := hmem.mp hx
      rw [hlist]
      exact List.nodup_nil
    · intro x hx
      obtain ⟨-, rfl⟩ := hmem.mp hx
      exact hlist
    · exact List.Pairwise.nil
    · exact List.nodup_nil
    · intro f
      refine ⟨by simp [initial], ?_⟩
      rintro ⟨-, q, x, hx, hf⟩
      obtain ⟨-, rfl⟩ := hmem.mp hx
      simp [hlist] at hf

/-- Every step keeps the invariant. -/
theorem Inv.step {c : Config} {op : Op P} (h : s.Inv) (hs : s.step c op = some s') : s'.Inv := by
  cases op with
  | pend p => exact Option.some.inj hs ▸ h.congr rfl rfl rfl rfl
  | categorizePacket flagged data size allocated => exact h.categorizePacket hs
  | processQosFlowReport r address addresses => exact h.processQosFlowReport hs
  | dispatchTurn answers => exact h.dispatchTurn hs
  | keSetEvent => exact Option.some.inj hs ▸ h.congr rfl rfl rfl rfl
  | enableDefaultFlow enable => exact Option.some.inj hs ▸ h.congr rfl rfl rfl rfl
  | purgeQueues => exact Option.some.inj hs ▸ h.purgeQueues

end State

theorem qosMachine_some {c : Config} {op : Op P} {o : Unit} :
    qosMachine c s op = some (s', o) ↔ s.step c op = some s' := by
  simp [qosMachine]

/-- In every state of a run, the invariant holds. -/
theorem visits_inv {c : Config} (flow : FlowPtr → MpqosFlowEntry P) (filter : Nat → FilterEntry)
    {ops : List (Op P)} {t : State P} (ht : t ∈ (qosMachine c).visits (.initial flow filter) ops) :
    t.Inv :=
  Machine.visits_all (P := State.Inv)
    (fun _ _ _ _ hinv (_ : True) hstep => hinv.step (qosMachine_some.mp hstep))
    (State.inv_initial flow filter) (fun _ _ => trivial) t ht

/-! ## A run with a flow -/

def sampleStart : State Nat :=
  .initial (fun _ => ⟨0, [], [], .queued⟩) fun _ => ⟨.zeroed, .defaultQosFlow⟩

/-- A flow for the packets of version 4 is activated. -/
def sampleReport : FlowReport :=
  { flowId := 5
    action := .activated
    filters := [{ QmiFilter.zeroed with ipVersion := 4, precedence := 3 }] }

def sampleFlow : State Nat := (sampleStart.allocFilters [0] sampleReport.filters).activateFlow 5 0 [0]

theorem sampleFlow_visited : sampleFlow ∈
    (qosMachine ⟨false, false⟩).visits sampleStart [.processQosFlowReport sampleReport 0 [0]] :=
  List.mem_cons_of_mem _ List.mem_cons_self

/-! ## What holds in every run -/

/-- In every state of a run, a flow is in one table, and its `FlowState` says in which. -/
theorem visits_tables {c : Config} {flow : FlowPtr → MpqosFlowEntry P} {filter : Nat → FilterEntry}
    {ops : List (Op P)} {t : State P} (ht : t ∈ (qosMachine c).visits (.initial flow filter) ops) :
    t.Tables :=
  (visits_inv flow filter ht).tables

theorem visits_tables_sample : sampleFlow.flowDataQueue .sendWithoutData = [.entry 0] ∧ sampleFlow.Tables :=
  ⟨rfl, visits_tables sampleFlow_visited⟩

/-- In every state of a run, the precedence list holds the filters of the flows in the tables that
have a valid precedence, in order, each once and with the flow that has it. -/
theorem visits_filterPrecedenceList {c : Config} {flow : FlowPtr → MpqosFlowEntry P}
    {filter : Nat → FilterEntry} {ops : List (Op P)} {t : State P}
    (ht : t ∈ (qosMachine c).visits (.initial flow filter) ops) :
    t.filterPrecedenceList.Pairwise (fun f g => t.precedence f ≤ t.precedence g) ∧
      t.filterPrecedenceList.Nodup ∧
      ∀ f, f ∈ t.filterPrecedenceList ↔ t.precedence f < qosFilterPrecedenceInvalid ∧
        ∃ q, (t.filter f).flow ∈ t.flowDataQueue q ∧ f ∈ (t.flow (t.filter f).flow).filterList := by
  have h := (visits_inv flow filter ht).filters
  refine ⟨h.ordered, h.listed, fun f => (h.mem_iff f).trans (and_congr_right fun _ => ?_)⟩
  constructor
  · rintro ⟨q, fl, hfl, hf⟩
    have howner := h.owner hfl hf
    exact ⟨q, howner ▸ hfl, howner ▸ hf⟩
  · rintro ⟨q, hfl, hf⟩
    exact ⟨q, _, hfl, hf⟩

theorem visits_filterPrecedenceList_sample : sampleFlow.filterPrecedenceList = [0] ∧
    sampleFlow.filterPrecedenceList.Nodup :=
  ⟨rfl, (visits_filterPrecedenceList sampleFlow_visited).2.1⟩

end Ndis.Qos
