-- SUMMARY: Accounting for the bulk-in URBs of a qcom_usb device: none is lost or queued twice, and their bytes enter the read buffer in the order of the completions.
import QcomUsb.Usb.UrbQueue

/-!
# Accounting for the URBs

`Owned` says where each URB is, `Logged` says where each byte is. Both hold between any
two operations on the device, whatever the USB core answers; when it accepts every URB,
each URB is in flight or waits in exactly one node.
-/

namespace QtiUsb

open Memory Transition WhileLoop

namespace SQTIDevUSB

/-! ## What the log and the list of nodes say -/

/-- The URBs that wait, first one first. -/
def queued (d : SQTIDevUSB) : List SQueuedUrb := d.mBulkUrbBuffList.filterMap id

def waiting (d : SQTIDevUSB) : List (Fin bulkUrbList) := d.queued.map (·.mIndex)

/-- The completions of a log, in order, each with its bytes. -/
def completions (log : List RxEvent) : List (Fin bulkUrbList × List UInt8) :=
  log.filterMap fun
    | .completed i data => some (i, data)
    | _ => none

/-- The completions of a log whose bytes are in the read buffer, in the order in which
they entered it. -/
def stores (log : List RxEvent) : List (Fin bulkUrbList × List UInt8) :=
  log.filterMap fun
    | .stored i data => some (i, data)
    | _ => none

/-- The bytes a list of completions brought. -/
def payload (cs : List (Fin bulkUrbList × List UInt8)) : List UInt8 := cs.flatMap (·.2)

/-- The bytes the readers got, in the order in which they got them. -/
def handedOut (log : List RxEvent) : List UInt8 :=
  log.flatMap fun
    | .handed block => block
    | _ => []

@[simp] theorem completions_append (log log' : List RxEvent) :
    completions (log ++ log') = completions log ++ completions log' := List.filterMap_append

@[simp] theorem stores_append (log log' : List RxEvent) :
    stores (log ++ log') = stores log ++ stores log' := List.filterMap_append

@[simp] theorem payload_append (cs cs' : List (Fin bulkUrbList × List UInt8)) :
    payload (cs ++ cs') = payload cs ++ payload cs' := List.flatMap_append

@[simp] theorem handedOut_append (log log' : List RxEvent) :
    handedOut (log ++ log') = handedOut log ++ handedOut log' := List.flatMap_append

/-- A URB goes back to the USB core only when all it has brought is in the read buffer. -/
def SubmitsStored (log : List RxEvent) : Prop :=
  ∀ past i rest, log = past ++ .submitted i :: rest →
    (completions past).filter (·.1 = i) = (stores past).filter (·.1 = i)

theorem SubmitsStored.append {log : List RxEvent} {e : RxEvent} (h : SubmitsStored log)
    (he : ∀ i, e = .submitted i →
      (completions log).filter (·.1 = i) = (stores log).filter (·.1 = i)) :
    SubmitsStored (log ++ [e]) := by
  intro past i rest heq
  rcases List.eq_nil_or_concat rest with rfl | ⟨rest', e', rfl⟩
  · have hlast := List.append_inj' heq rfl
    obtain ⟨rfl, hevent⟩ := hlast
    exact he i (by simpa using hevent)
  · have hsplit : log ++ [e] = (past ++ .submitted i :: rest') ++ [e'] := by simpa using heq
    exact h past i rest' (List.append_inj' hsplit rfl).1

/-- The nodes, the URBs and the USB core of an open device agree. `held` are the URBs in
the hands of the callback or of the reader, and `live` says that the USB core has accepted
every URB so far. -/
structure Owned (live : Prop) (d : SQTIDevUSB) (held : List (Fin bulkUrbList)) : Prop where
  opened : 2 ≤ d.mRefCount
  nodes : d.mBulkUrbBuffList =
    d.queued.map some ++ List.replicate (bulkUrbList - d.queued.length) none
  size : d.mBulkUrbBuffListSize = d.queued.length
  nodup : (d.waiting ++ held).Nodup
  flight : ∀ i, (d.mBulkUrbList i).inFlight = true → i ∉ d.waiting ++ held
  circulates : live → ∀ i, i ∉ d.waiting ++ held → (d.mBulkUrbList i).inFlight = true
  initialized : ∀ i, (d.mBulkUrbList i).mUrbStatus.initialized = true
  mirror : ∀ q ∈ d.queued, q.mUrbStatus = .idle ∧ (d.mBulkUrbList q.mIndex).mUrbStatus = .idle

/-- The log and the read buffer agree. `fresh` are the URBs whose last completion is
neither stored nor queued yet, `taken` are the bytes that left the read buffer. -/
structure Logged (d : SQTIDevUSB) (fresh : List (Fin bulkUrbList)) (taken : List UInt8) :
    Prop where
  ring : d.mReadBuffCircular.Inv
  order : completions d.log = stores d.log ++
    (d.waiting ++ fresh).map fun i => (i, (d.mBulkUrbList i).transferBuffer)
  contents : taken ++ d.mReadBuffCircular.contents = payload (stores d.log)
  submits : SubmitsStored d.log
  nonempty : ∀ i ∈ d.waiting ++ fresh, (d.mBulkUrbList i).transferBuffer ≠ []

/-! ## The list of nodes -/

variable {live : Prop} {usbSubmitUrb : UsbSubmitUrb} {d : SQTIDevUSB} {i : Fin bulkUrbList} {held : List (Fin bulkUrbList)}
  {taken : List UInt8}

@[simp] theorem setUrb_self (d : SQTIDevUSB) (i : Fin bulkUrbList) (u : SBulkUrb) :
    (d.setUrb i u).mBulkUrbList i = u := by
  simp [setUrb]

theorem setUrb_of_ne {j : Fin bulkUrbList} (u : SBulkUrb) (h : j ≠ i) :
    (d.setUrb i u).mBulkUrbList j = d.mBulkUrbList j := by
  simp [setUrb, h]

@[simp] theorem waiting_setUrb (d : SQTIDevUSB) (i : Fin bulkUrbList) (u : SBulkUrb) :
    (d.setUrb i u).waiting = d.waiting := rfl

@[simp] theorem waiting_record (d : SQTIDevUSB) (e : RxEvent) :
    (d.record e).waiting = d.waiting := rfl

@[simp] theorem mBulkUrbList_record (d : SQTIDevUSB) (e : RxEvent) :
    (d.record e).mBulkUrbList = d.mBulkUrbList := rfl

@[simp] theorem mReadBuffCircular_record (d : SQTIDevUSB) (e : RxEvent) :
    (d.record e).mReadBuffCircular = d.mReadBuffCircular := rfl

theorem log_record (d : SQTIDevUSB) (e : RxEvent) : (d.record e).log = d.log ++ [e] := rfl

/-- The readers get nothing by an event of a URB. -/
theorem handedOut_record {e : RxEvent} (he : ∀ block, e ≠ .handed block) :
    handedOut (d.record e).log = handedOut d.log := by
  have hone : handedOut [e] = [] := by
    cases e with
    | completed i data => rfl
    | stored i data => rfl
    | submitted i => rfl
    | handed block => exact absurd rfl (he block)
  simp [log_record, hone]

theorem filterMap_nodes (qs : List SQueuedUrb) (k : Nat) :
    (qs.map some ++ List.replicate k none).filterMap id = qs := by
  simp

theorem fillFirst_nodes (q : SQueuedUrb) (qs : List SQueuedUrb) (k : Nat) :
    fillFirst q (qs.map some ++ List.replicate (k + 1) none) =
      some ((qs ++ [q]).map some ++ List.replicate k none) := by
  induction qs with
  | nil => rfl
  | cons p qs ih => simpa [fillFirst] using ih

theorem rotate_nodes (qs : List SQueuedUrb) (k : Nat) :
    (none :: (qs.map some ++ List.replicate k none)).rotate 1 =
      qs.map some ++ List.replicate (k + 1) none := by
  rw [List.rotate_cons_succ, List.rotate_zero, List.append_assoc, List.replicate_succ']

/-- While a URB is in somebody's hands, one node is free. -/
theorem Owned.room (h : Owned live d (i :: held)) : d.queued.length < bulkUrbList := by
  have hcard : (d.waiting ++ i :: held).length ≤ bulkUrbList := by
    simpa using h.nodup.length_le_card
  have hwait : d.waiting.length = d.queued.length := by simp [waiting]
  simp only [List.length_append, List.length_cons] at hcard
  omega

/-- `AddToQueue` puts the URB behind the others. -/
theorem Owned.addToQueue_eq (h : Owned live d (i :: held)) :
    d.addToQueue i = { d.setUrb i { d.mBulkUrbList i with mUrbStatus := .idle } with
      mBulkUrbBuffList := (d.queued ++ [SQueuedUrb.mk i .idle]).map some ++
        List.replicate (bulkUrbList - (d.queued.length + 1)) none
      mBulkUrbBuffListSize := d.mBulkUrbBuffListSize + 1 } := by
  have hidle : UrbStatus.mk (d.mBulkUrbList i).mUrbStatus.initialized false = .idle := by
    rw [h.initialized i]
    rfl
  have hroom := h.room
  have hfree : bulkUrbList - d.queued.length = bulkUrbList - (d.queued.length + 1) + 1 := by omega
  have hfill : fillFirst ⟨i, .idle⟩ d.mBulkUrbBuffList = some ((d.queued ++ [SQueuedUrb.mk i .idle]).map some ++
      List.replicate (bulkUrbList - (d.queued.length + 1)) none) := by
    rw [h.nodes, hfree]
    exact fillFirst_nodes _ _ _
  simp only [SQTIDevUSB.addToQueue, hidle, hfill]

theorem queued_addToQueue (h : Owned live d (i :: held)) :
    (d.addToQueue i).queued = d.queued ++ [SQueuedUrb.mk i .idle] := by
  rw [h.addToQueue_eq]
  exact filterMap_nodes _ _

theorem waiting_addToQueue (h : Owned live d (i :: held)) :
    (d.addToQueue i).waiting = d.waiting ++ [i] := by
  simp [waiting, queued_addToQueue h]

theorem Owned.addToQueue_urb (h : Owned live d (i :: held)) (j : Fin bulkUrbList) :
    (d.addToQueue i).mBulkUrbList j =
      { d.mBulkUrbList j with
        mUrbStatus := if j = i then .idle else (d.mBulkUrbList j).mUrbStatus } := by
  rw [h.addToQueue_eq]
  by_cases hj : j = i
  · subst hj
    simp [setUrb]
  · simp [setUrb, hj]

theorem Owned.addToQueue (h : Owned live d (i :: held)) : Owned live (d.addToQueue i) held := by
  have hq := queued_addToQueue h
  have hw := waiting_addToQueue h
  refine ⟨?_, ?_, ?_, ?_, ?_, ?_, ?_, ?_⟩
  · rw [h.addToQueue_eq]
    exact h.opened
  · rw [hq, h.addToQueue_eq]
    simp
  · rw [hq, h.addToQueue_eq]
    simp [h.size]
  · simpa [hw] using h.nodup
  · intro j
    simpa [hw, h.addToQueue_urb] using h.flight j
  · intro hlive j
    simpa [hw, h.addToQueue_urb] using h.circulates hlive j
  · intro j
    rw [h.addToQueue_urb]
    by_cases hj : j = i
    · simp [hj, UrbStatus.idle]
    · simp [hj, h.initialized j]
  · intro q hmem
    rw [hq] at hmem
    rw [h.addToQueue_urb]
    rcases List.mem_append.mp hmem with hold | hnew
    · obtain ⟨hnode, hurb⟩ := h.mirror q hold
      exact ⟨hnode, by simp [hurb]⟩
    · have hqi : q = ⟨i, .idle⟩ := by simpa using hnew
      subst hqi
      simp

theorem Logged.addToQueue (h : d.Logged [i] taken) (ho : Owned live d (i :: held)) :
    (d.addToQueue i).Logged [] taken := by
  have hw := waiting_addToQueue ho
  have hring : (d.addToQueue i).mReadBuffCircular = d.mReadBuffCircular := by
    rw [ho.addToQueue_eq]
    rfl
  have hlog : (d.addToQueue i).log = d.log := by
    rw [ho.addToQueue_eq]
    rfl
  refine ⟨?_, ?_, ?_, ?_, ?_⟩
  · simpa [hring] using h.ring
  · simpa [hlog, hw, ho.addToQueue_urb] using h.order
  · simpa [hring, hlog] using h.contents
  · simpa [hlog] using h.submits
  · simpa [hw, ho.addToQueue_urb] using h.nonempty

/-! ## Submitting a URB -/

theorem Owned.not_waiting (h : Owned live d (i :: held)) : i ∉ d.waiting := by
  have hnot := (List.nodup_cons.mp (List.nodup_middle.mp h.nodup)).1
  exact fun hmem => hnot (List.mem_append_left _ hmem)

/-- A URB leaves somebody's hands for the USB core. -/
theorem Owned.submit {u : SBulkUrb} (h : Owned live d (i :: held))
    (hflight : live → u.inFlight = true) (hinit : u.mUrbStatus.initialized = true) :
    Owned live (d.setUrb i u) held := by
  obtain ⟨hout, hnodup⟩ := List.nodup_cons.mp (List.nodup_middle.mp h.nodup)
  refine ⟨h.opened, h.nodes, h.size, hnodup, ?_, ?_, ?_, ?_⟩
  · intro j hj
    change j ∉ d.waiting ++ held
    by_cases hji : j = i
    · subst hji
      exact hout
    · rw [setUrb_of_ne u hji] at hj
      have hnot := h.flight j hj
      simp only [List.mem_append, List.mem_cons, not_or] at hnot ⊢
      exact ⟨hnot.1, hnot.2.2⟩
  · intro hlive j hj
    by_cases hji : j = i
    · subst hji
      simpa using hflight hlive
    · rw [setUrb_of_ne u hji]
      apply h.circulates hlive
      have hj' : j ∉ d.waiting ++ held := hj
      simp only [List.mem_append, List.mem_cons, not_or] at hj' ⊢
      exact ⟨hj'.1, hji, hj'.2⟩
  · intro j
    by_cases hji : j = i
    · subst hji
      simpa using hinit
    · simpa [setUrb_of_ne u hji] using h.initialized j
  · intro q hmem
    have hne : q.mIndex ≠ i := by
      rintro rfl
      exact h.not_waiting (List.mem_map_of_mem hmem)
    refine ⟨(h.mirror q hmem).1, ?_⟩
    rw [setUrb_of_ne u hne]
    exact (h.mirror q hmem).2

theorem Owned.record {e : RxEvent} (h : Owned live d held) : Owned live (d.record e) held :=
  ⟨h.opened, h.nodes, h.size, h.nodup, h.flight, h.circulates, h.initialized, h.mirror⟩

/-- Nothing of a URB that is neither waiting nor fresh is still to be stored. -/
theorem Logged.allStored (h : d.Logged [] taken) (hout : i ∉ d.waiting) :
    (completions d.log).filter (·.1 = i) = (stores d.log).filter (·.1 = i) := by
  have hrest : ∀ p ∈ (d.waiting ++ []).map fun j => (j, (d.mBulkUrbList j).transferBuffer),
      p.1 ≠ i := by
    intro p hp
    obtain ⟨j, hj, rfl⟩ := List.mem_map.mp hp
    rintro rfl
    exact hout (by simpa using hj)
  rw [h.order, List.filter_append]
  simpa using hrest

theorem Logged.setUrb {u : SBulkUrb} (h : d.Logged [] taken) (hout : i ∉ d.waiting) :
    (d.setUrb i u).Logged [] taken := by
  have hsame : ∀ j ∈ d.waiting ++ [],
      (d.setUrb i u).mBulkUrbList j = d.mBulkUrbList j := by
    intro j hj
    apply setUrb_of_ne
    rintro rfl
    exact hout (by simpa using hj)
  refine ⟨h.ring, ?_, h.contents, h.submits, ?_⟩
  · have hmap : ((d.waiting ++ []).map fun j => (j, ((d.setUrb i u).mBulkUrbList j).transferBuffer)) =
        (d.waiting ++ []).map fun j => (j, (d.mBulkUrbList j).transferBuffer) := by
      apply List.map_congr_left
      intro j hj
      rw [hsame j hj]
    change completions d.log = stores d.log ++
      (d.waiting ++ []).map fun j => (j, ((d.setUrb i u).mBulkUrbList j).transferBuffer)
    rw [hmap]
    exact h.order
  · intro j hj
    rw [hsame j hj]
    exact h.nonempty j hj

theorem Logged.submitted (h : d.Logged [] taken) (hout : i ∉ d.waiting) :
    (d.record (.submitted i)).Logged [] taken := by
  refine ⟨h.ring, ?_, ?_, ?_, h.nonempty⟩
  · rw [log_record, completions_append, stores_append]
    simpa [completions, stores] using h.order
  · rw [log_record, stores_append]
    simpa [stores] using h.contents
  · rw [log_record]
    apply h.submits.append
    intro j hj
    cases hj
    exact h.allStored hout

/-- What the URBs and the log keep when no completion is left to be stored. -/
def Kept (live : Prop) (held : List (Fin bulkUrbList)) (taken : List UInt8) (d : SQTIDevUSB) :
    Prop :=
  Owned live d held ∧ d.Logged [] taken

/-- A URB in somebody's hands gets a new entry, in flight if need be. -/
theorem Kept.setUrb {u : SBulkUrb} (h : Kept live (i :: held) taken d)
    (hflight : live → u.inFlight = true) (hinit : u.mUrbStatus.initialized = true) :
    Kept live held taken (d.setUrb i u) :=
  ⟨h.1.submit hflight hinit, h.2.setUrb h.1.not_waiting⟩

theorem Kept.submitted (h : Kept live held taken d) (hout : i ∉ d.waiting) :
    Kept live held taken (d.record (.submitted i)) :=
  ⟨h.1.record, h.2.submitted hout⟩

/-- A URB that the USB core does not take goes nowhere. -/
theorem Kept.drop (h : Kept live (i :: held) taken d) (hdead : ¬ live) :
    Kept live held taken d := by
  have hkept := h.setUrb (u := d.mBulkUrbList i) (fun hlive => absurd hlive hdead)
    (h.1.initialized i)
  have hsame : d.setUrb i (d.mBulkUrbList i) = d := by simp [SQTIDevUSB.setUrb]
  rwa [hsame] at hkept

/-- `ResubmitBulkURB` at the end of `BlkCallback`. -/
theorem resubmitBulkURB_kept (h : Kept live (i :: held) taken d)
    (hsub : live → usbSubmitUrb i = 0) :
    Kept live held taken (d.resubmitBulkURB usbSubmitUrb i).2 := by
  have hout := h.1.not_waiting
  have hinit := h.1.initialized i
  unfold resubmitBulkURB
  split
  · exact (h.setUrb (u := { d.mBulkUrbList i with inFlight := true }) (fun _ => rfl) hinit).submitted
      hout
  · rename_i hfail
    exact h.drop fun hlive => hfail (hsub hlive)

/-! ## Moving a waiting URB up -/

theorem clearFirst_nodes (q : SQueuedUrb) (qs : List SQueuedUrb) (k : Nat) :
    clearFirst ((q :: qs).map some ++ List.replicate k none) =
      some (q, none :: (qs.map some ++ List.replicate k none)) := rfl

/-- The device once the first waiting URB `q` left its node and its bytes entered `ring`. -/
def movedUp (d : SQTIDevUSB) (q : SQueuedUrb) (qs : List SQueuedUrb)
    (ring : SReadMemListCircular) : SQTIDevUSB :=
  { d with
    mBulkUrbBuffList := qs.map some ++ List.replicate (bulkUrbList - qs.length) none
    mBulkUrbBuffListSize := qs.length
    mReadBuffCircular := ring }.record (.stored q.mIndex (d.mBulkUrbList q.mIndex).transferBuffer)

theorem log_movedUp (d : SQTIDevUSB) (q : SQueuedUrb) (qs : List SQueuedUrb)
    (ring : SReadMemListCircular) : (d.movedUp q qs ring).log =
      d.log ++ [RxEvent.stored q.mIndex (d.mBulkUrbList q.mIndex).transferBuffer] := rfl

variable {q : SQueuedUrb} {qs : List SQueuedUrb} {ring : SReadMemListCircular}

theorem waiting_movedUp : (d.movedUp q qs ring).waiting = qs.map (·.mIndex) := by
  change ((qs.map some ++ List.replicate _ none).filterMap id).map _ = _
  rw [filterMap_nodes]

theorem Owned.movedUp (h : Owned live d held) (hq : d.queued = q :: qs) :
    Owned live (d.movedUp q qs ring) (q.mIndex :: held) := by
  have hw : d.waiting = q.mIndex :: qs.map (·.mIndex) := by simp [waiting, hq]
  have hqs : (d.movedUp q qs ring).queued = qs := filterMap_nodes _ _
  have hnodup := h.nodup
  rw [hw] at hnodup
  refine ⟨h.opened, ?_, ?_, ?_, ?_, ?_, h.initialized, ?_⟩
  · rw [hqs]
    rfl
  · rw [hqs]
    rfl
  · rw [waiting_movedUp]
    exact List.nodup_middle.mpr hnodup
  · intro j
    have hj := h.flight j
    rw [hw] at hj
    rw [waiting_movedUp]
    simpa [SQTIDevUSB.movedUp, SQTIDevUSB.record, and_left_comm] using hj
  · intro hlive j
    have hj := h.circulates hlive j
    rw [hw] at hj
    rw [waiting_movedUp]
    intro hout
    apply hj
    simp only [List.mem_append, List.mem_cons, not_or] at hout ⊢
    exact ⟨⟨hout.2.1, hout.1⟩, hout.2.2⟩
  · intro p hp
    rw [hqs] at hp
    exact h.mirror p (by simp [hq, hp])

theorem Logged.movedUp (h : d.Logged [] taken) (hq : d.queued = q :: qs) (hinv : ring.Inv)
    (hring : ring.contents = d.mReadBuffCircular.contents ++
      (d.mBulkUrbList q.mIndex).transferBuffer) :
    (d.movedUp q qs ring).Logged [] taken := by
  have hw : d.waiting = q.mIndex :: qs.map (·.mIndex) := by simp [waiting, hq]
  have hlog := log_movedUp d q qs ring
  refine ⟨hinv, ?_, ?_, ?_, ?_⟩
  · have horder := h.order
    rw [hw] at horder
    rw [waiting_movedUp, hlog, completions_append, stores_append]
    simpa [completions, stores, SQTIDevUSB.movedUp, record] using horder
  · have hcontents := h.contents
    rw [hlog, stores_append, payload_append, ← hcontents]
    change taken ++ ring.contents = _
    simp [hring, stores, payload]
  · rw [hlog]
    apply h.submits.append
    intro j hj
    cases hj
  · intro j hj
    rw [waiting_movedUp] at hj
    exact h.nonempty j (by simpa [hw] using Or.inr (by simpa using hj))

/-- A URB that is not submitted yet is submitted. -/
theorem submitPopped_eq (h : (d.mBulkUrbList i).mUrbStatus = .idle) :
    d.submitPopped usbSubmitUrb i =
      if usbSubmitUrb i = 0 then
        (d.setUrb i { d.mBulkUrbList i with
          mUrbStatus := ⟨true, true⟩, inFlight := true }).record (.submitted i)
      else d.setUrb i { d.mBulkUrbList i with
        mUrbStatus := ⟨true, decide (0 ≤ usbSubmitUrb i)⟩ } := by
  by_cases hok : usbSubmitUrb i = 0
  · simp [submitPopped, resubmitBulkURB, h, hok, UrbStatus.idle, SQTIDevUSB.setUrb, SQTIDevUSB.record]
  · by_cases hneg : usbSubmitUrb i < 0
    · simp [submitPopped, resubmitBulkURB, h, hok, hneg, UrbStatus.idle, Int.not_le.mpr hneg]
    · simp [submitPopped, resubmitBulkURB, h, hok, hneg, UrbStatus.idle, Int.not_lt.mp hneg]

/-- `PopFromQueueAndSubmit` moves the first URB up when its bytes fit. -/
theorem popFromQueueAndSubmit_cases (h : Kept live held taken d) :
    popFromQueueAndSubmit usbSubmitUrb d = (false, d) ∨
    ∃ (i : Fin bulkUrbList) (d' : SQTIDevUSB),
      popFromQueueAndSubmit usbSubmitUrb d = (true, d'.submitPopped usbSubmitUrb i) ∧
      Kept live (i :: held) taken d' ∧ (d'.mBulkUrbList i).mUrbStatus = .idle := by
  obtain ⟨ho, hl⟩ := h
  cases hq : d.queued with
  | nil =>
    left
    have hsize : d.mBulkUrbBuffListSize = 0 := by simp [ho.size, hq]
    simp [popFromQueueAndSubmit, hsize]
  | cons q qs =>
    have hsize : d.mBulkUrbBuffListSize = qs.length + 1 := by simp [ho.size, hq]
    have hroom : qs.length + 1 ≤ bulkUrbList := by
      have hnodup : d.waiting.Nodup := (List.nodup_append.mp ho.nodup).1
      have hcard : d.waiting.length ≤ bulkUrbList := by simpa using hnodup.length_le_card
      simpa [waiting, hq] using hcard
    have hfree : bulkUrbList - (qs.length + 1) + 1 = bulkUrbList - qs.length := by omega
    have hclear : clearFirst d.mBulkUrbBuffList =
        some (q, none :: (qs.map some ++ List.replicate (bulkUrbList - (qs.length + 1)) none)) := by
      rw [ho.nodes, hq]
      exact clearFirst_nodes _ _ _
    have hdata : (d.mBulkUrbList q.mIndex).transferBuffer ≠ [] :=
      hl.nonempty _ (by simp [waiting, hq])
    by_cases hfit : readBufferFreeSpace d.mReadBuffCircular <
        (d.mBulkUrbList q.mIndex).transferBuffer.length
    · left
      simp [popFromQueueAndSubmit, hsize, hclear, hfit]
    · right
      -- the two tests for room agree
      rw [hl.ring.readBufferFreeSpace_eq, Nat.not_lt] at hfit
      obtain ⟨ring, hadd, hinv, hcont⟩ :=
        addToReadMemList_accept hl.ring (List.length_pos_iff.mpr hdata) hfit
      refine ⟨q.mIndex, d.movedUp q qs ring, ?_, ⟨ho.movedUp hq, hl.movedUp hq hinv hcont⟩, ?_⟩
      · rw [← Nat.not_lt, ← hl.ring.readBufferFreeSpace_eq] at hfit
        simp only [popFromQueueAndSubmit, hsize, hclear, hfit, hadd, rotate_nodes, hfree,
          Nat.add_one_ne_zero, if_false, Nat.add_sub_cancel]
        rfl
      · exact (ho.mirror q (by simp [hq])).2

theorem submitPopped_kept (h : Kept live (i :: held) taken d)
    (hsub : live → usbSubmitUrb i = 0) (hidle : (d.mBulkUrbList i).mUrbStatus = .idle) :
    Kept live held taken (d.submitPopped usbSubmitUrb i) := by
  rw [submitPopped_eq hidle]
  split
  · exact (h.setUrb (fun _ => rfl) rfl).submitted h.1.not_waiting
  · rename_i hfail
    exact h.setUrb (fun hlive => absurd (hsub hlive) hfail) rfl

theorem popFromQueueAndSubmit_kept (hsub : live → ∀ i, usbSubmitUrb i = 0) (d : SQTIDevUSB)
    (h : Kept live held taken d) :
    Kept live held taken (popFromQueueAndSubmit usbSubmitUrb d).2 := by
  rcases popFromQueueAndSubmit_cases h with hno | ⟨i, d', hpop, hk, hidle⟩
  · rw [hno]
    exact h
  · rw [hpop]
    exact submitPopped_kept hk (fun hlive => hsub hlive i) hidle

theorem popAll_kept (hsub : live → ∀ i, usbSubmitUrb i = 0) (h : Kept live held taken d) :
    Kept live held taken (d.popAll usbSubmitUrb) :=
  whileTrue_inv (popFromQueueAndSubmit_kept hsub) _ h

/-! ## Reads -/

@[simp] theorem handedOut_resubmitBulkURB :
    handedOut (d.resubmitBulkURB usbSubmitUrb i).2.log = handedOut d.log := by
  unfold resubmitBulkURB
  split
  · exact handedOut_record (by simp)
  · rfl

@[simp] theorem handedOut_addToQueue : handedOut (d.addToQueue i).log = handedOut d.log := by
  simp only [SQTIDevUSB.addToQueue]
  split <;> rfl

@[simp] theorem handedOut_submitPopped :
    handedOut (d.submitPopped usbSubmitUrb i).log = handedOut d.log := by
  simp only [submitPopped]
  split_ifs
  · rfl
  · exact handedOut_resubmitBulkURB
  · exact handedOut_resubmitBulkURB

theorem handedOut_popFromQueueAndSubmit (d : SQTIDevUSB) :
    handedOut (popFromQueueAndSubmit usbSubmitUrb d).2.log = handedOut d.log := by
  simp only [popFromQueueAndSubmit]
  split
  · rfl
  · split
    · rfl
    · split
      · rfl
      · split
        · simp
        · simpa using handedOut_record (by simp)

/-- Only readers get bytes. -/
@[simp] theorem handedOut_popAll : handedOut (d.popAll usbSubmitUrb).log = handedOut d.log :=
  whileTrue_inv (P := fun d' => handedOut d'.log = handedOut d.log)
    (fun d' h => (handedOut_popFromQueueAndSubmit d').trans h) _ rfl

/-- The URBs and the log agree, and `rel` relates the bytes that left the read buffer to
those the readers got. -/
def Accounted (live : Prop) (held : List (Fin bulkUrbList))
    (rel : List UInt8 → List UInt8 → Prop) (d : SQTIDevUSB) : Prop :=
  ∃ taken, rel taken (handedOut d.log) ∧ Kept live held taken d

variable {rel : List UInt8 → List UInt8 → Prop}

/-- Bytes leave the read buffer at its start. -/
theorem Kept.take (taken' block : List UInt8) (h : Kept live held taken d) (hinv : ring.Inv)
    (hring : taken' ++ ring.contents = taken ++ d.mReadBuffCircular.contents) :
    Kept live held taken' ({ d with mReadBuffCircular := ring }.record (.handed block)) := by
  obtain ⟨ho, hl⟩ := h
  refine ⟨⟨ho.opened, ho.nodes, ho.size, ho.nodup, ho.flight, ho.circulates, ho.initialized,
    ho.mirror⟩, hinv, ?_, ?_, ?_,
    hl.nonempty⟩
  · rw [log_record, waiting_record, completions_append, stores_append]
    simpa [completions, stores, waiting, queued] using hl.order
  · rw [log_record, stores_append, payload_append, ← hl.contents, ← hring]
    simp [stores, payload]
  · rw [log_record]
    apply hl.submits.append
    intro j hj
    cases hj

/-- A read takes its bytes or leaves the read buffer alone. -/
theorem copyFromReadMemList_ring {r : SReadMemListCircular} {n : Nat} (h : r.Inv)
    (hn32 : n < 2 ^ 32) (copy : List UInt8 → Bool) :
    ∃ m, (QtiUsb.copyFromReadMemList r n copy).ring.Inv ∧
      (QtiUsb.copyFromReadMemList r n copy).ring.contents = r.contents.drop m := by
  by_cases hfault : (QtiUsb.copyFromReadMemList r n copy).ret = negEfault
  · rw [copyFromReadMemList_fault hfault]
    exact ⟨0, h, rfl⟩
  · rw [copyFromReadMemList_copyOk hfault]
    have hspec := copyFromReadMemList_spec h hn32
    exact ⟨n, hspec.inv, hspec.rest⟩

theorem copyFromReadMemList_kept (h : Kept live held taken d)
    (hsub : live → ∀ i, usbSubmitUrb i = 0) {n : Nat} (hn32 : n < 2 ^ 32)
    (copy : List UInt8 → Bool) :
    ∃ taken', Kept live held taken' (d.copyFromReadMemList usbSubmitUrb n copy) := by
  obtain ⟨m, hinv, hring⟩ := copyFromReadMemList_ring h.2.ring hn32 copy
  refine ⟨taken ++ d.mReadBuffCircular.contents.take m, ?_⟩
  have htake := h.take (taken ++ d.mReadBuffCircular.contents.take m)
    (QtiUsb.copyFromReadMemList d.mReadBuffCircular n copy).moved hinv (by
      rw [hring, List.append_assoc, List.take_append_drop])
  simp only [SQTIDevUSB.copyFromReadMemList]
  split
  · exact popAll_kept hsub htake
  · exact htake

theorem aioLength_lt {r : SReadMemListCircular} (h : r.Inv) (a : IoRead) :
    aioLength r a < 2 ^ 32 := by
  have hend := h.end_le
  have hlen := h.bufflen
  unfold qtidevBulkBufLen at hlen
  unfold aioLength
  split <;> omega

/-- What every read keeps, `BlkCallback` keeps while it completes the queued reads. -/
theorem completeIoReads_inv {P : SQTIDevUSB → Prop}
    (hcopy : ∀ d a, P d →
      P (d.copyFromReadMemList usbSubmitUrb (aioLength d.mReadBuffCircular a) copyOk))
    (as : List IoRead) (h : P d) : P (d.completeIoReads usbSubmitUrb as).2 := by
  induction as generalizing d with
  | nil => exact h
  | cons a as ih =>
    simp only [completeIoReads, ioAsyncComplete]
    by_cases hempty : d.mReadBuffCircular.mBufEmptyStatus = true
    · simp only [hempty, if_true]
      exact ih h
    · by_cases hmem : a.kzalloc = false
      · simp only [hempty, hmem, if_true]
        exact ih h
      · simp only [hempty, hmem]
        exact ih (hcopy d a h)

/-! ## The callback -/

theorem giveBack_owned {data : List UInt8} (h : Owned live d [])
    (hflight : (d.mBulkUrbList i).inFlight = true) : Owned live (d.giveBack i data) [i] := by
  have hout : i ∉ d.waiting := by simpa using h.flight i hflight
  have hurb : ∀ j ≠ i, (d.giveBack i data).mBulkUrbList j = d.mBulkUrbList j :=
    fun j hj => setUrb_of_ne _ hj
  refine ⟨h.opened, h.nodes, h.size, ?_, ?_, ?_, ?_, ?_⟩
  · change (d.waiting ++ [i]).Nodup
    exact List.nodup_middle.mpr (List.nodup_cons.mpr ⟨by simpa using hout, h.nodup⟩)
  · intro j
    change ((d.giveBack i data).mBulkUrbList j).inFlight = true → j ∉ d.waiting ++ [i]
    by_cases hj : j = i
    · subst hj
      simp [giveBack]
    · simpa [hurb j hj, hj] using h.flight j
  · intro hlive j
    change j ∉ d.waiting ++ [i] → ((d.giveBack i data).mBulkUrbList j).inFlight = true
    by_cases hj : j = i
    · simp [hj]
    · simpa [hurb j hj, hj] using h.circulates hlive j
  · intro j
    by_cases hj : j = i
    · subst hj
      simpa [giveBack] using h.initialized j
    · simpa [hurb j hj] using h.initialized j
  · intro q hmem
    have hne : q.mIndex ≠ i := by
      rintro rfl
      exact hout (List.mem_map_of_mem hmem)
    rw [hurb _ hne]
    exact h.mirror q hmem

theorem giveBack_kept {data : List UInt8} (h : Kept live [] taken d)
    (hflight : (d.mBulkUrbList i).inFlight = true) : Kept live [i] taken (d.giveBack i data) :=
  ⟨giveBack_owned h.1 hflight, h.2.setUrb (by simpa using h.1.flight i hflight)⟩

/-- The callback takes in what URB `i` brought. -/
theorem Logged.received (h : d.Logged [] taken) (hdata : (d.mBulkUrbList i).transferBuffer ≠ []) :
    (d.record (.completed i (d.mBulkUrbList i).transferBuffer)).Logged [i] taken := by
  refine ⟨h.ring, ?_, ?_, ?_, ?_⟩
  · rw [log_record, completions_append, stores_append, h.order]
    simp [completions, stores]
  · rw [log_record, stores_append]
    simpa [stores] using h.contents
  · rw [log_record]
    apply h.submits.append
    intro j hj
    cases hj
  · intro j hj
    rcases List.mem_append.mp hj with hold | hnew
    · exact h.nonempty j (by simpa using hold)
    · have hji : j = i := by simpa using hnew
      rw [hji]
      exact hdata

/-- The device once the bytes of URB `i` entered `ring`. -/
def storedUrb (d : SQTIDevUSB) (i : Fin bulkUrbList) (ring : SReadMemListCircular) : SQTIDevUSB :=
  { d with mReadBuffCircular := ring }.record (.stored i (d.mBulkUrbList i).transferBuffer)

theorem handedOut_storedUrb : handedOut (d.storedUrb i ring).log = handedOut d.log :=
  handedOut_record (d := { d with mReadBuffCircular := ring }) (by simp)

theorem Owned.storedUrb (h : Owned live d held) : Owned live (d.storedUrb i ring) held :=
  ⟨h.opened, h.nodes, h.size, h.nodup, h.flight, h.circulates, h.initialized, h.mirror⟩

theorem Logged.storedUrb (h : d.Logged [i] taken) (hnone : d.waiting = []) (hinv : ring.Inv)
    (hring : ring.contents = d.mReadBuffCircular.contents ++ (d.mBulkUrbList i).transferBuffer) :
    (d.storedUrb i ring).Logged [] taken := by
  have hlog : (d.storedUrb i ring).log =
      d.log ++ [.stored i (d.mBulkUrbList i).transferBuffer] := rfl
  have hwait : (d.storedUrb i ring).waiting = [] := hnone
  refine ⟨hinv, ?_, ?_, ?_, ?_⟩
  · have horder := h.order
    rw [hnone] at horder
    rw [hlog, hwait, completions_append, stores_append, horder]
    simp [completions, stores]
  · rw [hlog, stores_append, payload_append, ← h.contents]
    change taken ++ ring.contents = _
    simp [hring, stores, payload]
  · rw [hlog]
    apply h.submits.append
    intro j hj
    cases hj
  · intro j hj
    rw [hwait] at hj
    cases hj

/-- Under the lock the callback queues the URB, or stores its bytes and serves the queued
async reads. It stores only what fits, and only while no URB waits. -/
theorem storeOrQueue_cases (ho : Owned live d (i :: held)) (hl : d.Logged [i] taken) :
    d.storeOrQueue usbSubmitUrb i = (false, d.addToQueue i) ∨
    ∃ ring, d.waiting = [] ∧
      (d.mBulkUrbList i).transferBuffer.length ≤
        d.mReadBuffCircular.mBufflen - d.mReadBuffCircular.occupancy ∧
      addToReadMemList d.mReadBuffCircular (d.mBulkUrbList i).transferBuffer = (true, ring) ∧
      ring.Inv ∧
      ring.contents = d.mReadBuffCircular.contents ++ (d.mBulkUrbList i).transferBuffer ∧
      d.storeOrQueue usbSubmitUrb i =
        (true, { ((d.storedUrb i ring).completeIoReads usbSubmitUrb d.mIoReadBuffListActive).2 with
          mIoReadBuffListActive :=
            ((d.storedUrb i ring).completeIoReads usbSubmitUrb d.mIoReadBuffListActive).1 }) := by
  have hdata : (d.mBulkUrbList i).transferBuffer ≠ [] := hl.nonempty i (by simp)
  by_cases hsize : 0 < d.mBulkUrbBuffListSize
  · left
    simp [storeOrQueue, hsize]
  · by_cases hfit : (d.mBulkUrbList i).transferBuffer.length ≤
        d.mReadBuffCircular.mBufflen - d.mReadBuffCircular.occupancy
    · obtain ⟨ring, hadd, hinv, hcont⟩ :=
        addToReadMemList_accept hl.ring (List.length_pos_iff.mpr hdata) hfit
      have hnone : d.waiting = [] := by
        have hlen : d.queued.length = 0 := by rw [← ho.size]; omega
        simp [waiting, List.eq_nil_of_length_eq_zero hlen]
      refine .inr ⟨ring, hnone, hfit, hadd, hinv, hcont, ?_⟩
      simp only [storeOrQueue, hsize, if_false, hadd]
      rfl
    · left
      have hadd := addToReadMemList_refuse hl.ring (Nat.not_le.mp hfit)
      simp [storeOrQueue, hsize, hadd]

theorem Kept.setActive (h : Kept live held taken d) (as : List IoRead) :
    Kept live held taken { d with mIoReadBuffListActive := as } := by
  obtain ⟨ho, hl⟩ := h
  exact ⟨⟨ho.opened, ho.nodes, ho.size, ho.nodup, ho.flight, ho.circulates, ho.initialized,
    ho.mirror⟩, ⟨hl.ring, hl.order, hl.contents, hl.submits, hl.nonempty⟩⟩

/-- `BlkCallback` keeps the accounts if the async reads it completes do. -/
theorem blkCallback_accounted (h : Accounted live [] rel d) (status : Int) (data : List UInt8)
    (hsub : live → ∀ i, usbSubmitUrb i = 0) (hflight : (d.mBulkUrbList i).inFlight = true)
    (hstatus : live → status = 0 ∨ status = negEoverflow)
    (hcopy : ∀ d n, n < 2 ^ 32 → Accounted live [i] rel d →
      Accounted live [i] rel (d.copyFromReadMemList usbSubmitUrb n copyOk)) :
    Accounted live [] rel (d.blkCallback usbSubmitUrb i status data) := by
  obtain ⟨taken, hrel, hk⟩ := h
  have hback : Kept live [i] taken (d.giveBack i data) := giveBack_kept hk hflight
  have hopen : ¬ (d.giveBack i data).mRefCount < 2 := Nat.not_lt.mpr hback.1.opened
  have hbuf : ((d.giveBack i data).mBulkUrbList i).transferBuffer = data := by simp [giveBack]
  simp only [blkCallback, hopen, if_false]
  split_ifs with hfail hempty
  · -- the USB core keeps a URB that failed
    have hdead : ¬ live := by
      intro hlive
      exact (hstatus hlive).elim hfail.1 hfail.2
    exact ⟨taken, hrel, hback.drop hdead⟩
  · exact ⟨taken, by simpa [giveBack, SQTIDevUSB.setUrb] using hrel,
      resubmitBulkURB_kept hback fun hlive => hsub hlive i⟩
  · have ho : Owned live ((d.giveBack i data).record (.completed i data)) [i] := hback.1.record
    have hl : ((d.giveBack i data).record (.completed i data)).Logged [i] taken := by
      have hreceived := hback.2.received (i := i) (by simpa [hbuf] using hempty)
      rwa [hbuf] at hreceived
    have hsame : handedOut ((d.giveBack i data).record (.completed i data)).log =
        handedOut d.log := handedOut_record (by simp)
    rcases storeOrQueue_cases ho hl with hqueue | ⟨ring, hnone, -, -, hinv, hcont, hstore⟩
    · rw [hqueue]
      exact ⟨taken, by simpa [hsame] using hrel, ho.addToQueue, hl.addToQueue ho⟩
    · rw [hstore]
      have hstored : Accounted live [i] rel
          (((d.giveBack i data).record (.completed i data)).storedUrb i ring) := by
        refine ⟨taken, ?_, ho.storedUrb, hl.storedUrb hnone hinv hcont⟩
        rw [handedOut_storedUrb, hsame]
        exact hrel
      obtain ⟨taken', hrel', hk'⟩ := completeIoReads_inv (P := Accounted live [i] rel) (by
          intro d a hd
          exact hcopy d _ (aioLength_lt hd.choose_spec.2.2.ring a) hd)
        ((d.giveBack i data).record (.completed i data)).mIoReadBuffListActive hstored
      refine ⟨taken', ?_, resubmitBulkURB_kept (hk'.setActive _) fun hlive => hsub hlive i⟩
      simpa using hrel'

/-! ## The first submission -/

/-- A device just opened: nothing received, nothing queued, every URB idle. -/
structure Opened (d : SQTIDevUSB) : Prop where
  opened : 2 ≤ d.mRefCount
  ring : ∃ r, d.mReadBuffCircular = clearReadMemList r
  nodes : d.mBulkUrbBuffList = List.replicate bulkUrbList none
  size : d.mBulkUrbBuffListSize = 0
  idle : ∀ i, (d.mBulkUrbList i).mUrbStatus = .idle ∧ (d.mBulkUrbList i).inFlight = false
  log : d.log = []

theorem Opened.queued (h : d.Opened) : d.queued = [] := by
  simp [SQTIDevUSB.queued, h.nodes]

theorem Opened.kept (h : d.Opened) : Kept live (List.finRange bulkUrbList) [] d := by
  have hq := h.queued
  have hw : d.waiting = [] := by simp [waiting, hq]
  obtain ⟨r, hr⟩ := h.ring
  refine ⟨⟨h.opened, ?_, ?_, ?_, ?_, ?_, ?_, ?_⟩, ⟨?_, ?_, ?_, ?_, ?_⟩⟩
  · simp [hq, h.nodes]
  · simp [hq, h.size]
  · simpa [hw] using List.nodup_finRange bulkUrbList
  · intro i
    simp [(h.idle i).2]
  · intro _ i
    simp [hw]
  · intro i
    rw [(h.idle i).1]
    rfl
  · simp [hq]
  · rw [hr]
    exact SReadMemListCircular.clearReadMemList_inv r
  · simp [h.log, hw, completions, stores]
  · simp [h.log, hr, stores, payload]
  · intro past i rest heq
    simp [h.log] at heq
  · simp [hw]

/-- `SubmitAllReadUrb` hands the URBs to the USB core one by one. -/
theorem submitFrom_kept (is : List (Fin bulkUrbList)) (h : Kept live is taken d)
    (hidle : ∀ i ∈ is, (d.mBulkUrbList i).mUrbStatus = .idle) :
    Kept live [] taken (d.submitFrom submitOk is) := by
  induction is generalizing d with
  | nil => exact h
  | cons i is ih =>
    have hi : (d.mBulkUrbList i).mUrbStatus = .idle := hidle i (by simp)
    have hstep : d.submitFrom submitOk (i :: is) =
        (d.submitPopped submitOk i).submitFrom submitOk is := by
      simp [submitFrom, submitPopped, resubmitBulkURB, submitOk, hi, UrbStatus.idle]
    have hnodup : (i :: is).Nodup := (List.nodup_append.mp h.1.nodup).2.1
    rw [hstep]
    apply ih (submitPopped_kept h (fun _ => rfl) hi)
    intro j hj
    have hji : j ≠ i := by
      rintro rfl
      exact (List.nodup_cons.mp hnodup).1 hj
    rw [submitPopped_eq hi, if_pos (show submitOk i = 0 from rfl)]
    change ((d.setUrb i _).mBulkUrbList j).mUrbStatus = .idle
    rw [setUrb_of_ne _ hji]
    exact hidle j (by simp [hj])

/-! ## Every run -/

/-- The accounts of a state: every URB is in flight or waits in one node, the nodes in use
come first and in the order of the completions, and what is not stored yet is what waits. -/
structure UrbAccounting (d : SQTIDevUSB) : Prop where
  once : ∀ i, ((d.mBulkUrbList i).inFlight = true ∧ d.waiting.count i = 0) ∨
    ((d.mBulkUrbList i).inFlight = false ∧ d.waiting.count i = 1)
  size : d.mBulkUrbBuffListSize = d.queued.length
  front : d.mBulkUrbBuffList =
    d.queued.map some ++ List.replicate (bulkUrbList - d.queued.length) none
  order : completions d.log = stores d.log ++
    d.waiting.map fun i => (i, (d.mBulkUrbList i).transferBuffer)
  entered : d.mReadBuffCircular.contents <:+ payload (stores d.log)
  resubmit : SubmitsStored d.log

theorem Kept.accounting (h : Kept True [] taken d) : d.UrbAccounting := by
  obtain ⟨ho, hl⟩ := h
  have hnodup : d.waiting.Nodup := by simpa using ho.nodup
  refine ⟨?_, ho.size, ho.nodes, by simpa using hl.order, ⟨taken, hl.contents⟩, hl.submits⟩
  intro i
  have hflight : (d.mBulkUrbList i).inFlight = true ↔ i ∉ d.waiting :=
    ⟨fun hi => by simpa using ho.flight i hi, fun hi => ho.circulates trivial i (by simpa using hi)⟩
  by_cases hmem : i ∈ d.waiting
  · right
    exact ⟨by simpa [hmem] using hflight, List.count_eq_one_of_mem hnodup hmem⟩
  · left
    exact ⟨hflight.mpr hmem, List.count_eq_zero_of_not_mem hmem⟩

end SQTIDevUSB

open SQTIDevUSB

/-- What happens to an open device: a URB completes, a reader reads, an async read is
queued. -/
inductive RxOp
  | complete (i : Fin bulkUrbList) (status : Int) (data : List UInt8)
  | read (n : Nat) (copy : List UInt8 → Bool)
  | queueIo (a : IoRead)

/-- The receive side with a USB core that accepts every URB. Only a URB in flight can
complete. -/
def rxStep : Machine SQTIDevUSB RxOp Unit
  | d, .complete i status data =>
    if (d.mBulkUrbList i).inFlight then some (d.blkCallback submitOk i status data, ()) else none
  | d, .read n copy => some (d.copyFromReadMemList submitOk n copy, ())
  | d, .queueIo a =>
    some ({ d with mIoReadBuffListActive := d.mIoReadBuffListActive ++ [a] }, ())

/-- Completions that bring data, and reads of a size the kernel passes on. A URB that
overflowed its buffer brings data too. -/
def RxOp.WithData : RxOp → Prop
  | .complete _ status data => data ≠ [] ∧ (status = 0 ∨ status = negEoverflow)
  | .read n _ => n < 2 ^ 32
  | .queueIo _ => True

/-- Reads of any kind keep the URBs and the log in agreement. -/
theorem rxStep_accounted {d d' : SQTIDevUSB} {op : RxOp} {o : Unit}
    (h : Accounted True [] (fun _ _ => True) d) (hop : op.WithData)
    (hstep : rxStep d op = some (d', o)) : Accounted True [] (fun _ _ => True) d' := by
  have hcopy {held : List (Fin bulkUrbList)} (d : SQTIDevUSB) (n : Nat) (hn : n < 2 ^ 32)
      (copy : List UInt8 → Bool) (hd : Accounted True held (fun _ _ => True) d) :
      Accounted True held (fun _ _ => True) (d.copyFromReadMemList submitOk n copy) := by
    obtain ⟨taken, -, hk⟩ := hd
    obtain ⟨taken', hk'⟩ := copyFromReadMemList_kept hk (fun _ _ => rfl) hn copy
    exact ⟨taken', trivial, hk'⟩
  cases op with
  | complete i status data =>
    simp only [rxStep] at hstep
    split at hstep
    · rename_i hflight
      cases hstep
      exact blkCallback_accounted h status data (fun _ _ => rfl) hflight (fun _ => hop.2)
        fun d n hn hd => hcopy d n hn copyOk hd
    · cases hstep
  | read n copy =>
    cases hstep
    exact hcopy d n hop copy h
  | queueIo a =>
    cases hstep
    obtain ⟨taken, -, hk⟩ := h
    exact ⟨taken, trivial, hk.setActive _⟩

/-- Back-pressured URBs are neither lost nor reordered. -/
theorem urbs_accounted (d : SQTIDevUSB) (h : d.Opened) (ops : List RxOp)
    (hops : ∀ op ∈ ops, op.WithData) :
    ∀ d' ∈ rxStep.visits (d.submitAllReadUrb submitOk) ops, d'.UrbAccounting := by
  have hstart : Accounted True [] (fun _ _ => True) (d.submitAllReadUrb submitOk) :=
    ⟨[], trivial, submitFrom_kept _ h.kept fun i _ => (h.idle i).1⟩
  have hall := Machine.visits_all (M := rxStep) (P := Accounted True [] fun _ _ => True)
    (fun _ _ _ _ hk hop hstep => rxStep_accounted hk hop hstep) hstart hops
  intro d' hd'
  obtain ⟨taken, -, hk⟩ := hall d' hd'
  exact hk.accounting

/-- A device just opened, for the examples. -/
def openedDevice : SQTIDevUSB where
  mReadBuffCircular := clearReadMemList ⟨fun _ => 0, 0, 0, 0, true⟩
  mBulkUrbList := fun _ => ⟨.idle, [], false⟩
  mBulkUrbBuffList := List.replicate bulkUrbList none
  mBulkUrbBuffListSize := 0
  mIoReadBuffListActive := []
  mRefCount := 2
  log := []

theorem openedDevice_opened : openedDevice.Opened :=
  ⟨by decide, ⟨_, rfl⟩, rfl, rfl, fun _ => ⟨rfl, rfl⟩, rfl⟩

theorem urbs_accounted_two :
    ∃ d' ∈ rxStep.visits (openedDevice.submitAllReadUrb submitOk)
      [.complete 1 0 [7, 8], .queueIo ⟨3, true⟩, .complete 0 0 [9], .read 4 copyOk],
      d'.UrbAccounting ∧ handedOut d'.log = [7, 8, 9] := by
  have hlast := List.getLast_mem (List.ne_nil_of_mem (Machine.start_mem_visits (M := rxStep)
    (openedDevice.submitAllReadUrb submitOk)
    [.complete 1 0 [7, 8], .queueIo ⟨3, true⟩, .complete 0 0 [9], .read 4 copyOk]))
  refine ⟨_, hlast, ?_, by decide +kernel⟩
  exact urbs_accounted openedDevice openedDevice_opened _ (by simp [RxOp.WithData]) _ hlast

end QtiUsb
