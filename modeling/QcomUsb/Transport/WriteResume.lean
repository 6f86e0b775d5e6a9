-- SUMMARY: When the outbound stream stays intact across flow control: interrupted transfers begin with their write, and nothing is taken past one.
import QcomUsb.Transport.WriteStream

/-!
# The outbound stream across flow control

A completed buffer's write is completed, or keeps its record under flow off. When all buffers are
back, the records go in front of the data queue again, and the next transfer of the first one
begins where USB stopped.
-/

namespace Transport.Mwt

open OutboundStream Transition

namespace State

variable {cfg : Cfg} {s t : State} {b : Nat} {sent waiting failed out : List SentIrp} {r : SentIrp}

/-! ## A buffer that is processed -/

/-- The processed buffer is idle, and what is not about its write is the same. -/
structure Processed (s t : State) (b : Nat) : Prop where
  tracked : t.Tracked
  pending : t.mWritePendingQueue = s.mWritePendingQueue
  completion : t.mWriteCompletionQueue = s.mWriteCompletionQueue.erase b
  phase : t.phase = .loopHead
  buffers : ∀ c, c ≠ b → t.pMwtBuffer c = s.pMwtBuffer c
  accepted : t.accepted = s.accepted
  submitted : t.submitted = s.submitted
  taken : t.taken = s.taken
  cancel : t.io.cancel = s.io.cancel
  present : t.presentAndStarted = s.presentAndStarted
  bCancelled : t.bCancelled = s.bCancelled
  bPurged : t.bPurged = s.bPurged
  wild : t.wild = s.wild

theorem Processed.calm (h : s.Processed t b) (hs : s.Calm) : t.Calm where
  present := h.present.trans hs.present
  notCancelled := h.bCancelled.trans hs.notCancelled
  notPurged := h.bPurged.trans hs.notPurged
  uncancelled := fun irp => (congrFun h.cancel irp).trans (hs.uncancelled irp)
  sound := h.wild.trans hs.sound

theorem Processed.hand (h : s.Processed t b) : t.hand = none ∧ t.handBuf = none := by
  simp [State.hand, handBuf, h.phase]

/-- The other transfers are the same. -/
theorem Processed.sameTransfer (h : s.Processed t b) {c : Nat} (hne : c ≠ b) :
    SameTransfer (s.pMwtBuffer c) (t.pMwtBuffer c) := by
  rw [h.buffers c hne]
  exact .refl _

/-- What the line says of the first writes in it. -/
theorem Line.accepted_eq (h : s.Line cfg sent waiting failed out) :
    s.accepted = s.done ++ (sent.filterMap SentIrp.sentIrp ++ (waiting.filterMap SentIrp.sentIrp ++
      (failed.filterMap SentIrp.sentIrp ++ (out.filterMap SentIrp.sentIrp ++
        (s.hand.toList ++ s.writeDataQueue))))) := by
  rw [h.accepted, gone, map_fst_undone, List.append_assoc]

/-- A write stands in line once. -/
theorem ne_of_nodup {irps irps' : List Irp} {irp : Option Irp}
    (h : (irps ++ (irp.toList ++ irps')).Nodup) : ∀ j ∈ irps ++ irps', irp ≠ some j := by
  rintro j hj rfl
  have hperm : (irps ++ (j :: irps')).Perm (j :: (irps ++ irps')) := List.perm_middle
  exact (List.nodup_cons.mp (hperm.nodup_iff.mp h)).1 hj

theorem filterMap_sentIrp_cons (r : SentIrp) (records : List SentIrp) :
    (r :: records).filterMap SentIrp.sentIrp =
      r.sentIrp.toList ++ records.filterMap SentIrp.sentIrp := by
  cases hsent : r.sentIrp <;> simp [hsent]

/-- The write of a transfer that came back whole is completed. -/
theorem Line.retire (h : s.Line cfg (r :: sent) [] failed out) (hp : s.Processed t r.mwtBuf)
    (hhand : s.hand = none ∧ s.handBuf = none)
    (hrecords : t.mwtSentIrpQueue = sent ++ (failed ++ out))
    (hqueue : t.writeDataQueue = s.writeDataQueue) (hdone : t.done = s.done ++ r.sentIrp.toList)
    (hall : ∀ irp, r.sentIrp = some irp → t.information irp = irp.payload.length)
    (hother : ∀ irp, r.sentIrp ≠ some irp → t.information irp = s.information irp ∧
      t.io.installed irp = s.io.installed irp)
    (hzero : t.bSendZeroLength = s.bSendZeroLength)
    (hstate : t.mwtState = .working ∨ t.mwtState = .flowOff) : t.Line cfg sent [] failed out := by
  have hret : r.irpReturned = false := h.outstanding r (by simp)
  have hold : s.mwtSentIrpQueue = [] ++ r :: (sent ++ (failed ++ out)) := h.records
  have hmem : ∀ x ∈ sent ++ (failed ++ out), x ∈ r :: sent ++ (failed ++ out) := fun x hx =>
    List.mem_cons_of_mem r hx
  have hne : ∀ x ∈ sent ++ (failed ++ out), x.mwtBuf ≠ r.mwtBuf := fun x hx =>
    h.buf_ne hold hret hx (h.outstanding x (hmem x hx))
  have hdistinct : ∀ j ∈ s.done ++ (sent.filterMap SentIrp.sentIrp ++
      (failed.filterMap SentIrp.sentIrp ++ (out.filterMap SentIrp.sentIrp ++
        (s.hand.toList ++ s.writeDataQueue)))), r.sentIrp ≠ some j := by
    have hnodup := h.nodup
    rw [h.accepted_eq, filterMap_sentIrp_cons, List.append_assoc] at hnodup
    exact ne_of_nodup hnodup
  have hsentIrp : ∀ x ∈ sent ++ (failed ++ out), ∀ j, x.sentIrp = some j → r.sentIrp ≠ some j := by
    refine fun x hx j hj => hdistinct j (List.mem_append_right _ ?_)
    simp only [List.mem_append, List.mem_filterMap] at hx ⊢
    exact hx.imp (fun hx => ⟨x, hx, hj⟩) fun hx =>
      hx.imp (fun hx => ⟨x, hx, hj⟩) fun hx => .inl ⟨x, hx, hj⟩
  have hnew : ∀ j ∈ t.done, j ∈ s.done ∨ r.sentIrp = some j := by
    rw [hdone]
    exact fun j hj => (List.mem_append.mp hj).imp_right Option.mem_toList.mp
  have hundone : t.undone [] failed out = s.undone [] failed out := by
    refine undone_congr (fun j hj => (hother j ?_).1)
      (fun x hx => (hp.sameTransfer (hne x ?_)).transferBufferLength) ?_
    · rw [map_fst_undone] at hj
      exact hdistinct j (List.mem_append_right _ (List.mem_append_right _ hj))
    · exact List.mem_append_right _ (List.mem_append_left _ hx)
    · rw [hp.hand.1, hhand.1, hqueue]
  have hgone : t.gone sent = s.gone (r :: sent) := by
    rw [gone, hdone, gone, filterMap_sentIrp_cons, List.append_assoc]
  have hlength : ∀ x ∈ out, (t.pMwtBuffer x.mwtBuf).length = (s.pMwtBuffer x.mwtBuf).length :=
    fun x hx => (hp.sameTransfer
      (hne x (List.mem_append_right _ (List.mem_append_right _ hx)))).length
  exact {
    tracked := hp.tracked
    records := hrecords
    returned := h.returned
    outstanding := fun x hx => h.outstanding x (hmem x hx)
    completion := by
      rw [hp.completion, h.completion, List.cons_append, List.map_cons, List.erase_cons_head]
    pending := by rw [hp.pending, h.pending, hhand.2, hp.hand.2]
    first := .inr rfl
    toTransfers := by
      refine (Transfers.mk (fun x hx => h.attached x (hmem x hx))
        (fun x hx => h.sentWhole x (List.mem_cons_of_mem r hx)) h.failedShort).congr
        (fun x hx => hp.sameTransfer (hne x hx)) fun x hx j hj => (hother j ?_).1
      exact hsentIrp x hx j hj
    toCalm := hp.calm h.toCalm
    nodup := hp.accepted ▸ h.nodup
    submitted := by
      rw [hp.accepted, hp.submitted]
      exact h.submitted
    kept := fun j hj => by
      rw [hp.accepted] at hj
      rcases eq_or_ne r.sentIrp (some j) with heq | hj'
      · exact .inl (by simp [hdone, heq])
      · rw [(hother j hj').1, (hother j hj').2, hdone]
        exact (h.kept j hj).imp_left (List.mem_append_left _)
    information := fun j hj => by
      rcases hnew j hj with hold | heq
      · rw [(hother j (hdistinct j (List.mem_append_left _ hold))).1]
        exact h.information j hold
      · exact hall j heq
    le := fun j => by
      rcases eq_or_ne r.sentIrp (some j) with heq | hj
      · exact Nat.le_of_eq (hall j heq)
      · exact (hother j hj).1 ▸ h.le j
    total := fun x hx => h.total x (by
      rw [hold]
      exact List.mem_cons_of_mem r (hrecords ▸ hx))
    accepted := by
      rw [hp.accepted, hgone, hundone]
      exact h.accepted
    delivered := by
      rw [hgone, hundone, takenBytes, hp.taken]
      exact h.delivered
    zeroLength := by
      obtain ⟨owed, hmarked, howes⟩ := h.zeroLength
      exact ⟨owed, hp.taken ▸ hmarked, howes.congr hlength hzero⟩
    hand := by simp [hp.phase]
    mwtState := hstate.imp_left fun hstate => ⟨hstate, rfl⟩ }

/-! ## A transfer that failed -/

/-- The write of a transfer that failed has come as far as the transfer. -/
structure Advanced (s t : State) (r : SentIrp) : Prop where
  come : ∀ irp, r.sentIrp = some irp →
    t.information irp = (s.pMwtBuffer r.mwtBuf).transferBufferLength
  other : ∀ irp, r.sentIrp ≠ some irp → t.information irp = s.information irp
  done : t.done = s.done
  installed : t.io.installed = s.io.installed

theorem Line.distinct (h : s.Line cfg [] waiting (r :: failed) out) :
    ∀ j ∈ s.done ++ waiting.filterMap SentIrp.sentIrp ++ (failed.filterMap SentIrp.sentIrp ++
      (out.filterMap SentIrp.sentIrp ++ (s.hand.toList ++ s.writeDataQueue))),
      r.sentIrp ≠ some j := by
  have hnodup := h.nodup
  rw [h.accepted_eq, filterMap_sentIrp_cons, List.filterMap_nil, List.nil_append,
    List.append_assoc, ← List.append_assoc] at hnodup
  exact ne_of_nodup hnodup

theorem Line.advancedBooks (h : s.Line cfg [] waiting (r :: failed) out)
    (hp : s.Processed t r.mwtBuf)
    (ha : s.Advanced t r) : t.Books := by
  have hfailed := h.failedShort r (by simp)
  have hattached := h.attached r (by simp)
  have hlength : ∀ j, r.sentIrp = some j → (s.pMwtBuffer r.mwtBuf).length = j.payload.length := by
    intro j hj
    rw [(hattached.data j hj).2, hfailed.begins j hj, Nat.sub_zero]
  exact {
    nodup := hp.accepted ▸ h.nodup
    submitted := by
      rw [hp.accepted, hp.submitted]
      exact h.submitted
    kept := fun j hj => by
      rw [hp.accepted] at hj
      rw [ha.done, ha.installed]
      refine (h.kept j hj).imp_right fun hkept => ⟨hkept.1, ?_⟩
      rcases eq_or_ne r.sentIrp (some j) with heq | hj'
      · rw [ha.come j heq, ← hlength j heq]
        rcases hfailed.short with hshort | hempty
        · exact .inr hshort
        · exact .inl (Nat.le_zero.mp (hempty ▸ hfailed.le))
      · rw [ha.other j hj']
        exact hkept.2
    information := fun j hj => by
      rw [ha.done] at hj
      rw [ha.other j (h.distinct j (List.mem_append_left _ (List.mem_append_left _ hj)))]
      exact h.information j hj
    le := fun j => by
      rcases eq_or_ne r.sentIrp (some j) with heq | hj
      · rw [ha.come j heq, ← hlength j heq]
        exact hfailed.le
      · exact ha.other j hj ▸ h.le j }

/-- Behind the transfer that failed, the line is the same. -/
theorem Line.advancedProgress (h : s.Line cfg [] waiting (r :: failed) out) (ha : s.Advanced t r) :
    progress t.byInformation waiting = progress s.byInformation waiting ∧
      progress t.byInformation [r] = progress s.byTransfer [r] ∧
      progress t.byInformation out = progress s.byInformation out ∧
      (s.hand.toList ++ s.writeDataQueue).map (fun irp => (irp, t.information irp)) =
        (s.hand.toList ++ s.writeDataQueue).map fun irp => (irp, s.information irp) := by
  have hother : ∀ j, j ∈ s.done ++ waiting.filterMap SentIrp.sentIrp ++
      (failed.filterMap SentIrp.sentIrp ++ (out.filterMap SentIrp.sentIrp ++
        (s.hand.toList ++ s.writeDataQueue))) → t.information j = s.information j :=
    fun j hj => ha.other j (h.distinct j hj)
  refine ⟨progress_congr fun x hx j hj => hother j ?_, progress_congr fun x hx j hj => ?_,
    progress_congr fun x hx j hj => hother j ?_, List.map_congr_left fun j hj => ?_⟩
  · exact List.mem_append_left _ (List.mem_append_right _ (List.mem_filterMap.mpr ⟨x, hx, hj⟩))
  · obtain rfl := List.mem_singleton.mp hx
    exact ha.come j hj
  · exact List.mem_append_right _ (List.mem_append_right _
      (List.mem_append_left _ (List.mem_filterMap.mpr ⟨x, hx, hj⟩)))
  · rw [hother j (List.mem_append_right _ (List.mem_append_right _ (List.mem_append_right _ hj)))]

/-- The record of a transfer that failed has returned. -/
theorem Line.keep (h : s.Line cfg [] waiting (r :: failed) out) (hp : s.Processed t r.mwtBuf)
    (ha : s.Advanced t r) (hhand : s.hand = none ∧ s.handBuf = none)
    (hrecords : t.mwtSentIrpQueue = waiting ++ { r with irpReturned := true } :: (failed ++ out))
    (hqueue : t.writeDataQueue = s.writeDataQueue)
    (hzero : t.bSendZeroLength = s.bSendZeroLength) (hstate : t.mwtState = .flowOff) :
    t.Line cfg [] (waiting ++ [{ r with irpReturned := true }]) failed out := by
  have hret : r.irpReturned = false := h.outstanding r (by simp)
  have hold : s.mwtSentIrpQueue = waiting ++ r :: (failed ++ out) := h.records
  have hmem : ∀ x ∈ failed ++ out, x ∈ r :: (failed ++ out) := fun x hx =>
    List.mem_cons_of_mem r hx
  have hne : ∀ x ∈ failed ++ out, x.mwtBuf ≠ r.mwtBuf := fun x hx =>
    h.buf_ne hold hret (List.mem_append_right _ hx) (h.outstanding x (hmem x hx))
  have hsentIrp : ∀ x ∈ failed ++ out, ∀ j, x.sentIrp = some j → r.sentIrp ≠ some j := by
    refine fun x hx j hj => h.distinct j (List.mem_append_right _ ?_)
    simp only [List.mem_append, List.mem_filterMap] at hx ⊢
    exact hx.imp (fun hx => ⟨x, hx, hj⟩) fun hx => .inl ⟨x, hx, hj⟩
  have hlength : ∀ x ∈ out, (t.pMwtBuffer x.mwtBuf).length = (s.pMwtBuffer x.mwtBuf).length :=
    fun x hx => (hp.sameTransfer (hne x (List.mem_append_right _ hx))).length
  have hundone : t.undone (waiting ++ [{ r with irpReturned := true }]) failed out =
      s.undone waiting (r :: failed) out := by
    obtain ⟨hwaiting, hr, hout, hdata⟩ := h.advancedProgress ha
    have hfailed : progress t.byTransfer failed = progress s.byTransfer failed :=
      progress_congr fun x hx _ _ =>
        (hp.sameTransfer (hne x (List.mem_append_left _ hx))).transferBufferLength
    have hmarked : progress t.byInformation [{ r with irpReturned := true }] =
        progress s.byTransfer [r] := hr
    rw [undone, hp.hand.1, hqueue, ← hhand.1, hdata, ahead, progress_append, hwaiting, hmarked,
      hfailed, hout, undone, ahead, progress_cons _ r failed]
    simp only [List.append_assoc]
  have hgone : t.gone [] = s.gone [] := by rw [gone, ha.done, gone]
  exact {
    tracked := hp.tracked
    records := by simp [hrecords]
    returned := fun x hx => by
      rcases List.mem_append.mp hx with hx | hx
      · exact h.returned x hx
      · rw [List.mem_singleton.mp hx]
    outstanding := fun x hx => h.outstanding x (hmem x hx)
    completion := by
      rw [hp.completion, h.completion, List.nil_append, List.map_cons, List.erase_cons_head,
        List.nil_append]
    pending := by rw [hp.pending, h.pending, hhand.2, hp.hand.2]
    first := .inl rfl
    toTransfers := by
      refine (Transfers.mk (fun x hx => h.attached x (hmem x hx)) h.sentWhole
        (fun x hx => h.failedShort x (List.mem_cons_of_mem r hx))).congr
        (fun x hx => hp.sameTransfer (hne x hx)) fun x hx j hj => ha.other j ?_
      exact hsentIrp x hx j hj
    toCalm := hp.calm h.toCalm
    toBooks := h.advancedBooks hp ha
    total := fun x hx j hj => by
      rw [hrecords] at hx
      rcases List.mem_append.mp hx with hx | hx
      · exact h.total x (hold ▸ List.mem_append_left _ hx) j hj
      · rcases List.mem_cons.mp hx with rfl | hx
        · exact h.total r (hold ▸ List.mem_append_right _ List.mem_cons_self) j hj
        · exact h.total x (hold ▸ List.mem_append_right _ (List.mem_cons_of_mem r hx)) j hj
    accepted := by
      rw [hp.accepted, hgone, hundone]
      exact h.accepted
    delivered := by
      rw [hgone, hundone, takenBytes, hp.taken]
      exact h.delivered
    zeroLength := by
      obtain ⟨owed, hmarked, howes⟩ := h.zeroLength
      refine ⟨owed, hp.taken ▸ hmarked, ?_⟩
      cases waiting with
      | nil => exact howes
      | cons x waiting => exact howes
    hand := by simp [hp.phase]
    mwtState := .inr hstate }

/-- The records go back to the data queue. -/
theorem Line.goBack (h : s.Line cfg [] waiting [r] []) (hp : s.Processed t r.mwtBuf)
    (ha : s.Advanced t r) (hhand : s.hand = none ∧ s.handBuf = none)
    (hrecords : t.mwtSentIrpQueue = [])
    (hqueue : t.writeDataQueue = (waiting ++ [r]).filterMap SentIrp.sentIrp ++ s.writeDataQueue)
    (hzero : ∀ x ∈ (waiting ++ [r]).head?, x.sentIrp.isNone = t.bSendZeroLength)
    (hstate : t.mwtState = .working) : t.Line cfg [] [] [] [] := by
  have hundone : t.undone [] [] [] = s.undone waiting [r] [] := by
    obtain ⟨hwaiting, hr, -, hdata⟩ := h.advancedProgress ha
    have hmap : ∀ records : List SentIrp,
        (records.filterMap SentIrp.sentIrp).map (fun irp => (irp, t.information irp)) =
          progress t.byInformation records := by
      intro records
      rw [List.map_filterMap]
      rfl
    rw [hhand.1, Option.toList_none, List.nil_append] at hdata
    rw [undone, hp.hand.1, hqueue, Option.toList_none, List.nil_append, List.map_append, hmap,
      progress_append, hwaiting, hr, hdata, undone, hhand.1]
    simp [ahead]
  have hgone : t.gone [] = s.gone [] := by rw [gone, ha.done, gone]
  exact {
    tracked := hp.tracked
    records := hrecords
    returned := by simp
    outstanding := by simp
    completion := by
      rw [hp.completion, h.completion, List.nil_append, List.map_cons, List.erase_cons_head]
      rfl
    pending := by rw [hp.pending, h.pending, hhand.2, hp.hand.2]
    first := .inl rfl
    toTransfers := ⟨by simp, by simp, by simp⟩
    toCalm := hp.calm h.toCalm
    toBooks := h.advancedBooks hp ha
    total := by simp [hrecords]
    accepted := by
      rw [hp.accepted, hgone, hundone]
      exact h.accepted
    delivered := by
      rw [hgone, hundone, takenBytes, hp.taken]
      exact h.delivered
    zeroLength := by
      obtain ⟨owed, hmarked, howes⟩ := h.zeroLength
      refine ⟨owed, hp.taken ▸ hmarked, ?_⟩
      cases waiting with
      | nil => exact howes.symm.trans (hzero r rfl)
      | cons x waiting => exact howes.symm.trans (hzero x rfl)
    hand := by simp [hp.phase]
    mwtState := .inl ⟨hstate, rfl⟩ }

/-! ## Processing a buffer -/

theorem requeue_nil (h : s.mwtSentIrpQueue = []) : s.requeue = s := by
  have hzero : s.zeroLengthByHead = s.bSendZeroLength := by rw [zeroLengthByHead, h]
  simp only [requeue, hzero, h, List.filterMap_nil, List.nil_append, List.length_nil, Nat.add_zero]
  rw [← h]

theorem partialTransfer_success (h : (s.pMwtBuffer b).status = .success) :
    s.partialTransfer b = s := by
  simp only [partialTransfer, h]
  split <;> rfl

/-- A buffer that came back whole takes its record along. -/
theorem Split.returnWrite_whole {after : List SentIrp} (h : s.Split b [] r after)
    (hstatus : s.statusOf b = .success) (hret : ∀ x ∈ after, x.irpReturned = false) :
    s.returnWrite cfg b =
      { s with
        mwtSentIrpQueue := after
        mwtSentIrpRecordPool := s.mwtSentIrpRecordPool + 1 }.writeIrpCompletion cfg b .success := by
  rcases eq_or_ne s.mwtState .flowOff with hstate | hstate
  · rw [h.returnWrite_success hstate hstatus]
    dsimp only
    split
    · rename_i hall
      -- all others have returned, so there is none
      have hnil : after = [] := List.eq_nil_iff_forall_not_mem.mpr fun x hx => by
        simpa [hret x hx] using h.allReturned_iff.mp hall x hx
      refine requeue_nil ?_
      rw [(sameBuffers_writeIrpCompletion cfg _ b .success).records]
      exact hnil
    · rfl
  · rw [h.returnWrite_working hstate, hstatus]
    rfl

theorem writeIrpCompletion_none (h : (s.pMwtBuffer b).callingIrp = none) :
    s.writeIrpCompletion cfg b .success = { s with wtErrorCount := 0 } := by
  simp [writeIrpCompletion, countError, h]

theorem writeIrpCompletion_some {irp : Irp} (h : (s.pMwtBuffer b).callingIrp = some irp)
    (hinst : s.io.installed irp = true) : s.writeIrpCompletion cfg b .success =
      ({ s with wtErrorCount := 0 }.ioSetCancelRoutine irp false).insertWtCompletionQueue irp
        .success (s.information irp + (s.pMwtBuffer b).transferBufferLength) := by
  simp [writeIrpCompletion, countError, h, hinst]

/-- FLOW_OFF state lasts until all records are gone. -/
theorem afterCompletion_calm (h : s.mwtState = .working ∨ s.mwtState = .flowOff) :
    s.afterCompletion =
      { s with
        mwtState := if s.mwtState = .flowOff ∧ s.mwtSentIrpQueue ≠ [] then .flowOff else .working
        phase := .loopHead } := by
  unfold afterCompletion
  rcases h with h | h
  · simp [h, goTo]
  · by_cases hnil : s.mwtSentIrpQueue = [] <;> simp [h, hnil]

theorem Line.processWhole (h : s.Line cfg (r :: sent) [] failed out)
    (hphase : s.phase = .process r.mwtBuf) :
    (s.processCompletion cfg r.mwtBuf).Line cfg sent [] failed out := by
  have htracked := h.tracked.processCompletion cfg hphase
  have hr : r.irpReturned = false := h.outstanding r (by simp)
  have hmem : r ∈ s.mwtSentIrpQueue := h.mem_records (by simp)
  have hcalling : r.sentIrp = (s.pMwtBuffer r.mwtBuf).callingIrp := (h.tracked.record r hmem hr).2.2
  have hold : s.mwtSentIrpQueue = [] ++ r :: (sent ++ (failed ++ out)) := h.records
  have hret : ∀ x ∈ sent ++ (failed ++ out), x.irpReturned = false := fun x hx =>
    h.outstanding x (List.mem_cons_of_mem r hx)
  have hsplit : s.Split r.mwtBuf [] r (sent ++ (failed ++ out)) :=
    ⟨hold, rfl, hr, hcalling, by simp, fun x hx => h.buf_ne hold hr hx (hret x hx)⟩
  have hstatus : (s.pMwtBuffer r.mwtBuf).status = .success := (h.sentWhole r (by simp)).status
  have hcounted : s.statusOf r.mwtBuf = .success := by rw [statusOf, if_pos h.present, hstatus]
  have hstate : s.mwtState = .working ∨ s.mwtState = .flowOff := h.mwtState.imp_left And.left
  have hhand : s.hand = none ∧ s.handBuf = none := by simp [State.hand, handBuf, hphase]
  have hattached := h.attached r (by simp)
  have hcompleted : ∀ irp, r.sentIrp = irp → (State.pMwtBuffer
      { s with
        mwtSentIrpQueue := sent ++ (failed ++ out)
        mwtSentIrpRecordPool := s.mwtSentIrpRecordPool + 1 } r.mwtBuf).callingIrp = irp :=
    fun irp hirp => hcalling.symm.trans hirp
  have hmwtState : ∀ p : Prop, [Decidable p] → (if p then MwtState.flowOff else .working) = .working ∨
      (if p then MwtState.flowOff else .working) = .flowOff := fun p _ => by
    split <;> simp
  unfold State.processCompletion at htracked ⊢
  rw [partialTransfer_success hstatus, hsplit.returnWrite_whole hcounted hret] at htracked ⊢
  cases hsent : r.sentIrp with
  | none =>
    rw [writeIrpCompletion_none (hcompleted none hsent), afterCompletion_calm (by exact hstate)] at htracked ⊢
    refine h.retire ⟨htracked, rfl, rfl, rfl, fun c hne => Function.update_of_ne hne .., rfl, rfl,
      rfl, rfl, rfl, rfl, rfl, rfl⟩ hhand rfl rfl ?_ ?_ ?_ rfl (hmwtState _)
    · simp [hsent, recycle, done]
    · simp [hsent]
    · exact fun _ _ => ⟨rfl, rfl⟩
  | some irp =>
    have haccepted := h.mem_accepted hmem hsent
    have hnotdone : irp ∉ s.done := by
      have hnodup := h.nodup
      rw [h.accepted_eq, filterMap_sentIrp_cons, List.append_assoc] at hnodup
      exact fun hdone => ne_of_nodup hnodup irp (List.mem_append_left _ hdone) hsent
    have hinst : s.io.installed irp = true := ((h.kept irp haccepted).resolve_left hnotdone).1
    rw [writeIrpCompletion_some (hcompleted _ hsent) hinst, afterCompletion_calm (by exact hstate)]
      at htracked ⊢
    refine h.retire ⟨htracked, rfl, rfl, rfl, fun c hne => Function.update_of_ne hne .., rfl, rfl,
      rfl, rfl, rfl, rfl, rfl, rfl⟩ hhand rfl rfl ?_ ?_ ?_ rfl (hmwtState _)
    · simp [hsent, recycle, done, insertWtCompletionQueue, ioSetCancelRoutine]
    · intro j hj
      obtain rfl : irp = j := Option.some.inj (hsent.symm.trans hj)
      have hsum : s.information irp + (s.pMwtBuffer r.mwtBuf).transferBufferLength =
          irp.payload.length := by
        rw [(h.sentWhole r (by simp)).all, (hattached.data irp hsent).2]
        exact Nat.add_sub_cancel' (h.le irp)
      simpa [recycle, insertWtCompletionQueue, ioSetCancelRoutine] using hsum
    · intro j hj
      have hne : j ≠ irp := fun heq => hj (heq ▸ hsent)
      simp [recycle, insertWtCompletionQueue, ioSetCancelRoutine, hne]

/-- A transfer that failed leaves how far it came with its write. -/
theorem Line.partialTransfer (h : s.Line cfg sent waiting (r :: failed) out) :
    ∃ information, s.partialTransfer r.mwtBuf = { s with information := information } ∧
      (∀ irp, r.sentIrp = some irp →
        information irp = (s.pMwtBuffer r.mwtBuf).transferBufferLength) ∧
      ∀ irp, r.sentIrp ≠ some irp → information irp = s.information irp := by
  have hmem : r ∈ sent ++ (r :: failed ++ out) := by simp
  have hcalling : r.sentIrp = (s.pMwtBuffer r.mwtBuf).callingIrp :=
    (h.tracked.record r (h.mem_records hmem) (h.outstanding r hmem)).2.2
  have hfailed := h.failedShort r (by simp)
  simp only [State.partialTransfer, ← hcalling]
  cases hsent : r.sentIrp with
  | none => exact ⟨s.information, rfl, by simp, by simp⟩
  | some irp =>
    simp only [Option.some.injEq]
    split
    · refine ⟨_, rfl, ?_, fun j hj => Function.update_of_ne ?_ ..⟩
      · rintro j rfl
        exact Function.update_self ..
      · exact fun heq => hj (congrArg some heq.symm)
    · rename_i hwhole
      refine ⟨s.information, rfl, ?_, fun _ _ => rfl⟩
      rintro j rfl
      -- a transfer without bytes
      have hempty := hfailed.short.resolve_left fun hshort => hwhole ⟨hfailed.status, hshort⟩
      have hnothing : (s.pMwtBuffer r.mwtBuf).transferBufferLength = 0 :=
        Nat.le_zero.mp (hempty ▸ hfailed.le)
      rw [hfailed.begins irp hsent, hnothing]

/-- The head of the records says whether a zero-length packet is owed. -/
theorem zeroLengthByHead_eq {x : SentIrp} (hx : s.mwtSentIrpQueue.head? = some x)
    (htouched : ∀ irp, x.sentIrp = some irp →
      s.bSendZeroLength = false ∨ 0 < s.information irp ∧ s.information irp < x.totalLength) :
    x.sentIrp.isNone = s.zeroLengthByHead := by
  obtain ⟨rest, hrecords⟩ := List.head?_eq_some_iff.mp hx
  rw [zeroLengthByHead, hrecords]
  dsimp only
  cases hsent : x.sentIrp with
  | none => rfl
  | some irp =>
    rcases htouched irp hsent with hzero | htouched
    · simp [hzero]
    · simp [htouched]

theorem Line.processFailed (h : s.Line cfg [] waiting (r :: failed) out)
    (hphase : s.phase = .process r.mwtBuf) (hstate : s.mwtState = .flowOff)
    (hzero : allReturned s.mwtSentIrpQueue r.mwtBuf = true → s.Untouched r.mwtBuf →
      s.bSendZeroLength = false) :
    ∃ waiting failed out, (s.processCompletion cfg r.mwtBuf).Line cfg [] waiting failed out := by
  have htracked := h.tracked.processCompletion cfg hphase
  have hret : r.irpReturned = false := h.outstanding r (by simp)
  have hmem : r ∈ s.mwtSentIrpQueue := h.mem_records (by simp)
  have hcalling : r.sentIrp = (s.pMwtBuffer r.mwtBuf).callingIrp :=
    (h.tracked.record r hmem hret).2.2
  have hold : s.mwtSentIrpQueue = waiting ++ r :: (failed ++ out) := h.records
  have hbehind : ∀ x ∈ failed ++ out, x.irpReturned = false := fun x hx =>
    h.outstanding x (List.mem_cons_of_mem r hx)
  have hhand : s.hand = none ∧ s.handBuf = none := by simp [State.hand, handBuf, hphase]
  obtain ⟨information, hpart, hcome, hother⟩ := h.partialTransfer
  obtain ⟨u, hu⟩ : ∃ u, u = { s with information := information } := ⟨_, rfl⟩
  have hsplit : u.Split r.mwtBuf waiting r (failed ++ out) := by
    rw [hu]
    exact ⟨hold, rfl, hret, hcalling, fun x hx _ => h.returned x hx, fun x hx =>
      h.buf_ne hold hret (List.mem_append_right _ hx) (hbehind x hx)⟩
  have hstatus : u.statusOf r.mwtBuf ≠ .success := by
    rw [hu, statusOf, if_pos h.present]
    exact (h.failedShort r (by simp)).status
  unfold State.processCompletion at htracked ⊢
  rw [hpart, ← hu, hsplit.returnWrite_failed (hu ▸ hstate) hstatus] at htracked ⊢
  dsimp only at htracked ⊢
  rcases eq_or_ne (allReturned u.mwtSentIrpQueue r.mwtBuf) true with hall | hnotall
  · -- all buffers are back
    rw [if_pos hall] at htracked ⊢
    have hnil : failed ++ out = [] := List.eq_nil_iff_forall_not_mem.mpr fun x hx => by
      simpa [hbehind x hx] using hsplit.allReturned_iff.mp hall x (List.mem_append_right _ hx)
    obtain ⟨rfl, rfl⟩ := List.append_eq_nil_iff.mp hnil
    rw [afterCompletion_calm (by exact .inr (hu ▸ hstate))] at htracked ⊢
    refine ⟨[], [], [], ?_⟩
    subst hu
    have hp : s.Processed _ r.mwtBuf :=
      ⟨htracked, rfl, rfl, rfl, fun c hne => Function.update_of_ne hne .., rfl, rfl, rfl, rfl, rfl,
        rfl, rfl, rfl⟩
    have hbooks := h.advancedBooks hp ⟨hcome, hother, rfl, rfl⟩
    refine h.goBack hp ⟨hcome, hother, rfl, rfl⟩ hhand rfl ?_ (fun x hx => ?_) ?_
    · simp [recycle, requeue, List.filterMap_append, filterMap_sentIrp_cons]
    · have hhead : s.mwtSentIrpQueue.head? = some x := hold ▸ hx
      obtain ⟨x', hx', hsame, htotal⟩ : ∃ x',
          (waiting ++ [{ r with irpReturned := true }]).head? = some x' ∧
            x'.sentIrp = x.sentIrp ∧ x'.totalLength = x.totalLength := by
        cases waiting with
        | nil =>
          obtain rfl : r = x := Option.some.inj hx
          exact ⟨_, rfl, rfl, rfl⟩
        | cons y waiting => exact ⟨x, hx, rfl, rfl⟩
      rw [← hsame]
      refine zeroLengthByHead_eq (s := { s with
        information := information
        mwtSentIrpQueue := waiting ++ [{ r with irpReturned := true }] }) hx' fun irp hirp => ?_
      have hxirp : x.sentIrp = some irp := hsame ▸ hirp
      have hxmem : x ∈ s.mwtSentIrpQueue := List.mem_of_mem_head? hhead
      have hnotdone : irp ∉ s.done := by
        have hnodup := h.nodup
        rw [h.accepted_eq] at hnodup
        refine fun hdone => (List.nodup_append.mp hnodup).2.2 irp hdone irp ?_ rfl
        have hirps : irp ∈ (waiting ++ [r]).filterMap SentIrp.sentIrp :=
          List.mem_filterMap.mpr ⟨x, List.mem_of_mem_head? hx, hxirp⟩
        rw [List.filterMap_append] at hirps
        simp only [List.mem_append] at hirps ⊢
        exact .inr (hirps.imp_right .inl)
      have hpart := ((hbooks.kept irp (h.mem_accepted hxmem hxirp)).resolve_left hnotdone).2
      have htransferred : s.transferred r.mwtBuf irp = information irp := by
        rw [transferred, ← hcalling]
        split
        · exact (hcome irp ‹_›).symm
        · exact (hother irp ‹_›).symm
      rcases hpart with hnothing | hshort
      · exact .inl (hzero hall ⟨x, hhead, irp, hxirp, htransferred.trans hnothing⟩)
      · rcases Nat.eq_zero_or_pos (information irp) with hnothing | hpos
        · exact .inl (hzero hall ⟨x, hhead, irp, hxirp, htransferred.trans hnothing⟩)
        · refine .inr ⟨hpos, ?_⟩
          rw [htotal, h.total x hxmem irp hxirp]
          exact hshort
    · simp [recycle, requeue]
  · rw [if_neg hnotall] at htracked ⊢
    rw [afterCompletion_calm (by exact .inr (hu ▸ hstate))] at htracked ⊢
    refine ⟨waiting ++ [{ r with irpReturned := true }], failed, out, ?_⟩
    subst hu
    refine h.keep ⟨htracked, rfl, rfl, rfl, fun c hne => Function.update_of_ne hne .., rfl, rfl,
      rfl, rfl, rfl, rfl, rfl, rfl⟩ ⟨hcome, hother, rfl, rfl⟩ hhand rfl rfl rfl ?_
    simp [recycle, hstate]

/-! ## Every step -/

/-- The writes stand in some line. -/
def InLine (cfg : Cfg) (s : State) : Prop :=
  ∃ sent waiting failed out, s.Line cfg sent waiting failed out

theorem not_send_of_handBuf (h : s.handBuf = none) :
    s.hand = none ∧ ∀ b irp, s.phase ≠ .send b irp := by
  unfold handBuf at h
  unfold State.hand
  cases hphase : s.phase with
  | send b irp => simp [hphase] at h
  | loopHead | dequeue | wait | process b | exited => simp

variable (cfg) in
/-- Without a stop or a cancel an event leaves FLOW_OFF state at most. -/
theorem consume_calm (s : State) {event : Event}
    (hevent : event ≠ .cancel ∧ event ≠ .purge ∧ event ≠ .stop) :
    (s.consume cfg event).bSendZeroLength = s.bSendZeroLength ∧
      (s.consume cfg event).presentAndStarted = s.presentAndStarted ∧
      (s.consume cfg event).bCancelled = s.bCancelled ∧
      (s.consume cfg event).bPurged = s.bPurged ∧
      ((s.consume cfg event).mwtState = s.mwtState ∨
        (s.consume cfg event).mwtState = .flowOff) := by
  cases event with
  | cancel => exact absurd rfl hevent.1
  | purge => exact absurd rfl hevent.2.1
  | stop => exact absurd rfl hevent.2.2
  | completion =>
    simp only [consume]
    split <;> exact ⟨rfl, rfl, rfl, rfl, .inl rfl⟩
  | cancelCurrent | kick | resume stopped | flowOn stopped => exact ⟨rfl, rfl, rfl, rfl, .inl rfl⟩
  | flowOff =>
    simp only [consume]
    split
    · exact ⟨rfl, rfl, rfl, rfl, .inl rfl⟩
    · exact ⟨rfl, rfl, rfl, rfl, .inr rfl⟩

theorem Line.usbCompletes (h : s.Line cfg sent waiting failed out) {n : Nat} {status : NtStatus}
    (hat : s.atUsb b) (hle : n ≤ (s.pMwtBuffer b).length)
    (hall : status = .success → n = (s.pMwtBuffer b).length)
    (hok : (Op.usbCompletes b n status).Steady s) :
    (s.writeCompletionRoutine b n status).InLine cfg := by
  obtain ⟨hhead, hbegins, hnothing⟩ := hok
  obtain ⟨r, out', rfl, rfl⟩ := h.toRows.outHead hat hhead
  have hquiet : status = .success → waiting = [] ∧ failed = [] := by
    intro hstatus
    have hcalm : ¬ s.Interrupted := fun hint => (hnothing hint).1 hstatus
    simp only [Interrupted, not_or, not_exists, not_and] at hcalm
    refine ⟨List.eq_nil_iff_forall_not_mem.mpr fun x hx => ?_,
      List.eq_nil_iff_forall_not_mem.mpr fun x hx => ?_⟩
    · refine hcalm.1 x ?_ (h.returned x hx)
      rw [h.records]
      exact List.mem_append_right _ (List.mem_append_left _ hx)
    · refine hcalm.2 x.mwtBuf ?_ (h.failedShort x hx).status
      rw [h.completion]
      exact List.mem_map_of_mem (List.mem_append_right _ hx)
  rcases eq_or_ne status .success with rfl | hstatus
  · obtain ⟨rfl, rfl⟩ := hquiet rfl
    exact ⟨_, _, _, _, h.usbSuccess hat (hall rfl)⟩
  · obtain ⟨hoffset, hshort⟩ := hbegins hstatus
    refine ⟨_, _, _, _, h.usbFailure hat hstatus hle hoffset hshort ?_⟩
    rcases List.eq_nil_or_concat (waiting ++ failed) with hnil | hsome
    · exact .inl hnil
    · refine .inr (hnothing ?_).2
      obtain ⟨x, hx⟩ := List.exists_mem_of_ne_nil (waiting ++ failed) (by
        obtain ⟨_, _, heq⟩ := hsome
        simp [heq])
      rcases List.mem_append.mp hx with hx | hx
      · refine .inl ⟨x, ?_, h.returned x hx⟩
        rw [h.records]
        exact List.mem_append_right _ (List.mem_append_left _ hx)
      · refine .inr ⟨x.mwtBuf, ?_, (h.failedShort x hx).status⟩
        rw [h.completion]
        exact List.mem_map_of_mem (List.mem_append_right _ hx)

theorem Line.processCompletion (h : s.Line cfg sent waiting failed out)
    (hphase : s.phase = .process b)
    (hok : (s.pMwtBuffer b).status ≠ .success → s.mwtState = .flowOff ∧
      (allReturned s.mwtSentIrpQueue b = true → s.Untouched b → s.bSendZeroLength = false)) :
    (s.processCompletion cfg b).InLine cfg := by
  have hhead := h.tracked.processing b hphase
  rw [h.completion] at hhead
  cases sent with
  | cons r sent =>
    obtain rfl : r.mwtBuf = b := Option.some.inj hhead
    obtain rfl : waiting = [] := h.first.resolve_left (List.cons_ne_nil r sent)
    exact ⟨_, _, _, _, h.processWhole hphase⟩
  | nil =>
    cases failed with
    | nil => cases hhead
    | cons r failed =>
      obtain rfl : r.mwtBuf = b := Option.some.inj hhead
      obtain ⟨hstate, hzero⟩ := hok (h.failedShort r (by simp)).status
      exact ⟨_, h.processFailed hphase hstate hzero⟩

theorem InLine.threadStep (h : s.InLine cfg) {wakeup : Bool} {event : Event}
    (hok : (Op.thread wakeup event).Steady s) (ht : threadStep cfg s wakeup event = some t) :
    t.InLine cfg := by
  obtain ⟨sent, waiting, failed, out, h⟩ := h
  have htracked := threadStep_tracked h.tracked ht
  -- the thread goes somewhere else, and all else stays
  have hgoes : ∀ phase, s.hand = none ∧ s.handBuf = none →
      (phase = .loopHead ∨ phase = .dequeue ∨ phase = .wait ∨ phase = .exited) →
      t = s.goTo phase → t.InLine cfg := by
    rintro phase hhand hphase rfl
    have hnone : (s.goTo phase).hand = none ∧ (s.goTo phase).handBuf = none := by
      rcases hphase with rfl | rfl | rfl | rfl <;> exact ⟨rfl, rfl⟩
    refine ⟨sent, waiting, failed, out, h.of_sameLine ((sameWrites_goTo s phase).sameLine
      (hnone.1.trans hhand.1.symm) rfl) ⟨htracked, ?_, ?_, h.present, h.notCancelled, h.notPurged,
      h.mwtState⟩⟩
    · rw [hnone.2, ← hhand.2]
      exact h.pending
    · intro c irp hsend
      rcases hphase with rfl | rfl | rfl | rfl <;> cases hsend
  cases hphase : s.phase with
  | loopHead =>
    have hhand : s.hand = none ∧ s.handBuf = none := by simp [State.hand, handBuf, hphase]
    simp only [Mwt.threadStep, hphase, Option.some.injEq] at ht
    rw [loopHead, h.present, h.notPurged] at ht
    simp only [Bool.not_true, Bool.or_self, Bool.false_eq_true, if_false] at ht
    split at ht
    · exact hgoes _ hhand (.inr (.inr (.inl rfl))) ht.symm
    · split at ht
      · exact hgoes _ hhand (.inr (.inr (.inl rfl))) ht.symm
      · exact hgoes _ hhand (.inr (.inl rfl)) ht.symm
  | dequeue =>
    have hhand : s.hand = none ∧ s.handBuf = none := by simp [State.hand, handBuf, hphase]
    simp only [Mwt.threadStep, hphase, Option.some.injEq] at ht
    obtain heq | ⟨hcancelled, -⟩ | ⟨b, idle, hidle, ⟨hzero, heq⟩ | ⟨irp, rest, hzero, hqueue, heq⟩⟩ :=
      s.dequeue_cases wakeup
    · exact hgoes _ hhand (.inr (.inr (.inl rfl))) (ht.symm.trans heq)
    · simp [h.notCancelled] at hcancelled
    · refine ⟨_, _, _, _, h.take hidle hphase ?_ ?_ (ht.symm.trans heq)⟩
      · exact hzero.symm
      · rfl
    · refine ⟨_, _, _, _, h.take hidle hphase ?_ ?_ (ht.symm.trans heq)⟩
      · exact hzero.symm
      · exact hqueue
  | send b irp =>
    have hpool : s.mwtSentIrpRecordPool ≠ 0 := by simpa [Op.Steady, hphase] using hok
    simp only [Mwt.threadStep, hphase, Option.some.injEq] at ht
    obtain ⟨r, hr⟩ := h.send hphase hpool
    exact ⟨_, _, _, _, ht ▸ hr⟩
  | wait =>
    have hhand : s.hand = none ∧ s.handBuf = none := by simp [State.hand, handBuf, hphase]
    have hevent : event ≠ .cancel ∧ event ≠ .purge ∧ event ≠ .stop := by
      simpa [Op.Steady, hphase] using hok
    simp only [Mwt.threadStep, hphase, Option.some.injEq] at ht
    rw [waitForCompletion, if_neg (by simp [h.notCancelled])] at ht
    subst ht
    obtain ⟨hzero, hpresent, hcancelled, hpurged, hstate⟩ := s.consume_calm cfg hevent
    obtain ⟨hgone, -⟩ := s.consume_phase cfg event
    obtain ⟨hnone, hsend⟩ := not_send_of_handBuf hgone
    refine ⟨_, _, _, _, h.of_sameLine ((s.sameWrites_consume cfg event).sameLine
      (hnone.trans hhand.1.symm) hzero) ⟨htracked, ?_, ?_, ?_, ?_, ?_, ?_⟩⟩
    · rw [(s.sameWrites_consume cfg event).pending, hgone, ← hhand.2]
      exact h.pending
    · exact fun c irp heq => absurd heq (hsend c irp)
    · exact hpresent.trans h.present
    · exact hcancelled.trans h.notCancelled
    · exact hpurged.trans h.notPurged
    · rcases hstate with hstate | hstate
      · rw [hstate]
        exact h.mwtState
      · exact .inr hstate
  | process b =>
    have hok' : (s.pMwtBuffer b).status ≠ .success → s.mwtState = .flowOff ∧
        (allReturned s.mwtSentIrpQueue b = true → s.Untouched b → s.bSendZeroLength = false) := by
      simpa only [Op.Steady, hphase] using hok
    simp only [Mwt.threadStep, hphase, Option.some.injEq] at ht
    exact ht ▸ h.processCompletion hphase hok'
  | exited => simp [Mwt.threadStep, hphase] at ht

theorem step_inLine {op : Op} (hs : s.InLine cfg) (hok : op.Steady s)
    (h : step cfg s op = some t) : t.InLine cfg := by
  cases op with
  | enqueue irp =>
    obtain ⟨_, _, _, _, hs⟩ := hs
    obtain ⟨⟨hnew, -⟩, heq⟩ := Option.ite_none_right_eq_some.mp h
    obtain rfl := Option.some.inj heq
    exact ⟨_, _, _, _, hs.enqueue hnew⟩
  | qcEmptyCompletionQueue =>
    obtain ⟨_, _, _, _, hs⟩ := hs
    obtain rfl := Option.some.inj h
    exact ⟨_, _, _, _, hs.qcEmptyCompletionQueue⟩
  | usbCompletes b n status =>
    obtain ⟨_, _, _, _, hs⟩ := hs
    obtain ⟨⟨hat, hle, hall⟩, heq⟩ := Option.ite_none_right_eq_some.mp h
    obtain rfl := Option.some.inj heq
    exact hs.usbCompletes hat hle hall hok
  | devState presentAndStarted =>
    obtain ⟨_, _, _, _, hs⟩ := hs
    obtain rfl := Option.some.inj h
    exact ⟨_, _, _, _, hs.of_sameLine
      ⟨fun _ => .refl _, rfl, rfl, rfl, rfl, rfl, rfl, rfl, rfl, rfl, rfl, rfl⟩
      ⟨hs.tracked.of_sameThread (s.sameThread_devState presentAndStarted), hs.pending, hs.hand, hok,
        hs.notCancelled, hs.notPurged, hs.mwtState⟩⟩
  | thread wakeup event => exact hs.threadStep hok h
  | ioCancelIrp irp | cancelWriteRoutine irp | purgeQueue => exact absurd hok id

end State

/-! ## Runs -/

/-- The outbound stream is intact in every state of a run without a stop or a cancel in which an
interrupted transfer began with its write, USB takes nothing past it before all buffers are back in
FLOW_OFF state, and no zero-length packet is owed then in front of an untouched write. -/
theorem stream_intact (cfg : Cfg) (ops : List Op)
    (hok : ∀ p ∈ (writeThread cfg).fires (State.initial cfg) ops, p.2.Steady p.1) :
    ∀ s ∈ (writeThread cfg).visits (State.initial cfg) ops, s.Intact cfg := by
  have hstep : ∀ s op s' (o : Unit), s.InLine cfg → op.Steady s →
      writeThread cfg s op = some (s', o) → s'.InLine cfg :=
    fun s op s' o hs hop h => State.step_inLine hs hop (step_of_writeThread h)
  have hinitial : (State.initial cfg).InLine cfg := ⟨_, _, _, _, State.initial_line cfg⟩
  intro s hs
  obtain ⟨_, _, _, _, hline⟩ := Machine.visits_all_of_fires hstep hinitial hok s hs
  exact hline.intact

/-- Two writes are sent, and FLOW_OFF comes. -/
def flowOffBehind (first second : List UInt8) : List Op :=
  [.enqueue ⟨0, first⟩, .enqueue ⟨1, second⟩] ++ List.replicate 6 (.thread false .kick) ++
    [.thread false .flowOff, .thread false .kick]

/-- A buffer comes back and is processed. -/
def comesBack (b transferred : Nat) (status : NtStatus) : List Op :=
  [.usbCompletes b transferred status, .thread false .completion, .thread false .kick,
    .thread false .kick]

/-- FLOW_ON, and what is queued is sent. -/
def flowOnAgain (sends : Nat) : List Op :=
  [.thread false (.flowOn false), .thread false .kick] ++
    List.replicate (2 * sends + 1) (.thread false .kick)

/-- One byte of the first write is taken before FLOW_OFF, and the rest of both writes after FLOW_ON. -/
def resumed : List Op :=
  flowOffBehind [1, 2, 3] [4] ++ comesBack 0 1 .unsuccessful ++ comesBack 1 0 .unsuccessful ++
    flowOnAgain 2 ++ comesBack 0 2 .success ++ [.thread false .kick] ++ comesBack 1 1 .success

theorem stream_intact_resumed :
    (∀ p ∈ (writeThread twoBuffers).fires (State.initial twoBuffers) resumed,
      p.2.Steady p.1) ∧
    ∀ s ∈ (writeThread twoBuffers).visits (State.initial twoBuffers) resumed,
      s.Intact twoBuffers :=
  have hok : ∀ p ∈ (writeThread twoBuffers).fires (State.initial twoBuffers) resumed,
      p.2.Steady p.1 := by decide +kernel
  ⟨hok, stream_intact twoBuffers _ hok⟩

/-- The bytes of two writes arrive in order. -/
example : ((writeThread twoBuffers).visits (State.initial twoBuffers) resumed).getLast?.map
    (fun s => (s.takenBytes, s.wtCompletionQueue.length)) = some ([1, 2, 3, 4], 2) := by
  decide +kernel

/-- A second write is taken past one that was interrupted, a write is interrupted a second time and
its second byte is sent again, and a zero-length packet goes in front of two writes of which
nothing was taken. -/
theorem stream_broken :
    (∃ s ∈ (writeThread twoBuffers).visits (State.initial twoBuffers)
        (flowOffBehind [1, 2, 3] [4] ++ comesBack 0 1 .unsuccessful ++ comesBack 1 1 .success),
      ¬ s.Intact twoBuffers) ∧
    (∃ s ∈ (writeThread twoBuffers).visits (State.initial twoBuffers)
        (flowOffBehind [1, 2, 3] [] ++ comesBack 0 1 .unsuccessful ++ comesBack 1 0 .unsuccessful ++
          flowOnAgain 2 ++ [.thread false .flowOff, .thread false .kick] ++
          comesBack 0 1 .unsuccessful ++ comesBack 1 0 .unsuccessful ++ flowOnAgain 2 ++
          comesBack 0 2 .success),
      ¬ s.Intact twoBuffers) ∧
    ∃ s ∈ (writeThread twoBuffers).visits (State.initial twoBuffers)
        (flowOffBehind [1] (List.replicate 64 0) ++ comesBack 0 0 .unsuccessful ++
          comesBack 1 0 .unsuccessful ++ flowOnAgain 2 ++ comesBack 0 0 .success),
      ¬ s.Intact twoBuffers := by
  have hpast : ∃ s ∈ (writeThread twoBuffers).visits (State.initial twoBuffers)
      (flowOffBehind [1, 2, 3] [4] ++ comesBack 0 1 .unsuccessful ++ comesBack 1 1 .success),
      ¬ s.takenBytes <+: payloads s.accepted := by decide +kernel
  have htwice : ∃ s ∈ (writeThread twoBuffers).visits (State.initial twoBuffers)
      (flowOffBehind [1, 2, 3] [] ++ comesBack 0 1 .unsuccessful ++ comesBack 1 0 .unsuccessful ++
        flowOnAgain 2 ++ [.thread false .flowOff, .thread false .kick] ++
        comesBack 0 1 .unsuccessful ++ comesBack 1 0 .unsuccessful ++ flowOnAgain 2 ++
        comesBack 0 2 .success),
      ¬ s.takenBytes <+: payloads s.accepted := by decide +kernel
  have hzero : ∃ s ∈ (writeThread twoBuffers).visits (State.initial twoBuffers)
      (flowOffBehind [1] (List.replicate 64 0) ++ comesBack 0 0 .unsuccessful ++
        comesBack 1 0 .unsuccessful ++ flowOnAgain 2 ++ comesBack 0 0 .success),
      s.taken = [.zeroLength] := by decide +kernel
  obtain ⟨s, hs, hpast⟩ := hpast
  obtain ⟨t, ht, htwice⟩ := htwice
  obtain ⟨u, hu, hzero⟩ := hzero
  refine ⟨⟨s, hs, fun h => hpast h.inOrder⟩, ⟨t, ht, fun h => htwice h.inOrder⟩, u, hu, fun h => ?_⟩
  obtain ⟨owed, hmarked, -⟩ := h.zeroLength
  rw [hzero] at hmarked
  cases hmarked.1

end Transport.Mwt
