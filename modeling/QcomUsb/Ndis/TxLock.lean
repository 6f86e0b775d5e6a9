-- SUMMARY: The transmit lock around the completion of a net buffer list, and exactly when a completion gives it back.
import QcomUsb.Library.IntrusiveList
import QcomUsb.Library.LockTrace

/-!
# The transmit lock and completions

`MPUSB_TryToCompleteNBL` looks for a net buffer list on `TxBusyList` under `TxLock` and completes it
outside. Its caller says whether it holds the lock already.
-/

namespace Ndis.TxLock

open IntrusiveList LockTrace

variable {ν : Type}

abbrev NdisStatus := UInt32

/-- `NDIS_STATUS_SUCCESS`. -/
def ndisStatusSuccess : NdisStatus := 0

/-- `NDIS_STATUS_REQUEST_ABORTED`. -/
def ndisStatusRequestAborted : NdisStatus := 0xC001000C

/-- The fields of an `MPUSB_TX_CONTEXT_NBL`, with the `Completed` of its net buffers. -/
structure TxContextNbl where
  numProcessed : Nat
  numCompleted : Nat
  abortFlag : Bool
  ndisStatus : NdisStatus
  completed : List Bool

/-- A call of `MPUSB_CompleteNetBufferList`, and whether `TxLock` was held in it. -/
structure Completion (ν : Type) where
  nbl : ν
  status : NdisStatus
  locked : Bool
  deriving DecidableEq

/-- The fields of the adapter. A context goes by its `List` entry. Observers follow the lock and
keep the completions. -/
structure Adapter (ν : Type) where
  links : Links ν
  context : ν → TxContextNbl
  nBusyTx : Int
  lock : LockTrace.Status
  completions : List (Completion ν)

namespace Adapter

/-- `NdisAcquireSpinLock` on `TxLock`. -/
def acquireSpinLock (s : Adapter ν) : Adapter ν := { s with lock := next s.lock .lock }

/-- `NdisReleaseSpinLock` on `TxLock`. -/
def releaseSpinLock (s : Adapter ν) : Adapter ν := { s with lock := next s.lock .unlock }

/-- A function takes the lock if its caller does not hold it. -/
def enter (s : Adapter ν) (acquire : Bool) : Adapter ν := if acquire then s.acquireSpinLock else s

/-- What the lock guards is read or written. -/
def touch (s : Adapter ν) : Adapter ν := { s with lock := next s.lock .touch }

/-- `MPUSB_CompleteNetBufferList`. -/
def completeNetBufferList (s : Adapter ν) (nbl : ν) (status : NdisStatus) : Adapter ν :=
  { s with completions := s.completions ++ [⟨nbl, status, s.lock.held⟩] }

/-- The list is completed outside the lock, which is taken again for a caller that holds it. -/
def completeUnlocked (s : Adapter ν) (txNbl : ν) (ndisStatus : NdisStatus)
    (toAcquireSpinLock : Bool) : Adapter ν :=
  let s := s.releaseSpinLock.completeNetBufferList txNbl ndisStatus
  if toAcquireSpinLock then s else s.acquireSpinLock

variable [DecidableEq ν]

/-- The search for the list on `TxBusyList`, given up after some turns. -/
def onBusyList (s : Adapter ν) (txBusyList txNbl : ν) (turns : Nat) : Option Bool :=
  if s.links.isListEmpty txBusyList then some false
  else s.links.findEntry txBusyList txNbl turns

/-- `MPUSB_TryToCompleteNBL`. -/
def tryToCompleteNBL (s : Adapter ν) (txBusyList : ν) (turns : Nat) (txNbl : ν)
    (ndisStatus : NdisStatus) (toAcquireSpinLock toUseBusyList : Bool) : Option (Adapter ν) :=
  let s := s.enter toAcquireSpinLock
  if toUseBusyList then
    let s := s.touch
    (s.onBusyList txBusyList txNbl turns).map fun found =>
      if found then
        { s with
          nBusyTx := s.nBusyTx - 1
          links := s.links.removeEntryList txNbl }.completeUnlocked txNbl ndisStatus
            toAcquireSpinLock
      -- nothing gives the lock back here
      else s
  else some (s.completeUnlocked txNbl ndisStatus toAcquireSpinLock)

/-- The end of `MP_USBTxPacketEx` for a list that is aborted. -/
def abort (s : Adapter ν) (txBusyList : ν) (turns : Nat) (txContext : ν) : Option (Adapter ν) :=
  let c := s.context txContext
  let s := { s with
    context := Function.update s.context txContext { c with abortFlag := true } }
  if c.numCompleted = c.numProcessed then
    s.tryToCompleteNBL txBusyList turns txContext ndisStatusRequestAborted true true
  else some s

/-- The list is completed when all of its net buffers have returned. -/
def completeReturned (s : Adapter ν) (txBusyList : ν) (turns : Nat) (hasIrp : Bool)
    (nblContext : ν) : Option (Adapter ν) :=
  let c := s.context nblContext
  if c.abortFlag then
    if c.numCompleted = c.numProcessed then
      s.tryToCompleteNBL txBusyList turns nblContext ndisStatusRequestAborted false hasIrp
    else some s
  else if 0 < c.completed.length ∧ c.completed.all id then
    s.tryToCompleteNBL txBusyList turns nblContext
      (if hasIrp then ndisStatusSuccess else c.ndisStatus) false hasIrp
  else some s

/-- Net buffer `index` of the list has returned. -/
def nbReturned (s : Adapter ν) (hasIrp : Bool) (nblContext : ν) (index : Nat) : Adapter ν :=
  let c := s.context nblContext
  { s with
    nBusyTx := if hasIrp then s.nBusyTx else s.nBusyTx - 1
    context := Function.update s.context nblContext
      { c with numCompleted := c.numCompleted + 1, completed := c.completed.set index true } }

/-- `MP_TxIRPCompleteEx` for net buffer `index` of a list, with an IRP or without one. -/
def txIRPCompleteEx (s : Adapter ν) (txBusyList : ν) (turns : Nat) (hasIrp : Bool) (nblContext : ν)
    (index : Nat) (acquire : Bool) : Option (Adapter ν) :=
  ((s.enter acquire).touch.nbReturned hasIrp nblContext index).completeReturned txBusyList turns
    hasIrp nblContext |>.map fun s => if acquire then s.releaseSpinLock else s

end Adapter

/-- The lock is as it was, it was never misused, and the list is completed outside it, if it was on
`TxBusyList` or that was not asked. -/
structure LockNeutral (busy : List ν) (s s' : Adapter ν) (txNbl : ν) (ndisStatus : NdisStatus)
    (toUseBusyList : Bool) : Prop where
  lock : s'.lock = s.lock
  completed : toUseBusyList = false ∨ txNbl ∈ busy →
    s'.completions = s.completions ++ [⟨txNbl, ndisStatus, false⟩]
  untouched : toUseBusyList = true → txNbl ∉ busy → s'.completions = s.completions

/-! ## One call -/

variable {s s' : Adapter ν} {txBusyList txNbl : ν} {busy : List ν} {turns : Nat}
  {ndisStatus : NdisStatus} {toAcquireSpinLock toUseBusyList : Bool}

/-- Whoever enters as it says it does holds the lock from then on. -/
theorem enter_lock {acquire : Bool} (hlock : s.lock = ⟨!acquire, true⟩) :
    (s.enter acquire).lock = ⟨true, true⟩ := by
  cases acquire with
  | false => simpa [Adapter.enter] using hlock
  | true => simp [Adapter.enter, Adapter.acquireSpinLock, next, hlock]

theorem enter_links (s : Adapter ν) (acquire : Bool) : (s.enter acquire).links = s.links := by
  cases acquire <;> rfl

theorem enter_completions (s : Adapter ν) (acquire : Bool) :
    (s.enter acquire).completions = s.completions := by
  cases acquire <;> rfl

theorem touch_lock (hlock : s.lock = ⟨true, true⟩) : s.touch.lock = ⟨true, true⟩ := by
  have hheld : s.lock.held = true := by rw [hlock]
  exact (next_touch_of_held hheld).trans hlock

/-- A completion outside the lock leaves the lock as the caller had it. -/
theorem completeUnlocked_lock (hlock : s.lock = ⟨true, true⟩) :
    (s.completeUnlocked txNbl ndisStatus toAcquireSpinLock).lock = ⟨!toAcquireSpinLock, true⟩ := by
  cases toAcquireSpinLock with
  | false =>
    simp [Adapter.completeUnlocked, Adapter.acquireSpinLock, Adapter.releaseSpinLock,
      Adapter.completeNetBufferList, next, hlock]
  | true =>
    simp [Adapter.completeUnlocked, Adapter.releaseSpinLock, Adapter.completeNetBufferList, next,
      hlock]

theorem completeUnlocked_completions (s : Adapter ν) :
    (s.completeUnlocked txNbl ndisStatus toAcquireSpinLock).completions =
      s.completions ++ [⟨txNbl, ndisStatus, false⟩] := by
  cases toAcquireSpinLock <;> rfl

theorem completeUnlocked_links (s : Adapter ν) :
    (s.completeUnlocked txNbl ndisStatus toAcquireSpinLock).links = s.links := by
  cases toAcquireSpinLock <;> rfl

variable [DecidableEq ν]

/-- The search finds what `TxBusyList` holds. -/
theorem onBusyList_eq (h : s.links.Holds txBusyList busy) (hturns : busy.length < turns) :
    s.onBusyList txBusyList txNbl turns = some (decide (txNbl ∈ busy)) := by
  unfold Adapter.onBusyList
  split
  · rename_i hempty
    have hbusy : busy = [] := h.isListEmpty.mp hempty
    simp [hbusy]
  · exact h.findEntry hturns txNbl

/-- What a call does: it completes the list, or it finds nothing and returns with the lock held. -/
inductive TryStep (txBusyList : ν) (busy : List ν) (s : Adapter ν) (txNbl : ν)
    (ndisStatus : NdisStatus) (toAcquireSpinLock toUseBusyList : Bool) (s' : Adapter ν) : Prop
  | completes (hfound : toUseBusyList = false ∨ txNbl ∈ busy)
      (hlock : s'.lock = ⟨!toAcquireSpinLock, true⟩)
      (hcompletions : s'.completions = s.completions ++ [⟨txNbl, ndisStatus, false⟩])
      (hlinks : s'.links.Holds txBusyList (if toUseBusyList then busy.erase txNbl else busy))
  | finds_nothing (huse : toUseBusyList = true) (hmissing : txNbl ∉ busy)
      (hlock : s'.lock = ⟨true, true⟩) (hcompletions : s'.completions = s.completions)
      (hlinks : s'.links.Holds txBusyList busy)

/-- A call returns. -/
theorem tryToCompleteNBL_step (txNbl : ν) (ndisStatus : NdisStatus)
    (toAcquireSpinLock toUseBusyList : Bool) (h : s.links.Holds txBusyList busy)
    (hturns : busy.length < turns) (hlock : s.lock = ⟨!toAcquireSpinLock, true⟩) :
    ∃ s', s.tryToCompleteNBL txBusyList turns txNbl ndisStatus toAcquireSpinLock toUseBusyList =
        some s' ∧
      TryStep txBusyList busy s txNbl ndisStatus toAcquireSpinLock toUseBusyList s' := by
  have hheld := enter_lock hlock
  have hcompletions := enter_completions s toAcquireSpinLock
  rw [← enter_links s toAcquireSpinLock] at h
  unfold Adapter.tryToCompleteNBL
  generalize s.enter toAcquireSpinLock = t at h hheld hcompletions
  have htouch := touch_lock hheld
  cases toUseBusyList with
  | false =>
    refine ⟨_, rfl, .completes (.inl rfl) (completeUnlocked_lock hheld) ?_ ?_⟩
    · rw [completeUnlocked_completions, hcompletions]
    · rw [completeUnlocked_links]
      exact h
  | true =>
    have hfind : t.touch.onBusyList txBusyList txNbl turns = some (decide (txNbl ∈ busy)) :=
      onBusyList_eq h hturns
    simp only [↓reduceIte, hfind, Option.map_some]
    refine ⟨_, rfl, ?_⟩
    by_cases hmem : txNbl ∈ busy
    · simp only [hmem, decide_true, ↓reduceIte]
      apply TryStep.completes (.inr hmem)
      · exact completeUnlocked_lock htouch
      · rw [completeUnlocked_completions]
        exact congrArg (· ++ _) hcompletions
      · rw [completeUnlocked_links]
        exact h.removeEntryList hmem
    · simp only [hmem, decide_false, Bool.false_eq_true, ↓reduceIte]
      exact .finds_nothing rfl hmem htouch hcompletions h

/-- A call is lock-neutral exactly if it does not take the lock itself to find nothing. -/
theorem lockNeutral_iff (h : s.links.Holds txBusyList busy) (hturns : busy.length < turns)
    (hlock : s.lock = ⟨!toAcquireSpinLock, true⟩) :
    (∃ s', s.tryToCompleteNBL txBusyList turns txNbl ndisStatus toAcquireSpinLock toUseBusyList =
        some s' ∧ LockNeutral busy s s' txNbl ndisStatus toUseBusyList) ↔
      ¬(toAcquireSpinLock = true ∧ toUseBusyList = true ∧ txNbl ∉ busy) := by
  obtain ⟨s', heq, hstep⟩ := tryToCompleteNBL_step txNbl ndisStatus toAcquireSpinLock
    toUseBusyList h hturns hlock
  simp only [heq, Option.some.injEq, exists_eq_left']
  cases hstep with
  | completes hfound hlock' hcompletions hlinks =>
    have hcond : ¬(toAcquireSpinLock = true ∧ toUseBusyList = true ∧ txNbl ∉ busy) := by
      rintro ⟨-, huse, hmissing⟩
      rcases hfound with hunused | hmem
      · exact Bool.noConfusion (hunused.symm.trans huse)
      · exact hmissing hmem
    refine iff_of_true ⟨hlock'.trans hlock.symm, fun _ => hcompletions, ?_⟩ hcond
    intro huse hmissing
    rcases hfound with hunused | hmem
    · exact Bool.noConfusion (hunused.symm.trans huse)
    · exact absurd hmem hmissing
  | finds_nothing huse hmissing hlock' hcompletions hlinks =>
    cases toAcquireSpinLock with
    | true =>
      refine iff_of_false (fun hneutral => ?_) (not_not_intro ⟨rfl, huse, hmissing⟩)
      have hfree := hneutral.lock
      rw [hlock', hlock] at hfree
      cases hfree
    | false =>
      refine iff_of_true ⟨hlock'.trans hlock.symm, ?_, fun _ _ => hcompletions⟩
        (fun hcond => Bool.noConfusion hcond.1)
      rintro (hunused | hmem)
      · exact Bool.noConfusion (hunused.symm.trans huse)
      · exact absurd hmem hmissing

/-- An adapter whose list 1 is on `TxBusyList`, if it is not empty. Nobody holds the lock. -/
def freeAdapter (isEmpty : Bool) : Adapter Nat where
  links :=
    let empty := Links.initializeListHead ⟨id, id⟩ 0
    if isEmpty then empty else empty.insertTailList 0 1
  context := fun _ => ⟨1, 1, true, ndisStatusSuccess, [true]⟩
  nBusyTx := 1
  lock := .initial
  completions := []

/-- The aborted list is still on `TxBusyList`. -/
theorem lockNeutral_busy :
    ∃ s', (freeAdapter false).tryToCompleteNBL 0 2 1 ndisStatusRequestAborted true true = some s' ∧
      LockNeutral [1] (freeAdapter false) s' 1 ndisStatusRequestAborted true := by
  have hempty := Links.holds_initializeListHead ⟨id, id⟩ 0
  have hbusy : (freeAdapter false).links.Holds 0 [1] := hempty.insertTailList (by decide)
  exact (lockNeutral_iff hbusy (by decide) rfl).mpr (by simp)

/-- The completion routine has taken the aborted list off `TxBusyList` before. -/
theorem not_lockNeutral_completed :
    ¬ ∃ s', (freeAdapter true).tryToCompleteNBL 0 1 1 ndisStatusRequestAborted true true = some s' ∧
      LockNeutral [] (freeAdapter true) s' 1 ndisStatusRequestAborted true := by
  rintro ⟨s', heq, hneutral⟩
  cases heq
  have hfree := hneutral.lock
  revert hfree
  decide

/-! ## The callers -/

/-- The abort path of `MP_USBTxPacketEx` gives the lock back unless the completion routine was
faster. -/
theorem abort_lock (txContext : ν) (h : s.links.Holds txBusyList busy)
    (hturns : busy.length < turns) (hlock : s.lock = .initial) :
    ∃ s', s.abort txBusyList turns txContext = some s' ∧
      (s'.lock = s.lock ↔
        ¬((s.context txContext).numCompleted = (s.context txContext).numProcessed ∧
          txContext ∉ busy)) := by
  simp only [Adapter.abort]
  generalize Function.update s.context txContext _ = context
  split
  · rename_i hreturned
    have hlinks : { s with context := context }.links.Holds txBusyList busy := h
    obtain ⟨s', heq, hstep⟩ :=
      tryToCompleteNBL_step txContext ndisStatusRequestAborted true true hlinks hturns hlock
    refine ⟨s', heq, ?_⟩
    cases hstep with
    | completes hfound hlock' hcompletions hlinks =>
      have hmem : txContext ∈ busy := hfound.resolve_left Bool.noConfusion
      exact iff_of_true (hlock'.trans hlock.symm) fun hcond => hcond.2 hmem
    | finds_nothing huse hmissing hlock' hcompletions hlinks =>
      refine iff_of_false (fun hsame => ?_) (not_not_intro ⟨hreturned, hmissing⟩)
      rw [hlock', hlock] at hsame
      cases hsame
  · rename_i hreturned
    exact ⟨_, rfl, iff_of_true rfl fun hcond => hreturned hcond.1⟩

/-- What a completion does that searches no list: it may complete the net buffer list, with this
status. -/
structure Returned (s s' : Adapter ν) (nblContext : ν) (status : NdisStatus) : Prop where
  links : s'.links = s.links
  abortFlag : (s'.context nblContext).abortFlag = (s.context nblContext).abortFlag
  ndisStatus : (s'.context nblContext).ndisStatus = (s.context nblContext).ndisStatus
  completions : ∃ new, s'.completions = s.completions ++ new ∧ ∀ x ∈ new, x.status = status

/-- Without an IRP the status of the list is reported, unless the list is aborted. -/
theorem completeReturned_noIrp (s : Adapter ν) (txBusyList nblContext : ν) :
    ∃ s', s.completeReturned txBusyList 0 false nblContext = some s' ∧
      Returned s s' nblContext (if (s.context nblContext).abortFlag then ndisStatusRequestAborted
        else (s.context nblContext).ndisStatus) := by
  have hdone (status : NdisStatus) : s.tryToCompleteNBL txBusyList 0 nblContext status false false =
      some (s.completeUnlocked nblContext status false) := rfl
  simp only [Adapter.completeReturned, hdone, Bool.false_eq_true, ↓reduceIte]
  split_ifs
  · exact ⟨_, rfl, rfl, rfl, rfl, _, completeUnlocked_completions s, by simp⟩
  · exact ⟨_, rfl, rfl, rfl, rfl, [], by simp, by simp⟩
  · exact ⟨_, rfl, rfl, rfl, rfl, _, completeUnlocked_completions s, by simp⟩
  · exact ⟨_, rfl, rfl, rfl, rfl, [], by simp, by simp⟩

theorem txIRPCompleteEx_noIrp (s : Adapter ν) (txBusyList nblContext : ν) (index : Nat)
    (acquire : Bool) :
    ∃ s', s.txIRPCompleteEx txBusyList 0 false nblContext index acquire = some s' ∧
      Returned s s' nblContext (if (s.context nblContext).abortFlag then ndisStatusRequestAborted
        else (s.context nblContext).ndisStatus) := by
  unfold Adapter.txIRPCompleteEx
  generalize hreturned : (s.enter acquire).touch.nbReturned false nblContext index = t
  have hlinks : t.links = s.links := by
    rw [← hreturned]
    exact enter_links s acquire
  have hcompletions : t.completions = s.completions := by
    rw [← hreturned]
    exact enter_completions s acquire
  have hcontext : (s.enter acquire).touch.context = s.context := by
    cases acquire <;> rfl
  have habort : (t.context nblContext).abortFlag = (s.context nblContext).abortFlag := by
    simp [← hreturned, Adapter.nbReturned, hcontext]
  have hstatus : (t.context nblContext).ndisStatus = (s.context nblContext).ndisStatus := by
    simp [← hreturned, Adapter.nbReturned, hcontext]
  obtain ⟨u, hu, hdone⟩ := completeReturned_noIrp t txBusyList nblContext
  rw [hu, Option.map_some]
  rw [habort, hstatus] at hdone
  refine ⟨_, rfl, ?_⟩
  have hrest : Returned s u nblContext _ := ⟨hdone.links.trans hlinks, hdone.abortFlag.trans habort,
    hdone.ndisStatus.trans hstatus, hcompletions ▸ hdone.completions⟩
  cases acquire with
  | false => exact hrest
  | true => exact ⟨hrest.links, hrest.abortFlag, hrest.ndisStatus, hrest.completions⟩

/-- A completion that holds the lock still holds it afterwards. -/
theorem tryToCompleteNBL_held (h : s.links.Holds txBusyList busy) (hturns : busy.length < turns)
    (hlock : s.lock = ⟨true, true⟩) :
    ∃ s', s.tryToCompleteNBL txBusyList turns txNbl ndisStatus false toUseBusyList = some s' ∧
      s'.lock = ⟨true, true⟩ := by
  obtain ⟨s', heq, hstep⟩ :=
    tryToCompleteNBL_step txNbl ndisStatus false toUseBusyList h hturns hlock
  cases hstep with
  | completes hfound hlock' hcompletions hlinks => exact ⟨s', heq, hlock'⟩
  | finds_nothing huse hmissing hlock' hcompletions hlinks => exact ⟨s', heq, hlock'⟩

theorem completeReturned_held (hasIrp : Bool) (nblContext : ν) (h : s.links.Holds txBusyList busy)
    (hturns : busy.length < turns) (hlock : s.lock = ⟨true, true⟩) :
    ∃ s', s.completeReturned txBusyList turns hasIrp nblContext = some s' ∧
      s'.lock = ⟨true, true⟩ := by
  simp only [Adapter.completeReturned]
  split_ifs
  · exact tryToCompleteNBL_held h hturns hlock
  · exact ⟨s, rfl, hlock⟩
  · exact tryToCompleteNBL_held h hturns hlock
  · exact tryToCompleteNBL_held h hturns hlock
  · exact ⟨s, rfl, hlock⟩

/-- `MP_TxIRPCompleteEx` returns with the lock as it found it. -/
theorem txIRPCompleteEx_lock (hasIrp : Bool) (nblContext : ν) (index : Nat) {acquire : Bool}
    (h : s.links.Holds txBusyList busy) (hturns : busy.length < turns)
    (hlock : s.lock = ⟨!acquire, true⟩) :
    ∃ s', s.txIRPCompleteEx txBusyList turns hasIrp nblContext index acquire = some s' ∧
      s'.lock = s.lock := by
  have hheld := touch_lock (enter_lock hlock)
  rw [← enter_links s acquire] at h
  unfold Adapter.txIRPCompleteEx
  generalize hentered : (s.enter acquire).touch.nbReturned hasIrp nblContext index = t
  have hlinks : t.links.Holds txBusyList busy := hentered ▸ h
  have hlock' : t.lock = ⟨true, true⟩ := hentered ▸ hheld
  obtain ⟨s', heq, hdone⟩ := completeReturned_held hasIrp nblContext hlinks hturns hlock'
  refine ⟨_, by rw [heq]; rfl, ?_⟩
  rw [hlock]
  cases acquire with
  | false => simpa using hdone
  | true => simp [Adapter.releaseSpinLock, next, hdone]

end Ndis.TxLock
