-- SUMMARY: The notification items of synchronous readers: who may unlink an item that was freed and handed out again.
import QcomUsb.Usb.Readers

/-!
# The notification pool

A synchronous reader registers an item of `mRxNotifyPool` and from then on knows it only by
the address of its event. `ClearNotifyList` frees the items of all readers before they have
woken up, so the next reader may get an item that a cancelled one still holds.
-/

namespace QtiUsb

open Transition

/-- An item is known by its index in `mRxNotifyPool`, as is the event inside it. -/
abbrev RxSlot := Fin qtidevRxNotifyPoolSz

/-- `QTI_RX_EVT_CANCEL`. -/
def qtiRxEvtCancel : Int := 1

/-- `QTI_RX_EVT_FILL`. -/
def qtiRxEvtFill : Int := 2

/-- An item of `mRxNotifyPool`. `mpData` says that it points to the item's own event, whose
bits are `evtCancel` and `evtFill`. `owner` is the reader who registered it last. -/
structure RxNotifyItem where
  mpData : Bool
  mUsrReqSize : Nat
  mInProcess : Bool
  evtCancel : Bool
  evtFill : Bool
  owner : Nat

/-- Where a reader is in `ReadSyncBlk`, and the item it holds. -/
inductive ReadSyncPhase where
  | idle
  /-- It waits for the event. -/
  | waiting (k : RxSlot)
  /-- The wait has seen an event, and the bits are scanned next. -/
  | woken (k : RxSlot)
  /-- `qti_wait_event` has returned. -/
  | waited (k : RxSlot) (result : Int)
  /-- `CopyFromReadMemList` copies with the lock dropped. -/
  | copying (k : RxSlot)
  deriving DecidableEq

/-- The item whose event a reader knows. -/
def ReadSyncPhase.holds : ReadSyncPhase → Option RxSlot
  | .idle => none
  | .waiting k => some k
  | .woken k => some k
  | .waited k _ => some k
  | .copying k => some k

/-- The pool, the list, and the readers. `foreign` are the readers that have unlinked or
cleared the registration of another one. -/
structure NotifyPool where
  mRxNotifyPool : RxSlot → RxNotifyItem
  mpReadNotifyList : List RxSlot
  phase : Nat → ReadSyncPhase
  foreign : List Nat

inductive NotifyPoolEvent where
  /-- `AddToNotifyList` and the notification of the new item. `dataSize` is what the read
  buffer holds. -/
  | register (r size dataSize : Nat)
  /-- `wait_event_interruptible_timeout` sees an event. -/
  | wake (r : Nat)
  /-- It runs out of time or is interrupted. -/
  | giveUp (r : Nat) (interrupted : Bool)
  /-- `qti_wait_event` scans the bits. `left` are the jiffies that were left. -/
  | scan (r left : Nat)
  /-- The reader takes the lock again and looks at the result. -/
  | relock (r dataSize : Nat)
  /-- Its copy is done. -/
  | copied (r dataSize : Nat)
  /-- The URB callback notifies the first reader. -/
  | notify (dataSize : Nat)
  /-- `ClearNotifyList`, by a flush or a disconnect. -/
  | clearNotifyList

namespace NotifyPool

/-- Nobody reads yet. -/
def init : NotifyPool where
  mRxNotifyPool := fun _ => ⟨false, 0, false, false, false, 0⟩
  mpReadNotifyList := []
  phase := fun _ => .idle
  foreign := []

def setItem (s : NotifyPool) (k : RxSlot) (item : RxNotifyItem) : NotifyPool :=
  { s with mRxNotifyPool := Function.update s.mRxNotifyPool k item }

def setPhase (s : NotifyPool) (r : Nat) (p : ReadSyncPhase) : NotifyPool :=
  { s with phase := Function.update s.phase r p }

/-- The item is registered by somebody else than `r`. -/
def Foreign (s : NotifyPool) (r : Nat) (k : RxSlot) : Prop :=
  (s.mRxNotifyPool k).mpData = true ∧ (s.mRxNotifyPool k).owner ≠ r

instance (s : NotifyPool) (r : Nat) (k : RxSlot) : Decidable (s.Foreign r k) :=
  inferInstanceAs (Decidable (_ ∧ _))

/-- What reader `r` does to item `k` is noted if the item is registered by another one. -/
def note (s : NotifyPool) (r : Nat) (k : RxSlot) : NotifyPool :=
  if s.Foreign r k then { s with foreign := s.foreign ++ [r] } else s

/-- `AllocateRxNotifyItem`. -/
def allocateRxNotifyItem (s : NotifyPool) : Option RxSlot :=
  (List.finRange qtidevRxNotifyPoolSz).find? fun k => (s.mRxNotifyPool k).mpData = false

/-- `AddToNotifyList` with the item it got. The bits of its event stay as they are. -/
def addToNotifyList (s : NotifyPool) (r size : Nat) (k : RxSlot) : NotifyPool :=
  { s.setItem k { s.mRxNotifyPool k with
      mpData := true
      mUsrReqSize := size
      mInProcess := false
      owner := r } with
    mpReadNotifyList := s.mpReadNotifyList ++ [k] }

/-- `NotifyUserRequest`. No event stands for NULL. -/
def notifyUserRequest (s : NotifyPool) (dataSize : Nat) (evt : Option RxSlot) : NotifyPool :=
  match s.mpReadNotifyList with
  | [] => s
  | k :: _ =>
    if dataSize = 0 then s
    else if (evt = none ∨ evt = some k ∧ (s.mRxNotifyPool k).mpData = true) ∧
        (s.mRxNotifyPool k).mInProcess = false then
      s.setItem k { s.mRxNotifyPool k with mInProcess := true, evtFill := true }
    else s

/-- `qti_clear_event` by reader `r`. Only two events are ever set. -/
def qtiClearEvent (s : NotifyPool) (r : Nat) (k : RxSlot) (event : Int) : NotifyPool :=
  if event = qtiRxEvtCancel then
    (s.note r k).setItem k { s.mRxNotifyPool k with evtCancel := false }
  else if event = qtiRxEvtFill then
    (s.note r k).setItem k { s.mRxNotifyPool k with evtFill := false }
  else s

/-- `RemoveNotification` by reader `r`: the listed item whose event it is. -/
def removeNotification (s : NotifyPool) (r : Nat) (k : RxSlot) : NotifyPool :=
  if k ∈ s.mpReadNotifyList ∧ (s.mRxNotifyPool k).mpData = true then
    { (s.note r k).setItem k { s.mRxNotifyPool k with mpData := false, mInProcess := false } with
      mpReadNotifyList := s.mpReadNotifyList.erase k }
  else s

/-- The end of `ReadSyncBlk`. -/
def leave (s : NotifyPool) (r dataSize : Nat) (k : RxSlot) : NotifyPool :=
  ((s.removeNotification r k).notifyUserRequest dataSize none).setPhase r .idle

/-- One round of the loop of `ClearNotifyList`. -/
def cancelItem (s : NotifyPool) (k : RxSlot) : NotifyPool :=
  let item := s.mRxNotifyPool k
  s.setItem k { item with
    evtCancel := item.evtCancel || item.mpData
    mpData := false
    mInProcess := false }

/-- `ClearNotifyList`. -/
def clearNotifyList (s : NotifyPool) : NotifyPool :=
  { s.mpReadNotifyList.foldl cancelItem s with mpReadNotifyList := [] }

/-- What the scan of `qti_wait_event` returns: the first bit set, or else what the wait had
returned. -/
def firstEvent (item : RxNotifyItem) (left : Nat) : Int :=
  if item.evtCancel then qtiRxEvtCancel
  else if item.evtFill then qtiRxEvtFill
  else left

end NotifyPool

open NotifyPool

/-- `-EINTR`. -/
def negEintr : Int := -4

/-- One step. -/
def notifyPoolStep : Machine NotifyPool NotifyPoolEvent Unit
  | s, .register r size dataSize =>
    match s.phase r with
    | .idle =>
      match s.allocateRxNotifyItem with
      | none => some (s, ())
      | some k =>
        some (((s.addToNotifyList r size k).notifyUserRequest dataSize (some k)).setPhase r
          (.waiting k), ())
    | _ => none
  | s, .wake r =>
    match s.phase r with
    | .waiting k =>
      if (s.mRxNotifyPool k).evtCancel || (s.mRxNotifyPool k).evtFill then
        some (s.setPhase r (.woken k), ())
      else none
    | _ => none
  | s, .giveUp r interrupted =>
    match s.phase r with
    | .waiting k =>
      if (s.mRxNotifyPool k).evtCancel || (s.mRxNotifyPool k).evtFill then none
      else some (s.setPhase r (.waited k (if interrupted then negEintr else 0)), ())
    | _ => none
  | s, .scan r left =>
    match s.phase r with
    | .woken k => some (s.setPhase r (.waited k (firstEvent (s.mRxNotifyPool k) left)), ())
    | _ => none
  | s, .relock r dataSize =>
    match s.phase r with
    | .waited k result =>
      if result = qtiRxEvtFill then
        some ((s.qtiClearEvent r k result).setPhase r (.copying k), ())
      else if 0 < result then some ((s.qtiClearEvent r k result).leave r dataSize k, ())
      else some (s.leave r dataSize k, ())
    | _ => none
  | s, .copied r dataSize =>
    match s.phase r with
    | .copying k => some (s.leave r dataSize k, ())
    | _ => none
  | s, .notify dataSize => some (s.notifyUserRequest dataSize none, ())
  | s, .clearNotifyList => some (s.clearNotifyList, ())

/-- No reader has touched the registration of another one. -/
def OwnOnly (s : NotifyPool) : Prop := s.foreign = []

/-- Each item is in the list at most once, and the items in the list are those whose
`mpData` is set. -/
structure Listed (s : NotifyPool) : Prop where
  once : s.mpReadNotifyList.Nodup
  mpData : ∀ k, k ∈ s.mpReadNotifyList ↔ (s.mRxNotifyPool k).mpData = true

/-- The condition on a step: an item is handed out only once its last reader has left. -/
def HandsOutFree (s : NotifyPool) : NotifyPoolEvent → Prop
  | .register _ _ _ => ∀ k, s.allocateRxNotifyItem = some k → ∀ r, (s.phase r).holds ≠ some k
  | _ => True

/-! ## What the operations leave alone -/

/-- The same items are listed and registered by the same readers, and nothing was noted. -/
structure SameRegs (s s' : NotifyPool) : Prop where
  list : s'.mpReadNotifyList = s.mpReadNotifyList
  mpData : ∀ k, (s'.mRxNotifyPool k).mpData = (s.mRxNotifyPool k).mpData
  owner : ∀ k, (s'.mRxNotifyPool k).owner = (s.mRxNotifyPool k).owner
  phase : s'.phase = s.phase
  foreign : s'.foreign = s.foreign

variable {s s' : NotifyPool} {r : Nat} {k : RxSlot}

theorem SameRegs.refl (s : NotifyPool) : SameRegs s s := ⟨rfl, fun _ => rfl, fun _ => rfl, rfl, rfl⟩

/-- An item whose registration stays. -/
theorem SameRegs.setItem {item : RxNotifyItem} (hdata : item.mpData = (s.mRxNotifyPool k).mpData)
    (howner : item.owner = (s.mRxNotifyPool k).owner) : SameRegs s (s.setItem k item) where
  list := rfl
  mpData := by
    intro j
    rcases eq_or_ne j k with rfl | hne
    · simp [NotifyPool.setItem, hdata]
    · simp [NotifyPool.setItem, hne]
  owner := by
    intro j
    rcases eq_or_ne j k with rfl | hne
    · simp [NotifyPool.setItem, howner]
    · simp [NotifyPool.setItem, hne]
  phase := rfl
  foreign := rfl

theorem sameRegs_notifyUserRequest (s : NotifyPool) (dataSize : Nat) (evt : Option RxSlot) :
    SameRegs s (s.notifyUserRequest dataSize evt) := by
  unfold NotifyPool.notifyUserRequest
  split
  · exact .refl s
  · split_ifs
    · exact .refl s
    · exact .setItem rfl rfl
    · exact .refl s

theorem note_of_not_foreign (h : ¬ s.Foreign r k) : s.note r k = s := if_neg h

theorem sameRegs_qtiClearEvent (h : ¬ s.Foreign r k) (event : Int) :
    SameRegs s (s.qtiClearEvent r k event) := by
  unfold NotifyPool.qtiClearEvent
  rw [note_of_not_foreign h]
  split_ifs
  · exact .setItem rfl rfl
  · exact .setItem rfl rfl
  · exact .refl s

/-- A note changes neither the items nor the list. -/
theorem note_eq (s : NotifyPool) (r : Nat) (k : RxSlot) :
    (s.note r k).mRxNotifyPool = s.mRxNotifyPool ∧
      (s.note r k).mpReadNotifyList = s.mpReadNotifyList ∧ (s.note r k).phase = s.phase := by
  unfold NotifyPool.note
  split_ifs <;> exact ⟨rfl, rfl, rfl⟩

/-! ## The list -/

theorem Listed.of_eq (h : Listed s) (hlist : s'.mpReadNotifyList = s.mpReadNotifyList)
    (hdata : ∀ k, (s'.mRxNotifyPool k).mpData = (s.mRxNotifyPool k).mpData) : Listed s' := by
  refine ⟨hlist ▸ h.once, fun k => ?_⟩
  rw [hlist, hdata]
  exact h.mpData k

theorem Listed.sameRegs (h : Listed s) (hs : SameRegs s s') : Listed s' := h.of_eq hs.list hs.mpData

theorem Listed.setPhase (h : Listed s) (r : Nat) (p : ReadSyncPhase) : Listed (s.setPhase r p) :=
  h.of_eq rfl fun _ => rfl

theorem Listed.qtiClearEvent (h : Listed s) (r : Nat) (k : RxSlot) (event : Int) :
    Listed (s.qtiClearEvent r k event) := by
  obtain ⟨hpool, hlist, -⟩ := note_eq s r k
  have hitem {item : RxNotifyItem} (hdata : item.mpData = (s.mRxNotifyPool k).mpData) :
      Listed ((s.note r k).setItem k item) := by
    refine h.of_eq hlist fun j => ?_
    rcases eq_or_ne j k with rfl | hne
    · simp [NotifyPool.setItem, hdata]
    · simp [NotifyPool.setItem, hne, hpool]
  unfold NotifyPool.qtiClearEvent
  split_ifs
  · exact hitem rfl
  · exact hitem rfl
  · exact h

/-- What `RemoveNotification` leaves: the item is free, the others are as they were. -/
theorem removeNotification_spec (h : Listed s) (r : Nat) (k : RxSlot) :
    Listed (s.removeNotification r k) ∧
      ((s.removeNotification r k).mRxNotifyPool k).mpData = false ∧
      (∀ j, j ≠ k → (s.removeNotification r k).mRxNotifyPool j = s.mRxNotifyPool j) ∧
      (s.removeNotification r k).phase = s.phase := by
  obtain ⟨hpool, hlist, hphase⟩ := note_eq s r k
  unfold NotifyPool.removeNotification
  split_ifs with hin
  · refine ⟨⟨h.once.erase k, fun j => ?_⟩, by simp [NotifyPool.setItem], fun j hj => ?_, hphase⟩
    · rcases eq_or_ne j k with rfl | hne
      · simp [NotifyPool.setItem, h.once.not_mem_erase]
      · rw [List.mem_erase_of_ne hne, h.mpData]
        simp [NotifyPool.setItem, hne, hpool]
    · simp [NotifyPool.setItem, hj, hpool]
  · refine ⟨h, ?_, fun _ _ => rfl, rfl⟩
    rw [h.mpData, and_self, Bool.not_eq_true] at hin
    exact hin

theorem Listed.leave (h : Listed s) (r dataSize : Nat) (k : RxSlot) :
    Listed (s.leave r dataSize k) :=
  ((removeNotification_spec h r k).1.sameRegs (sameRegs_notifyUserRequest _ _ _)).setPhase r _

/-- The item that is handed out is free. -/
theorem allocateRxNotifyItem_free (hk : s.allocateRxNotifyItem = some k) :
    (s.mRxNotifyPool k).mpData = false := by
  simpa using List.find?_some hk

theorem Listed.addToNotifyList (h : Listed s) (hk : s.allocateRxNotifyItem = some k)
    (r size : Nat) : Listed (s.addToNotifyList r size k) := by
  have hfree := allocateRxNotifyItem_free hk
  have hnot : k ∉ s.mpReadNotifyList := fun hin => by
    rw [h.mpData, hfree] at hin
    cases hin
  refine ⟨h.once.append (List.nodup_singleton k) (by simpa using hnot), fun j => ?_⟩
  rcases eq_or_ne j k with rfl | hne
  · simp [NotifyPool.addToNotifyList, NotifyPool.setItem]
  · simpa [NotifyPool.addToNotifyList, NotifyPool.setItem, hne] using h.mpData j

/-- The loop of `ClearNotifyList` frees the items it comes to. -/
theorem foldl_cancelItem (items : List RxSlot) (s : NotifyPool) :
    (∀ j, ((items.foldl NotifyPool.cancelItem s).mRxNotifyPool j).mpData = true →
      j ∉ items ∧ (s.mRxNotifyPool j).mpData = true) ∧
      (items.foldl NotifyPool.cancelItem s).phase = s.phase ∧
      (items.foldl NotifyPool.cancelItem s).foreign = s.foreign := by
  induction items generalizing s with
  | nil => exact ⟨fun j hj => ⟨List.not_mem_nil, hj⟩, rfl, rfl⟩
  | cons k items ih =>
    obtain ⟨hfree, hphase, hforeign⟩ := ih (s.cancelItem k)
    refine ⟨fun j hj => ?_, hphase, hforeign⟩
    obtain ⟨hnot, hdata⟩ := hfree j hj
    have hne : j ≠ k := by
      rintro rfl
      simp [NotifyPool.cancelItem, NotifyPool.setItem] at hdata
    simp only [NotifyPool.cancelItem, NotifyPool.setItem, Function.update_of_ne hne] at hdata
    exact ⟨by simp [hne, hnot], hdata⟩

/-- After `ClearNotifyList` no item is registered. -/
theorem clearNotifyList_free (h : Listed s) (j : RxSlot) :
    (s.clearNotifyList.mRxNotifyPool j).mpData = false := by
  rw [← Bool.not_eq_true]
  intro hj
  obtain ⟨hnot, hdata⟩ := (foldl_cancelItem s.mpReadNotifyList s).1 j hj
  exact hnot ((h.mpData j).mpr hdata)

theorem Listed.clearNotifyList (h : Listed s) : Listed s.clearNotifyList := by
  refine ⟨List.nodup_nil, fun j => ?_⟩
  rw [clearNotifyList_free h j]
  exact iff_of_false List.not_mem_nil nofun

theorem notifyPoolStep_listed {ev : NotifyPoolEvent} {o : Unit} (h : Listed s)
    (hstep : notifyPoolStep s ev = some (s', o)) : Listed s' := by
  cases ev with
  | register r size dataSize =>
    simp only [notifyPoolStep] at hstep
    split at hstep
    · split at hstep
      · cases hstep
        exact h
      · rename_i k hk
        cases hstep
        exact ((h.addToNotifyList hk r size).sameRegs (sameRegs_notifyUserRequest _ _ _)).setPhase r _
    · cases hstep
  | wake r =>
    simp only [notifyPoolStep] at hstep
    split at hstep
    · split at hstep
      · cases hstep
        exact h.setPhase r _
      · cases hstep
    · cases hstep
  | giveUp r interrupted =>
    simp only [notifyPoolStep] at hstep
    split at hstep
    · split at hstep
      · cases hstep
      · cases hstep
        exact h.setPhase r _
    · cases hstep
  | scan r left =>
    simp only [notifyPoolStep] at hstep
    split at hstep
    · cases hstep
      exact h.setPhase r _
    · cases hstep
  | relock r dataSize =>
    simp only [notifyPoolStep] at hstep
    split at hstep
    · split_ifs at hstep
      · cases hstep
        exact (h.qtiClearEvent r _ _).setPhase r _
      · cases hstep
        exact (h.qtiClearEvent r _ _).leave r dataSize _
      · cases hstep
        exact h.leave r dataSize _
    · cases hstep
  | copied r dataSize =>
    simp only [notifyPoolStep] at hstep
    split at hstep
    · cases hstep
      exact h.leave r dataSize _
    · cases hstep
  | notify dataSize =>
    cases hstep
    exact h.sameRegs (sameRegs_notifyUserRequest _ _ _)
  | clearNotifyList =>
    cases hstep
    exact h.clearNotifyList

theorem init_listed : Listed .init := ⟨List.nodup_nil, fun _ => iff_of_false List.not_mem_nil nofun⟩

/-- In every run the list holds each item at most once, and exactly those with `mpData`. -/
theorem notifyPool_listed (evs : List NotifyPoolEvent) :
    ∀ s ∈ notifyPoolStep.visits .init evs, Listed s :=
  Machine.visits_all (fun _ _ _ _ h _ hstep => notifyPoolStep_listed h hstep) init_listed
    fun _ _ => trivial

/-! ## Who holds an item -/

/-- A registered item is held by its owner, nobody else holds it, and nothing foreign was
touched. -/
structure Held (s : NotifyPool) : Prop where
  listed : Listed s
  owner : ∀ k, (s.mRxNotifyPool k).mpData = true →
    (s.phase (s.mRxNotifyPool k).owner).holds = some k
  unique : ∀ r r' k, (s.phase r).holds = some k → (s.phase r').holds = some k → r = r'
  own : OwnOnly s

/-- The item a reader holds is registered by itself or not at all. -/
theorem Held.not_foreign (h : Held s) (hr : (s.phase r).holds = some k) : ¬ s.Foreign r k :=
  fun hforeign => hforeign.2 (h.unique _ _ _ (h.owner k hforeign.1) hr)

theorem Held.sameRegs (h : Held s) (hs : SameRegs s s') : Held s' where
  listed := h.listed.sameRegs hs
  owner := by
    intro k hk
    rw [hs.phase, hs.owner]
    exact h.owner k (hs.mpData k ▸ hk)
  unique := by
    rw [hs.phase]
    exact h.unique
  own := hs.foreign.trans h.own

/-- A reader goes on with the item it holds. -/
theorem Held.setPhase {p : ReadSyncPhase} (h : Held s) (hp : p.holds = (s.phase r).holds) :
    Held (s.setPhase r p) := by
  have hsame (i : Nat) : ((s.setPhase r p).phase i).holds = (s.phase i).holds := by
    rcases eq_or_ne i r with rfl | hne
    · simp [NotifyPool.setPhase, hp]
    · simp [NotifyPool.setPhase, hne]
  refine ⟨h.listed.setPhase r p, fun k hk => ?_, fun i j k hi hj => ?_, h.own⟩
  · rw [hsame]
    exact h.owner k hk
  · rw [hsame] at hi hj
    exact h.unique i j k hi hj

/-- A reader that lets its item go. -/
theorem Held.release (h : Held s) (hr : (s.phase r).holds = some k)
    (hfree : (s.mRxNotifyPool k).mpData = false) : Held (s.setPhase r .idle) := by
  have hother {i : Nat} {j : RxSlot} (hi : ((s.setPhase r .idle).phase i).holds = some j) :
      i ≠ r ∧ (s.phase i).holds = some j := by
    rcases eq_or_ne i r with rfl | hne
    · simp [NotifyPool.setPhase, ReadSyncPhase.holds] at hi
    · exact ⟨hne, by simpa [NotifyPool.setPhase, hne] using hi⟩
  refine ⟨h.listed.setPhase r _, fun j hj => ?_, fun i i' j hi hi' => ?_, h.own⟩
  · have howner := h.owner j hj
    have hne : (s.mRxNotifyPool j).owner ≠ r := fun heq => by
      -- then `j` is the item that is free
      rw [heq, hr, Option.some.injEq] at howner
      subst howner
      exact absurd (hj.symm.trans hfree) nofun
    simpa [NotifyPool.setPhase, hne] using howner
  · exact h.unique i i' j (hother hi).2 (hother hi').2

theorem Held.removeNotification (h : Held s) (hr : (s.phase r).holds = some k) :
    Held (s.removeNotification r k) := by
  obtain ⟨hlisted, hfree, hothers, hphase⟩ := removeNotification_spec h.listed r k
  refine ⟨hlisted, fun j hj => ?_, ?_, ?_⟩
  · have hne : j ≠ k := by
      rintro rfl
      exact absurd (hj.symm.trans hfree) nofun
    rw [hothers j hne] at hj ⊢
    rw [hphase]
    exact h.owner j hj
  · rw [hphase]
    exact h.unique
  · unfold NotifyPool.removeNotification
    rw [note_of_not_foreign (h.not_foreign hr)]
    split_ifs <;> exact h.own

theorem Held.leave (h : Held s) (dataSize : Nat) (hr : (s.phase r).holds = some k) :
    Held (s.leave r dataSize k) := by
  have hremoved := h.removeNotification hr
  obtain ⟨-, hfree, -, hphase⟩ := removeNotification_spec h.listed r k
  have hsame := sameRegs_notifyUserRequest (s.removeNotification r k) dataSize none
  refine (hremoved.sameRegs hsame).release (k := k) ?_ ?_
  · rw [hsame.phase, hphase]
    exact hr
  · rw [hsame.mpData, hfree]

theorem Held.register (h : Held s) (hk : s.allocateRxNotifyItem = some k)
    (hnobody : ∀ i, (s.phase i).holds ≠ some k) (hidle : s.phase r = .idle) (size dataSize : Nat) :
    Held (((s.addToNotifyList r size k).notifyUserRequest dataSize (some k)).setPhase r
      (.waiting k)) := by
  have hsame := sameRegs_notifyUserRequest (s.addToNotifyList r size k) dataSize (some k)
  obtain ⟨t, ht⟩ : ∃ t, t = (s.addToNotifyList r size k).notifyUserRequest dataSize (some k) :=
    ⟨_, rfl⟩
  rw [← ht] at hsame ⊢
  have hphase : t.phase = s.phase := hsame.phase
  have hself : ((t.setPhase r (.waiting k)).phase r).holds = some k := by
    simp [NotifyPool.setPhase, ReadSyncPhase.holds]
  have hother {i : Nat} (hne : i ≠ r) :
      (t.setPhase r (.waiting k)).phase i = s.phase i := by
    simp [NotifyPool.setPhase, hne, hphase]
  refine ⟨((h.listed.addToNotifyList hk r size).sameRegs hsame).setPhase r _, fun j hj => ?_,
    fun i i' j hi hi' => ?_, hsame.foreign.trans h.own⟩
  · change (t.mRxNotifyPool j).mpData = true at hj
    change ((t.setPhase r (.waiting k)).phase (t.mRxNotifyPool j).owner).holds = some j
    rw [hsame.mpData] at hj
    rw [hsame.owner]
    rcases eq_or_ne j k with rfl | hne
    · have howner : ((s.addToNotifyList r size j).mRxNotifyPool j).owner = r := by
        simp [NotifyPool.addToNotifyList, NotifyPool.setItem]
      rw [howner]
      exact hself
    · have hitem : (s.addToNotifyList r size k).mRxNotifyPool j = s.mRxNotifyPool j := by
        simp [NotifyPool.addToNotifyList, NotifyPool.setItem, hne]
      rw [hitem] at hj ⊢
      have howner := h.owner j hj
      have hneq : (s.mRxNotifyPool j).owner ≠ r := fun heq => by
        rw [heq, hidle] at howner
        cases howner
      rw [hother hneq]
      exact howner
  · -- the new item is held by nobody else
    have hold {i : Nat} (hi : ((t.setPhase r (.waiting k)).phase i).holds = some j) :
        i = r ∧ j = k ∨ i ≠ r ∧ j ≠ k ∧ (s.phase i).holds = some j := by
      rcases eq_or_ne i r with rfl | hne
      · exact .inl ⟨rfl, Option.some.inj (hi.symm.trans hself)⟩
      · rw [hother hne] at hi
        exact .inr ⟨hne, fun heq => hnobody i (heq ▸ hi), hi⟩
    rcases hold hi with ⟨rfl, rfl⟩ | ⟨-, hjk, hi⟩ <;>
      rcases hold hi' with ⟨rfl, hk'⟩ | ⟨-, hjk', hi'⟩
    · rfl
    · exact absurd rfl hjk'
    · exact absurd hk' hjk
    · exact h.unique i i' j hi hi'

theorem Held.clearNotifyList (h : Held s) : Held s.clearNotifyList := by
  obtain ⟨-, hphase, hforeign⟩ := foldl_cancelItem s.mpReadNotifyList s
  refine ⟨h.listed.clearNotifyList, fun j hj => ?_, ?_, hforeign.trans h.own⟩
  · exact absurd (hj.symm.trans (clearNotifyList_free h.listed j)) nofun
  · intro i j k hi hj
    rw [show s.clearNotifyList.phase = s.phase from hphase] at hi hj
    exact h.unique i j k hi hj

theorem notifyPoolStep_held {ev : NotifyPoolEvent} {o : Unit} (h : Held s) (hok : HandsOutFree s ev)
    (hstep : notifyPoolStep s ev = some (s', o)) : Held s' := by
  cases ev with
  | register r size dataSize =>
    simp only [notifyPoolStep] at hstep
    split at hstep
    · rename_i hidle
      split at hstep
      · cases hstep
        exact h
      · rename_i k hk
        cases hstep
        exact h.register hk (hok k hk) hidle size dataSize
    · cases hstep
  | wake r =>
    simp only [notifyPoolStep] at hstep
    split at hstep
    · rename_i k hphase
      split at hstep
      · cases hstep
        exact h.setPhase (by rw [hphase]; rfl)
      · cases hstep
    · cases hstep
  | giveUp r interrupted =>
    simp only [notifyPoolStep] at hstep
    split at hstep
    · rename_i k hphase
      split at hstep
      · cases hstep
      · cases hstep
        exact h.setPhase (by rw [hphase]; rfl)
    · cases hstep
  | scan r left =>
    simp only [notifyPoolStep] at hstep
    split at hstep
    · rename_i k hphase
      cases hstep
      exact h.setPhase (by rw [hphase]; rfl)
    · cases hstep
  | relock r dataSize =>
    simp only [notifyPoolStep] at hstep
    split at hstep
    · rename_i k result hphase
      have hr : (s.phase r).holds = some k := by rw [hphase]; rfl
      have hcleared := sameRegs_qtiClearEvent (h.not_foreign hr) result
      have hr' : ((s.qtiClearEvent r k result).phase r).holds = some k := hcleared.phase ▸ hr
      split_ifs at hstep
      · cases hstep
        exact (h.sameRegs hcleared).setPhase (hr'.symm ▸ rfl)
      · cases hstep
        exact (h.sameRegs hcleared).leave dataSize hr'
      · cases hstep
        exact h.leave dataSize hr
    · cases hstep
  | copied r dataSize =>
    simp only [notifyPoolStep] at hstep
    split at hstep
    · rename_i k hphase
      cases hstep
      exact h.leave dataSize (by rw [hphase]; rfl)
    · cases hstep
  | notify dataSize =>
    cases hstep
    exact h.sameRegs (sameRegs_notifyUserRequest _ _ _)
  | clearNotifyList =>
    cases hstep
    exact h.clearNotifyList

theorem init_held : Held .init :=
  ⟨init_listed, nofun, nofun, rfl⟩

/-- In every run in which an item is handed out only once its last reader has left, each
listed item is in the list once and has `mpData` set, and no reader unlinks or clears the
registration of another one. -/
theorem readers_withdraw_own (evs : List NotifyPoolEvent)
    (hok : ∀ p ∈ notifyPoolStep.fires .init evs, HandsOutFree p.1 p.2) :
    ∀ s ∈ notifyPoolStep.visits .init evs, Listed s ∧ OwnOnly s := by
  intro s hs
  have hheld : Held s := by
    refine Machine.visits_all_of_fires ?_ init_held hok s hs
    exact fun s ev s' o h hok hstep => notifyPoolStep_held h hok hstep
  exact ⟨hheld.listed, hheld.own⟩

instance (s : NotifyPool) : Decidable (OwnOnly s) := inferInstanceAs (Decidable (s.foreign = []))

/-- A reader that is cancelled and leaves, and then another one. -/
theorem readers_withdraw_own_flush :
    let evs := [.register 0 5 0, .clearNotifyList, .wake 0, .scan 0 9, .relock 0 0,
      .register 1 5 8, .wake 1, .scan 1 9, .relock 1 8, .copied 1 3]
    (∀ p ∈ notifyPoolStep.fires .init evs, HandsOutFree p.1 p.2) ∧
      ∀ s ∈ notifyPoolStep.visits .init evs, Listed s ∧ OwnOnly s := by
  intro evs
  have hok : ∀ p ∈ notifyPoolStep.fires .init evs, HandsOutFree p.1 p.2 := by
    refine Machine.forall_fires_cons (fun _ _ _ => nofun) ?_
    refine Machine.forall_fires_cons trivial <| Machine.forall_fires_cons trivial ?_
    refine Machine.forall_fires_cons trivial <| Machine.forall_fires_cons trivial ?_
    refine Machine.forall_fires_cons ?_ fun p hp => ?_
    · -- the first reader has left, and nobody else has come
      rintro k - (_ | r)
      · exact fun h : none = some k => nomatch h
      · exact fun h : none = some k => nomatch h
    · have hev := Machine.mem_of_mem_fires hp
      obtain ⟨s, ev⟩ := p
      simp only [List.mem_cons, List.not_mem_nil, or_false] at hev
      rcases hev with rfl | rfl | rfl | rfl <;> trivial
  exact ⟨hok, readers_withdraw_own evs hok⟩

/-- A flush frees the item of a reader that still waits. The next reader gets it, and the
first one unlinks it when it wakes up. -/
theorem foreign_unlinked :
    ∃ s ∈ notifyPoolStep.visits .init
      [.register 0 5 0, .clearNotifyList, .register 1 5 0, .wake 0, .scan 0 9, .relock 0 0],
      ¬ OwnOnly s := by
  decide +kernel

end QtiUsb
