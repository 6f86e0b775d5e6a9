-- SUMMARY: Blocking readers and the notifications they wait for: how long a semaphore may be used.
import QcomUsb.Library.Transition
import QcomUsb.UsbNet.ClientStore

/-!
# The lifetime of a waiter

The semaphore of a blocking reader lies on its stack. `NotifyAndPopNotifyList` unlinks the
reader's entry under the lock and runs `UpSem` once the lock is free, so a reader that gives
up in between does not find its entry, and returns.
-/

namespace UsbNet

open Transition

/-- Where a call of `ReadSync` or `ReadSyncTimeout` is. -/
inductive WaitPhase where
  | idle
  /-- It found no message, and `AddToNotifyList` is next. -/
  | looked (transactionID : UInt16)
  /-- It waits for its semaphore. -/
  | waiting (transactionID : UInt16)
  /-- Its wait was interrupted or ran out of time. It withdraws its entry next. -/
  | expired (transactionID : UInt16)
  | returned
  deriving DecidableEq, Repr

/-- The call has a semaphore that may be in the notify list. -/
def WaitPhase.Active : WaitPhase → Prop
  | .waiting _ => True
  | .expired _ => True
  | _ => False

/-- One client with its blocking calls. `upped` says that a semaphore was raised, `unlinked`
are the entries whose function is still to run, and `late` are the calls whose semaphore was
raised when they had returned. -/
structure LifetimeState where
  client : SClientMemList
  phase : Nat → WaitPhase
  upped : Nat → Bool
  unlinked : List SNotifyList
  late : List Nat

namespace LifetimeState

def init (clientID : UInt16) : LifetimeState where
  client := .new clientID
  phase := fun _ => .idle
  upped := fun _ => false
  unlinked := []
  late := []

def setPhase (s : LifetimeState) (r : Nat) (p : WaitPhase) : LifetimeState :=
  { s with phase := Function.update s.phase r p }

end LifetimeState

inductive LifetimeEvent where
  /-- A call looks for a message for the first time. -/
  | lookup (r : Nat) (transactionID : UInt16)
  /-- `sema_init` and `AddToNotifyList`. `alloc` is the allocation of the entry. -/
  | register (r : Nat) (alloc : Bool)
  /-- The semaphore was raised: the call looks again, if the device is still valid. -/
  | wake (r : Nat) (stillValid : Bool)
  /-- `down_interruptible` or `down_timeout` fails. -/
  | expire (r : Nat)
  /-- The critical section in which the call removes its own entry, and its return. -/
  | withdraw (r : Nat)
  /-- `ReadCallback` stores a message. -/
  | store (m : SReadMemList)
  /-- The critical section of `NotifyAndPopNotifyList`. -/
  | unlink (transactionID : UInt16)
  /-- `NotifyAndPopNotifyList` runs the function of an entry it has unlinked. -/
  | notifyFunct (e : SNotifyList)
  deriving DecidableEq, Repr

/-- `PopFromReadMemList` by a blocking call. -/
def LifetimeState.pop (s : LifetimeState) (r : Nat) (transactionID : UInt16) : LifetimeState :=
  let res := s.client.popFromReadMemList transactionID
  { s with client := res.2 }.setPhase r (if res.1.isSome then .returned else .looked transactionID)

/-- One critical section, or one step outside the lock. -/
def lifetimeStep : Machine LifetimeState LifetimeEvent Unit
  | s, .lookup r transactionID =>
    match s.phase r with
    | .idle => some (s.pop r transactionID, ())
    | _ => none
  | s, .register r alloc =>
    match s.phase r with
    | .looked transactionID =>
      if alloc then
        some ({ s with
          client := s.client.addToNotifyList ⟨.upSem, transactionID, r⟩
          upped := Function.update s.upped r false }.setPhase r (.waiting transactionID), ())
      else some (s.setPhase r .returned, ())
    | _ => none
  | s, .wake r stillValid =>
    match s.phase r, s.upped r with
    | .waiting transactionID, true =>
      if stillValid then some (s.pop r transactionID, ()) else some (s.setPhase r .returned, ())
    | _, _ => none
  | s, .expire r =>
    match s.phase r, s.upped r with
    | .waiting transactionID, false => some (s.setPhase r (.expired transactionID), ())
    | _, _ => none
  | s, .withdraw r =>
    match s.phase r with
    | .expired _ =>
      some ({ s with client := s.client.removeFromNotifyList r }.setPhase r .returned, ())
    | _ => none
  | s, .store m => some ({ s with client := s.client.addToReadMemList m }, ())
  | s, .unlink transactionID =>
    let res := s.client.notifyAndPopNotifyList transactionID
    some ({ s with client := res.2, unlinked := s.unlinked ++ res.1.toList }, ())
  | s, .notifyFunct e =>
    if e ∈ s.unlinked then
      some ({ s with
        unlinked := s.unlinked.erase e
        upped := Function.update s.upped e.mpData true
        late := if s.phase e.mpData = .returned then s.late ++ [e.mpData] else s.late }, ())
    else none

/-- No semaphore was raised after its call had returned. -/
def NoLateUp (s : LifetimeState) : Prop := s.late = []

/-- The condition on a step: a call withdraws only if no notification has unlinked its entry
and is still to run its function. -/
def WithdrawsOwn (s : LifetimeState) : LifetimeEvent → Prop
  | .withdraw r => ∀ e ∈ s.unlinked, e.mpData ≠ r
  | _ => True

instance (s : LifetimeState) (ev : LifetimeEvent) : Decidable (WithdrawsOwn s ev) :=
  match ev with
  | .withdraw r => inferInstanceAs (Decidable (∀ e ∈ s.unlinked, e.mpData ≠ r))
  | .lookup _ _ | .register _ _ | .wake _ _ | .expire _ | .store _ | .unlink _
  | .notifyFunct _ => isTrue trivial

instance (s : LifetimeState) : Decidable (NoLateUp s) :=
  inferInstanceAs (Decidable (s.late = []))

/-! ## The entries of a call -/

/-- The calls that have an entry, in the list or unlinked. -/
def LifetimeState.entries (s : LifetimeState) : List Nat :=
  (s.client.mReadNotifyList ++ s.unlinked).map (·.mpData)

/-- The invariant: each call has at most one entry, it has one only while it is in its wait,
and none once its semaphore is raised. -/
structure LifetimeInv (s : LifetimeState) : Prop where
  nodup : s.entries.Nodup
  active : ∀ r ∈ s.entries, (s.phase r).Active
  not_upped : ∀ r ∈ s.entries, s.upped r = false
  late : s.late = []

variable {s s' : LifetimeState} {r : Nat}

/-- A call that has no entry may do what it likes. -/
theorem LifetimeInv.setPhase (h : LifetimeInv s) (hr : r ∉ s.entries) (p : WaitPhase) :
    LifetimeInv (s.setPhase r p) where
  nodup := h.nodup
  active := by
    intro i hi
    have hne : i ≠ r := fun heq => hr (heq ▸ hi)
    simpa only [LifetimeState.setPhase, Function.update_of_ne hne] using h.active i hi
  not_upped := h.not_upped
  late := h.late

/-- No entry is new. -/
theorem LifetimeInv.mono (h : LifetimeInv s) (hnodup : s'.entries.Nodup)
    (hsub : ∀ i ∈ s'.entries, i ∈ s.entries) (hphase : s'.phase = s.phase)
    (hupped : s'.upped = s.upped) (hlate : s'.late = s.late) : LifetimeInv s' where
  nodup := hnodup
  active := fun i hi => hphase ▸ h.active i (hsub i hi)
  not_upped := fun i hi => hupped ▸ h.not_upped i (hsub i hi)
  late := hlate.trans h.late

/-- The read list plays no part. -/
theorem LifetimeInv.of_client {c : SClientMemList} (h : LifetimeInv s)
    (hc : c.mReadNotifyList = s.client.mReadNotifyList) : LifetimeInv { s with client := c } := by
  have hentries : LifetimeState.entries { s with client := c } = s.entries := by
    rw [LifetimeState.entries, LifetimeState.entries, hc]
  exact h.mono (hentries ▸ h.nodup) (fun _ hi => hentries ▸ hi) rfl rfl rfl

theorem LifetimeInv.pop (h : LifetimeInv s) (hr : r ∉ s.entries) (transactionID : UInt16) :
    LifetimeInv (s.pop r transactionID) := by
  have hc := s.client.popFromReadMemList_mReadNotifyList transactionID
  refine LifetimeInv.setPhase (h.of_client hc) ?_ _
  rw [LifetimeState.entries, hc]
  exact hr

theorem LifetimeInv.not_entry (h : LifetimeInv s) (hphase : ¬ (s.phase r).Active) :
    r ∉ s.entries := fun hr => hphase (h.active r hr)

theorem LifetimeInv.not_entry_of_upped (h : LifetimeInv s) (hupped : s.upped r = true) :
    r ∉ s.entries := fun hr => absurd (hupped.symm.trans (h.not_upped r hr)) nofun

/-- A call whose semaphore is new gets an entry. -/
theorem LifetimeInv.register (h : LifetimeInv s) (hr : r ∉ s.entries) (transactionID : UInt16) :
    LifetimeInv ({ s with
      client := s.client.addToNotifyList ⟨.upSem, transactionID, r⟩
      upped := Function.update s.upped r false }.setPhase r (.waiting transactionID)) := by
  let e : SNotifyList := ⟨.upSem, transactionID, r⟩
  have hperm : ((s.client.mReadNotifyList ++ [e] ++ s.unlinked).map (·.mpData)).Perm
      (r :: s.entries) := by
    rw [List.append_assoc]
    exact List.perm_middle.map SNotifyList.mpData
  have hor {i : Nat} (hi : i ∈ (s.client.mReadNotifyList ++ [e] ++ s.unlinked).map (·.mpData)) :
      i = r ∨ i ≠ r ∧ i ∈ s.entries := by
    rcases List.mem_cons.mp (hperm.subset hi) with heq | hi
    · exact .inl heq
    · exact .inr ⟨fun heq => hr (heq ▸ hi), hi⟩
  refine ⟨hperm.nodup_iff.mpr (List.nodup_cons.mpr ⟨hr, h.nodup⟩), ?_, ?_, h.late⟩
  · intro i hi
    rcases hor hi with rfl | ⟨hne, hi⟩
    · simp [LifetimeState.setPhase, WaitPhase.Active]
    · simpa only [LifetimeState.setPhase, Function.update_of_ne hne] using h.active i hi
  · intro i hi
    rcases hor hi with rfl | ⟨hne, hi⟩
    · simp [LifetimeState.setPhase]
    · simpa only [LifetimeState.setPhase, Function.update_of_ne hne] using h.not_upped i hi

/-- The wait ends without the semaphore. -/
theorem LifetimeInv.expire (h : LifetimeInv s) (transactionID : UInt16) :
    LifetimeInv (s.setPhase r (.expired transactionID)) where
  nodup := h.nodup
  active := by
    intro i hi
    rcases eq_or_ne i r with rfl | hne
    · simp [LifetimeState.setPhase, WaitPhase.Active]
    · simpa only [LifetimeState.setPhase, Function.update_of_ne hne] using h.active i hi
  not_upped := h.not_upped
  late := h.late

/-- A call that withdraws its own entry has none left. -/
theorem LifetimeInv.withdraw (h : LifetimeInv s) (hr : ∀ e ∈ s.unlinked, e.mpData ≠ r) :
    LifetimeInv
      ({ s with client := s.client.removeFromNotifyList r }.setPhase r .returned) := by
  have hsub : List.Sublist
      (((s.client.removeFromNotifyList r).mReadNotifyList ++ s.unlinked).map (·.mpData))
      s.entries :=
    ((s.client.removeFromNotifyList_sublist r).append_right s.unlinked).map _
  have hremoved : r ∉ (s.client.removeFromNotifyList r).mReadNotifyList.map (·.mpData) := by
    have herase : (s.client.removeFromNotifyList r).mReadNotifyList.map (·.mpData) =
        (s.client.mReadNotifyList.map (·.mpData)).erase r := by
      rw [List.erase_eq_eraseP', List.eraseP_map]
      rfl
    have hnodup : (s.client.mReadNotifyList.map (·.mpData)).Nodup := by
      have := h.nodup
      rw [LifetimeState.entries, List.map_append] at this
      exact this.of_append_left
    rw [herase]
    exact hnodup.not_mem_erase
  have hkept : LifetimeInv { s with client := s.client.removeFromNotifyList r } :=
    h.mono (h.nodup.sublist hsub) (fun i hi => hsub.subset hi) rfl rfl rfl
  refine hkept.setPhase ?_ _
  rw [LifetimeState.entries, List.map_append, List.mem_append]
  rintro (hlisted | hunlinked)
  · exact hremoved hlisted
  · obtain ⟨e, he, heq⟩ := List.mem_map.mp hunlinked
    exact hr e he heq

/-- A notification takes an entry from the list to those whose function is to run. -/
theorem LifetimeInv.unlink (h : LifetimeInv s) (transactionID : UInt16) :
    LifetimeInv { s with
      client := (s.client.notifyAndPopNotifyList transactionID).2
      unlinked := s.unlinked ++ (s.client.notifyAndPopNotifyList transactionID).1.toList } := by
  have hperm : (((s.client.notifyAndPopNotifyList transactionID).2.mReadNotifyList ++
      (s.unlinked ++ (s.client.notifyAndPopNotifyList transactionID).1.toList)).map
        (·.mpData)).Perm s.entries := by
    refine List.Perm.map _ ?_
    cases hres : (s.client.notifyAndPopNotifyList transactionID).1 with
    | none =>
      rw [s.client.notifyAndPopNotifyList_none hres]
      simp
    | some e =>
      have hlist := s.client.notifyAndPopNotifyList_perm hres
      have hlast : ((s.client.notifyAndPopNotifyList transactionID).2.mReadNotifyList ++
          (s.unlinked ++ [e])).Perm
          (e :: (s.client.notifyAndPopNotifyList transactionID).2.mReadNotifyList ++
            s.unlinked) := by
        rw [← List.append_assoc]
        exact List.perm_append_singleton e _
      exact hlast.trans (hlist.symm.append_right _)
  exact h.mono (hperm.nodup_iff.mpr h.nodup) (fun i hi => hperm.subset hi) rfl rfl rfl

/-- The function of an unlinked entry finds its call in its wait. -/
theorem LifetimeInv.notifyFunct {e : SNotifyList} (h : LifetimeInv s) (he : e ∈ s.unlinked) :
    LifetimeInv { s with
      unlinked := s.unlinked.erase e
      upped := Function.update s.upped e.mpData true
      late := if s.phase e.mpData = .returned then s.late ++ [e.mpData] else s.late } := by
  have hentry : e.mpData ∈ s.entries :=
    List.mem_map_of_mem (List.mem_append_right _ he)
  have hactive := h.active _ hentry
  have hlive : s.phase e.mpData ≠ .returned := fun heq => by
    rw [heq] at hactive
    exact hactive
  have hperm : s.entries.Perm (e.mpData ::
      (s.client.mReadNotifyList ++ s.unlinked.erase e).map (·.mpData)) := by
    have hmove := (List.perm_cons_erase he).append_left s.client.mReadNotifyList
    exact (hmove.trans List.perm_middle).map _
  obtain ⟨hgone, hnodup⟩ := List.nodup_cons.mp (hperm.nodup_iff.mp h.nodup)
  have hsub : ∀ i ∈ (s.client.mReadNotifyList ++ s.unlinked.erase e).map (·.mpData),
      i ∈ s.entries := fun i hi => hperm.mem_iff.mpr (List.mem_cons_of_mem _ hi)
  refine ⟨hnodup, fun i hi => h.active i (hsub i hi), ?_, ?_⟩
  · intro i hi
    have hne : i ≠ e.mpData := fun heq => hgone (heq ▸ hi)
    simpa only [Function.update_of_ne hne] using h.not_upped i (hsub i hi)
  · simp only [if_neg hlive, h.late]

/-! ## Steps and runs -/

theorem lifetimeStep_inv {ev : LifetimeEvent} {o : Unit} (h : LifetimeInv s)
    (hok : WithdrawsOwn s ev) (hstep : lifetimeStep s ev = some (s', o)) : LifetimeInv s' := by
  cases ev with
  | lookup r transactionID =>
    simp only [lifetimeStep] at hstep
    split at hstep
    · rename_i hphase
      cases hstep
      exact h.pop (h.not_entry (by simp [hphase, WaitPhase.Active])) transactionID
    · cases hstep
  | register r alloc =>
    simp only [lifetimeStep] at hstep
    split at hstep
    · rename_i transactionID hphase
      have hr : r ∉ s.entries := h.not_entry (by simp [hphase, WaitPhase.Active])
      split at hstep
      · cases hstep
        exact h.register hr transactionID
      · cases hstep
        exact h.setPhase hr _
    · cases hstep
  | wake r stillValid =>
    simp only [lifetimeStep] at hstep
    split at hstep
    · rename_i transactionID _ hupped
      have hr : r ∉ s.entries := h.not_entry_of_upped hupped
      split at hstep
      · cases hstep
        exact h.pop hr transactionID
      · cases hstep
        exact h.setPhase hr _
    · cases hstep
  | expire r =>
    simp only [lifetimeStep] at hstep
    split at hstep
    · rename_i transactionID _ _
      cases hstep
      exact h.expire transactionID
    · cases hstep
  | withdraw r =>
    simp only [lifetimeStep] at hstep
    split at hstep
    · cases hstep
      exact h.withdraw hok
    · cases hstep
  | store m =>
    cases hstep
    exact h.of_client rfl
  | unlink transactionID =>
    cases hstep
    exact h.unlink transactionID
  | notifyFunct e =>
    simp only [lifetimeStep] at hstep
    split at hstep
    · rename_i he
      cases hstep
      exact h.notifyFunct he
    · cases hstep

theorem init_lifetimeInv (clientID : UInt16) : LifetimeInv (.init clientID) :=
  ⟨List.nodup_nil, nofun, nofun, rfl⟩

/-- In every run in which no call withdraws while a notification has unlinked its entry and
is still to run its function, no semaphore is raised after its call has returned. -/
theorem noLateUp_of_withdrawsOwn (clientID : UInt16) (evs : List LifetimeEvent)
    (hok : ∀ p ∈ lifetimeStep.fires (.init clientID) evs, WithdrawsOwn p.1 p.2) :
    ∀ s ∈ lifetimeStep.visits (.init clientID) evs, NoLateUp s := by
  intro s hs
  have hinv : LifetimeInv s := by
    refine Machine.visits_all_of_fires ?_ (init_lifetimeInv clientID) hok s hs
    exact fun s ev s' o h hok hstep => lifetimeStep_inv h hok hstep
  exact hinv.late

theorem noLateUp_of_withdrawsOwn_timeout :
    let evs := [.lookup 0 7, .register 0 true, .lookup 1 9, .register 1 true, .unlink 9, .expire 0,
      .withdraw 0, .notifyFunct ⟨.upSem, 9, 1⟩, .wake 1 true]
    (∀ p ∈ lifetimeStep.fires (.init 0x0101) evs, WithdrawsOwn p.1 p.2) ∧
      ∀ s ∈ lifetimeStep.visits (.init 0x0101) evs, NoLateUp s := by
  intro evs
  have hok : ∀ p ∈ lifetimeStep.fires (.init 0x0101) evs, WithdrawsOwn p.1 p.2 := by
    decide +kernel
  exact ⟨hok, noLateUp_of_withdrawsOwn 0x0101 evs hok⟩

/-- A notification unlinks the entry, the wait runs out, and the function runs once the call
has returned. -/
theorem late_up :
    ∃ s ∈ lifetimeStep.visits (.init 0x0101)
      [.lookup 0 7, .register 0 true, .unlink 7, .expire 0, .withdraw 0,
        .notifyFunct ⟨.upSem, 7, 0⟩], ¬ NoLateUp s := by
  decide +kernel

end UsbNet
