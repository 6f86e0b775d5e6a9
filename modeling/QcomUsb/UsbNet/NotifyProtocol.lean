-- SUMMARY: Readers and ReadCallback on one client's memory, and when a wake-up is lost.
import QcomUsb.Library.Transition
import QcomUsb.UsbNet.ClientStore

/-!
# The notify protocol

A reader looks for a message and, if there is none, registers for a notification.
`ReadCallback` stores a message and then notifies one reader. Each of the four is a
critical section of its own, so a reader can register for a message whose
notification has already been given away.
-/

namespace UsbNet

open Transition

/-- `ReadSync` and `ReadSyncTimeout` take the message and wait for it. `ReadAsync` only looks
for it, and has a callback take it. -/
inductive ReadKind where
  | sync
  | async
  deriving DecidableEq, Repr

/-- The function a reader registers. `ReadAsync` is also called with `UpSem`, which makes
no difference to the store. -/
def ReadKind.notifyFunct : ReadKind → NotifyFunct
  | .sync => .upSem
  | .async => .callback

/-- Where a reader is between two critical sections. -/
inductive ReaderPhase where
  | idle
  /-- It found nothing, and `AddToNotifyList` is next. -/
  | looked (kind : ReadKind) (transactionID : UInt16)
  /-- It is registered. -/
  | waiting (kind : ReadKind) (transactionID : UInt16)
  /-- It was notified, or found a message, and takes it next. -/
  | woken (kind : ReadKind) (transactionID : UInt16)
  deriving DecidableEq, Repr

/-- One client with its readers. `pending` are the messages that `ReadCallback` has
stored and not yet notified of, `nextData` is where the next message will be copied to. -/
structure NotifyState where
  client : SClientMemList
  pending : List SReadMemList
  phase : Nat → ReaderPhase
  nextData : Nat

def NotifyState.setPhase (s : NotifyState) (r : Nat) (p : ReaderPhase) : NotifyState :=
  { s with phase := fun i => if i = r then p else s.phase i }

/-- A client without messages and readers. -/
def NotifyState.init (clientID : UInt16) : NotifyState where
  client := .new clientID
  pending := []
  phase := fun _ => .idle
  nextData := 0

inductive NotifyEvent where
  /-- A reader starts: it looks for a message. -/
  | lookup (r : Nat) (kind : ReadKind) (transactionID : UInt16)
  /-- A reader that found nothing registers. `alloc` is the allocation of the entry. -/
  | register (r : Nat) (alloc : Bool)
  /-- A reader that blocks is interrupted, or its timeout runs out. -/
  | interrupt (r : Nat)
  /-- A reader that was notified takes its message. -/
  | resume (r : Nat)
  /-- `ReadCallback` stores a message. -/
  | store (transactionID : UInt16) (alloc : Bool)
  /-- `ReadCallback` notifies of the message it has stored. -/
  | notify (m : SReadMemList)
  deriving DecidableEq, Repr

/-- `PopFromReadMemList` by a reader that blocks. -/
def syncPop (s : NotifyState) (r : Nat) (transactionID : UInt16) : NotifyState :=
  let res := s.client.popFromReadMemList transactionID
  { s with client := res.2 }.setPhase r
    (if res.1.isSome then .idle else .looked .sync transactionID)

/-- One critical section. -/
def notifyStep : Machine NotifyState NotifyEvent Unit
  | s, .lookup r kind transactionID =>
    match s.phase r, kind with
    | .idle, .sync => some (syncPop s r transactionID, ())
    | .idle, .async =>
      let found := s.client.mList.any fun m => decide (m.Answers transactionID)
      some (s.setPhase r
        (if found then .woken .async transactionID else .looked .async transactionID), ())
    | _, _ => none
  | s, .register r alloc =>
    match s.phase r with
    | .looked kind transactionID =>
      if alloc then
        some ({ s with
          client := s.client.addToNotifyList ⟨kind.notifyFunct, transactionID, r⟩ }.setPhase r
            (.waiting kind transactionID), ())
      else some (s.setPhase r .idle, ())
    | _ => none
  | s, .interrupt r =>
    match s.phase r with
    | .waiting .sync _ | .woken .sync _ =>
      some ({ s with client := s.client.removeFromNotifyList r }.setPhase r .idle, ())
    | _ => none
  | s, .resume r =>
    match s.phase r with
    | .woken .sync transactionID => some (syncPop s r transactionID, ())
    | .woken .async transactionID =>
      some ({ s with client := (s.client.popFromReadMemList transactionID).2 }.setPhase r .idle, ())
    | _ => none
  | s, .store transactionID alloc =>
    if alloc then
      let m : SReadMemList := ⟨s.nextData, transactionID⟩
      some ({ s with
        client := s.client.addToReadMemList m
        pending := s.pending ++ [m]
        nextData := s.nextData + 1 }, ())
    else some (s, ())
  | s, .notify m =>
    if m ∈ s.pending then
      let res := s.client.notifyAndPopNotifyList m.mTransactionID
      let s' := { s with client := res.2, pending := s.pending.filter (· ≠ m) }
      match res.1 with
      | none => some (s', ())
      | some e =>
        match s.phase e.mpData with
        | .waiting kind transactionID =>
          some (s'.setPhase e.mpData (.woken kind transactionID), ())
        | _ => some (s', ())
    else none

/-- No reader is registered for a message that is there and whose notification is
over. -/
def NoLostWakeup (s : NotifyState) : Prop :=
  ∀ e ∈ s.client.mReadNotifyList, ∀ m ∈ s.client.mList,
    m.Answers e.mTransactionID → m ∈ s.pending

instance (s : NotifyState) : Decidable (NoLostWakeup s) :=
  inferInstanceAs (Decidable (∀ e ∈ s.client.mReadNotifyList, ∀ m ∈ s.client.mList, _ → _))

/-- The waiters that a notification of a message passes over: all but the first one that it
could notify. -/
def NotifyState.leftBy (s : NotifyState) (m : SReadMemList) : List SNotifyList :=
  s.client.mReadNotifyList.eraseP fun e => decide (e.Notified m.mTransactionID)

/-- The condition on a step. A reader registers only while every message that answers it
is still to be notified of, and a notification of a message that is still there leaves no
other reader behind that the message answers. -/
def WakesReader (s : NotifyState) : NotifyEvent → Prop
  | .register r alloc =>
    alloc = false ∨ ∀ kind transactionID, s.phase r = .looked kind transactionID →
      ∀ m ∈ s.client.mList, m.Answers transactionID → m ∈ s.pending
  | .notify m => m ∈ s.client.mList → ∀ e ∈ s.leftBy m, ¬ m.Answers e.mTransactionID
  | _ => True

/-! ## One step -/

section

variable {s s' : NotifyState}

/-- With fewer messages and fewer waiters nothing is lost. -/
theorem NoLostWakeup.mono (h : NoLostWakeup s)
    (hlist : ∀ m ∈ s'.client.mList, m ∈ s.client.mList)
    (hnotify : ∀ e ∈ s'.client.mReadNotifyList, e ∈ s.client.mReadNotifyList)
    (hpending : s'.pending = s.pending) : NoLostWakeup s' := by
  intro e he m hm hans
  rw [hpending]
  exact h e (hnotify e he) m (hlist m hm) hans

theorem syncPop_noLostWakeup (h : NoLostWakeup s) (r : Nat) (transactionID : UInt16) :
    NoLostWakeup (syncPop s r transactionID) := by
  refine h.mono ?_ ?_ rfl
  · intro m hm
    exact (s.client.popFromReadMemList_sublist transactionID).subset hm
  · intro e he
    change e ∈ (s.client.popFromReadMemList transactionID).2.mReadNotifyList at he
    rwa [SClientMemList.popFromReadMemList_mReadNotifyList] at he

/-- A registration loses a wake-up exactly if a message that answers the reader is there
and is no longer pending. -/
theorem register_noLostWakeup {e : SNotifyList} (h : NoLostWakeup s)
    (hclient : s'.client = s.client.addToNotifyList e) (hpending : s'.pending = s.pending) :
    NoLostWakeup s' ↔ ∀ m ∈ s.client.mList, m.Answers e.mTransactionID → m ∈ s.pending := by
  rw [NoLostWakeup, hclient, hpending]
  simp only [SClientMemList.addToNotifyList, List.forall_mem_append, List.forall_mem_singleton]
  exact ⟨And.right, fun hnew => ⟨h, hnew⟩⟩

/-- The condition on a registration, for the phase the reader is in. -/
theorem wakesReader_register {r : Nat} {kind : ReadKind} {transactionID : UInt16}
    (hphase : s.phase r = .looked kind transactionID) :
    WakesReader s (.register r true) ↔
      ∀ m ∈ s.client.mList, m.Answers transactionID → m ∈ s.pending := by
  simp only [WakesReader, hphase]
  constructor
  · rintro (hfalse | hnew)
    · cases hfalse
    · exact hnew kind transactionID rfl
  · intro hnew
    refine .inr fun kind' transactionID' heq => ?_
    cases heq
    exact hnew

theorem store_noLostWakeup {m : SReadMemList} (h : NoLostWakeup s)
    (hclient : s'.client = s.client.addToReadMemList m) (hpending : s'.pending = s.pending ++ [m]) :
    NoLostWakeup s' := by
  intro e he x hx hans
  rw [hclient] at he hx
  rw [hpending, List.mem_append]
  rcases List.mem_append.mp hx with hx | hx
  · exact .inl (h e he x hx hans)
  · exact .inr hx

/-- A notification loses a wake-up exactly if its message is still there and answers a
reader that it leaves behind. -/
theorem notify_noLostWakeup {m : SReadMemList} (h : NoLostWakeup s)
    (hclient : s'.client = (s.client.notifyAndPopNotifyList m.mTransactionID).2)
    (hpending : s'.pending = s.pending.filter (· ≠ m)) :
    NoLostWakeup s' ↔ (m ∈ s.client.mList → ∀ e ∈ s.leftBy m, ¬ m.Answers e.mTransactionID) := by
  have hleft : ∀ e ∈ s.leftBy m, e ∈ s.client.mReadNotifyList := fun e he =>
    List.eraseP_sublist.subset he
  have hlist : s'.client.mList = s.client.mList := by
    rw [hclient, SClientMemList.notifyAndPopNotifyList_mList]
  have hnotify : s'.client.mReadNotifyList = s.leftBy m := by
    rw [hclient]
    exact s.client.notifyAndPopNotifyList_mReadNotifyList m.mTransactionID
  rw [NoLostWakeup, hlist, hnotify, hpending]
  constructor
  · intro hgood hm e he hans
    have hmem := hgood e he m hm hans
    simp at hmem
  · intro hok e he x hx hans
    have hmem : x ∈ s.pending := h e (hleft e he) x hx hans
    have hne : x ≠ m := by
      rintro rfl
      exact hok hx e he hans
    simpa using ⟨hmem, hne⟩

/-- What one step does to the property. -/
theorem notifyStep_noLostWakeup {ev : NotifyEvent} {o : Unit} (h : NoLostWakeup s)
    (hstep : notifyStep s ev = some (s', o)) : NoLostWakeup s' ↔ WakesReader s ev := by
  cases ev with
  | lookup r kind transactionID =>
    refine iff_of_true ?_ trivial
    simp only [notifyStep] at hstep
    split at hstep
    · cases hstep
      exact syncPop_noLostWakeup h r transactionID
    · cases hstep
      exact h
    · cases hstep
  | register r alloc =>
    simp only [notifyStep] at hstep
    cases hphase : s.phase r with
    | looked kind transactionID =>
      rw [hphase] at hstep
      cases alloc with
      | true =>
        cases hstep
        let e : SNotifyList := ⟨kind.notifyFunct, transactionID, r⟩
        refine Iff.trans (register_noLostWakeup (e := e) h rfl rfl) ?_
        exact (wakesReader_register hphase).symm
      | false =>
        cases hstep
        exact iff_of_true h (.inl rfl)
    | idle => simp [hphase] at hstep
    | waiting kind transactionID => simp [hphase] at hstep
    | woken kind transactionID => simp [hphase] at hstep
  | interrupt r =>
    refine iff_of_true ?_ trivial
    have hremoved : NoLostWakeup { s with client := s.client.removeFromNotifyList r } := by
      refine h.mono (fun m hm => hm) (fun e he => ?_) rfl
      exact (s.client.removeFromNotifyList_sublist r).subset he
    simp only [notifyStep] at hstep
    split at hstep <;> cases hstep <;> exact hremoved
  | resume r =>
    refine iff_of_true ?_ trivial
    simp only [notifyStep] at hstep
    split at hstep
    · rename_i transactionID _
      cases hstep
      exact syncPop_noLostWakeup h r transactionID
    · rename_i transactionID _
      cases hstep
      exact syncPop_noLostWakeup h r transactionID
    · cases hstep
  | store transactionID alloc =>
    refine iff_of_true ?_ trivial
    cases alloc with
    | true =>
      cases hstep
      exact store_noLostWakeup h rfl rfl
    | false =>
      cases hstep
      exact h
  | notify m =>
    simp only [notifyStep] at hstep
    split at hstep
    · have hsame : s'.client = (s.client.notifyAndPopNotifyList m.mTransactionID).2 ∧
          s'.pending = s.pending.filter (· ≠ m) := by
        split at hstep
        · cases hstep
          exact ⟨rfl, rfl⟩
        · split at hstep <;> (cases hstep; exact ⟨rfl, rfl⟩)
      exact notify_noLostWakeup h hsame.1 hsame.2
    · cases hstep

end

/-! ## Runs -/

/-- A run loses no wake-up exactly if no reader registers too late for a message and no
notification leaves a reader behind that its message answers. -/
theorem noLostWakeup_iff_wakesReader (clientID : UInt16) (evs : List NotifyEvent) :
    (∀ s ∈ notifyStep.visits (.init clientID) evs, NoLostWakeup s) ↔
      ∀ p ∈ notifyStep.fires (.init clientID) evs, WakesReader p.1 p.2 := by
  have hstart : NoLostWakeup (.init clientID) := fun e he => nomatch he
  have hok : ∀ s ev s' o, NoLostWakeup s → notifyStep s ev = some (s', o) →
      (NoLostWakeup s' ↔ WakesReader s ev) := by
    intro s ev s' o h hstep
    exact notifyStep_noLostWakeup h hstep
  exact Machine.visits_iff_fires hok hstart

/-- A message that is stored and notified of between the look of a reader and its
registration leaves the reader waiting for ever. -/
theorem late_registration_loses_wakeup :
    ¬ ∀ s ∈ notifyStep.visits (.init 0x0101)
        [.lookup 0 .sync 7, .store 7 true, .notify ⟨0, 7⟩, .register 0 true], NoLostWakeup s := by
  decide

end UsbNet
