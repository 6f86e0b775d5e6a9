-- SUMMARY: When the write thread of a client loses a write: what it keeps over runs, and the steps that break it.
import QcomUsb.Ndis.ClientWrites

/-!
# Runs of the write thread

A write that was taken off `WriteIrpQueue` is on `IrpCompletionQueue`, or it is the current one. The
current one is being prepared, active, or about to be completed.
-/

namespace Ndis.ClientWrites

open CancelRoutine Transition

/-- The thread has a current write in these phases, and it is not active. -/
def Phase.handles : Phase → Bool
  | .allocate | .send | .completing => true
  | _ => false

namespace State

variable {client : Client} {s s' : State} {irp : Irp}

/-! ## Every write is somewhere -/

/-- The writes by where they are, and how many have not been completed. -/
structure Ledger (s : State) : Prop where
  nodup : (s.writeIrpQueue ++ s.dequeued).Nodup
  submitted : ∀ irp ∈ s.writeIrpQueue ++ s.dequeued, irp ∈ s.submitted
  balanced : s.dequeued.Perm (s.pWriteCurrent.toList ++ s.returned)
  count : s.irpCount =
    s.writeIrpQueue.length + s.irpCompletionQueue.length + s.pWriteCurrent.toList.length

/-- The same writes at the same places. -/
structure SameLedger (s s' : State) : Prop where
  writeIrpQueue : s'.writeIrpQueue = s.writeIrpQueue
  irpCompletionQueue : s'.irpCompletionQueue = s.irpCompletionQueue
  pWriteCurrent : s'.pWriteCurrent = s.pWriteCurrent
  submitted : s'.submitted = s.submitted
  dequeued : s'.dequeued = s.dequeued
  returned : s'.returned = s.returned
  irpCount : s'.irpCount = s.irpCount

theorem Ledger.of_same (h : s.Ledger) (hsame : SameLedger s s') : s'.Ledger where
  nodup := by
    rw [hsame.writeIrpQueue, hsame.dequeued]
    exact h.nodup
  submitted := by
    rw [hsame.writeIrpQueue, hsame.dequeued, hsame.submitted]
    exact h.submitted
  balanced := by
    rw [hsame.dequeued, hsame.pWriteCurrent, hsame.returned]
    exact h.balanced
  count := by
    rw [hsame.irpCount, hsame.writeIrpQueue, hsame.irpCompletionQueue, hsame.pWriteCurrent]
    exact h.count

theorem Ledger.returned_nodup (h : s.Ledger) : s.returned.Nodup :=
  (h.balanced.nodup (List.nodup_append.mp h.nodup).2.1).of_append_right

/-- Everything has been given back just when there is no current write. -/
theorem Ledger.settled_iff (h : s.Ledger) : s.Settled ↔ s.pWriteCurrent = none := by
  unfold Settled
  cases hcurrent : s.pWriteCurrent with
  | none =>
    have hbalanced := h.balanced
    rw [hcurrent] at hbalanced
    exact ⟨fun _ => rfl, fun _ => hbalanced.symm⟩
  | some irp =>
    have hlength := h.balanced.length_eq
    rw [hcurrent] at hlength
    refine ⟨fun hperm => ?_, nofun⟩
    have hsame := hperm.length_eq
    simp only [Option.toList_some, List.length_append, List.length_singleton] at hlength
    omega

theorem Ledger.refuse (h : s.Ledger) (irp : Irp) (status : NtStatus) :
    (s.refuse irp status).Ledger :=
  ⟨h.nodup, fun i hi => List.mem_append_left _ (h.submitted i hi), h.balanced, h.count⟩

theorem Ledger.enqueue (h : s.Ledger) (hnew : irp ∉ s.submitted) : (s.enqueue irp).Ledger := by
  have hperm : (s.writeIrpQueue ++ [irp] ++ s.dequeued).Perm
      (irp :: (s.writeIrpQueue ++ s.dequeued)) := by
    rw [List.append_assoc]
    exact List.perm_middle
  have hnodup := List.nodup_cons.mpr ⟨fun hmem => hnew (h.submitted irp hmem), h.nodup⟩
  refine ⟨hperm.nodup_iff.mpr hnodup, fun i hi => ?_, h.balanced, ?_⟩
  · rcases List.mem_cons.mp (hperm.mem_iff.mp hi) with rfl | hmem
    · exact List.mem_append_right _ (List.mem_singleton_self _)
    · exact List.mem_append_left _ (h.submitted i hmem)
  · change s.irpCount + 1 = ((s.writeIrpQueue ++ [irp]).length : Int) + s.irpCompletionQueue.length +
      s.pWriteCurrent.toList.length
    rw [h.count, List.length_append, List.length_singleton]
    push_cast
    omega

/-- A write is refused, or goes to the queue. -/
theorem write_cases (client : Client) (s : State) (irp : Irp) (found : Found) :
    (∃ status, s.write client irp found = s.refuse irp status) ∨
      s.write client irp found = s.enqueue irp := by
  unfold State.write
  split_ifs
  any_goals exact .inl ⟨_, rfl⟩
  exact .inr rfl

theorem Ledger.write (h : s.Ledger) (hnew : irp ∉ s.submitted) (found : Found) :
    (s.write client irp found).Ledger := by
  obtain ⟨status, hrefused⟩ | hqueued := write_cases client s irp found
  · rw [hrefused]
    exact h.refuse irp status
  · rw [hqueued]
    exact h.enqueue hnew

theorem Ledger.purgeQueue (h : s.Ledger) : s.purgeQueue.Ledger where
  nodup := by
    change (s.dequeued ++ s.writeIrpQueue).Nodup
    exact List.perm_append_comm.nodup_iff.mp h.nodup
  submitted i hi := h.submitted i (List.perm_append_comm.mem_iff.mp hi)
  balanced := by
    change (s.dequeued ++ s.writeIrpQueue).Perm
      (s.pWriteCurrent.toList ++ (s.returned ++ s.writeIrpQueue))
    rw [← List.append_assoc]
    exact h.balanced.append_right _
  count := by
    change s.irpCount = ((0 : Nat) : Int) + (s.irpCompletionQueue ++ s.writeIrpQueue).length +
      s.pWriteCurrent.toList.length
    rw [h.count, List.length_append]
    push_cast
    omega

theorem Ledger.completeHead (h : s.Ledger) : s.completeHead.Ledger := by
  unfold State.completeHead
  cases hqueue : s.irpCompletionQueue with
  | nil => exact h
  | cons irp rest =>
    refine ⟨h.nodup, h.submitted, h.balanced, ?_⟩
    have hcount := h.count
    rw [hqueue, List.length_cons] at hcount
    change s.irpCount - 1 =
      (s.writeIrpQueue.length : Int) + rest.length + s.pWriteCurrent.toList.length
    omega

/-- The current write is given back. -/
theorem Ledger.giveBack (h : s.Ledger) (hcurrent : s.pWriteCurrent = some irp) :
    { s with
      irpCompletionQueue := s.irpCompletionQueue ++ [irp]
      pWriteCurrent := none
      returned := s.returned ++ [irp] }.Ledger := by
  have hbalanced := h.balanced
  have hcount := h.count
  rw [hcurrent] at hbalanced hcount
  refine ⟨h.nodup, h.submitted, hbalanced.trans (List.perm_append_singleton irp s.returned).symm, ?_⟩
  change s.irpCount =
    (s.writeIrpQueue.length : Int) + (s.irpCompletionQueue ++ [irp]).length + (0 : Nat)
  simp only [Option.toList_some, List.length_singleton] at hcount
  rw [List.length_append, List.length_singleton]
  push_cast at hcount ⊢
  omega

/-- A write is cancelled on `WriteIrpQueue`. -/
theorem Ledger.cancelled (h : s.Ledger) (hmem : irp ∈ s.writeIrpQueue) :
    { s with
      writeIrpQueue := s.writeIrpQueue.erase irp
      irpCompletionQueue := s.irpCompletionQueue ++ [irp]
      dequeued := s.dequeued ++ [irp]
      returned := s.returned ++ [irp] }.Ledger := by
  have hqueue : s.writeIrpQueue.Perm (irp :: s.writeIrpQueue.erase irp) := List.perm_cons_erase hmem
  have hperm : (s.writeIrpQueue ++ s.dequeued).Perm
      (s.writeIrpQueue.erase irp ++ (s.dequeued ++ [irp])) := by
    refine (hqueue.append_right _).trans ?_
    rw [← List.append_assoc]
    exact (List.perm_append_singleton irp _).symm
  refine ⟨hperm.nodup_iff.mp h.nodup, fun i hi => h.submitted i (hperm.mem_iff.mpr hi), ?_, ?_⟩
  · change (s.dequeued ++ [irp]).Perm (s.pWriteCurrent.toList ++ (s.returned ++ [irp]))
    rw [← List.append_assoc]
    exact h.balanced.append_right _
  · have hlength := hqueue.length_eq
    have hcount := h.count
    rw [List.length_cons] at hlength
    change s.irpCount = ((s.writeIrpQueue.erase irp).length : Int) +
      (s.irpCompletionQueue ++ [irp]).length + s.pWriteCurrent.toList.length
    rw [List.length_append, List.length_singleton]
    push_cast
    omega

/-- A write is taken off `WriteIrpQueue` while there is no current one. -/
theorem Ledger.take {rest : List Irp} (h : s.Ledger) (hqueue : s.writeIrpQueue = irp :: rest)
    (hcurrent : s.pWriteCurrent = none) :
    { s with
      writeIrpQueue := rest
      pWriteCurrent := some irp
      dequeued := s.dequeued ++ [irp] }.Ledger := by
  have hperm : (s.writeIrpQueue ++ s.dequeued).Perm (rest ++ (s.dequeued ++ [irp])) := by
    rw [hqueue, ← List.append_assoc]
    exact (List.perm_append_singleton irp _).symm
  have hbalanced := h.balanced
  have hcount := h.count
  rw [hcurrent] at hbalanced hcount
  rw [hqueue] at hcount
  refine ⟨hperm.nodup_iff.mp h.nodup, fun i hi => h.submitted i (hperm.mem_iff.mpr hi),
    (hbalanced.append_right [irp]).trans (List.perm_append_singleton irp s.returned), ?_⟩
  change s.irpCount = (rest.length : Int) + s.irpCompletionQueue.length + (1 : Nat)
  simp only [Option.toList_none, List.length_nil, List.length_cons] at hcount
  push_cast at hcount ⊢
  omega

/-! ## The turn of the thread -/

/-- There is a current write just while one is handled or active. What is with USB is active, and the
completion event stands for an active write that has come back. -/
structure InTurn (s : State) : Prop where
  current : s.pWriteCurrent.isSome = (s.phase.handles || s.bWriteActive)
  handled : s.phase.handles = true ∨ s.phase = .exited → s.bWriteActive = false
  inFlight : s.inFlight = true → s.bWriteActive = true
  completion : s.events .completion = true → s.bWriteActive = true ∧ s.inFlight = false

structure Inv (s : State) : Prop where
  ledger : s.Ledger
  inTurn : s.InTurn

/-- The thread has not moved. -/
structure SameTurn (s s' : State) : Prop where
  pWriteCurrent : s'.pWriteCurrent = s.pWriteCurrent
  phase : s'.phase = s.phase
  bWriteActive : s'.bWriteActive = s.bWriteActive
  inFlight : s'.inFlight = s.inFlight
  completion : s'.events .completion = s.events .completion

theorem InTurn.of_same (h : s.InTurn) (hsame : SameTurn s s') : s'.InTurn where
  current := by
    rw [hsame.pWriteCurrent, hsame.phase, hsame.bWriteActive]
    exact h.current
  handled := by
    rw [hsame.phase, hsame.bWriteActive]
    exact h.handled
  inFlight := by
    rw [hsame.inFlight, hsame.bWriteActive]
    exact h.inFlight
  completion := by
    rw [hsame.completion, hsame.bWriteActive, hsame.inFlight]
    exact h.completion

/-- The thread goes on, with or without a current write. -/
theorem InTurn.goOn (h : s.InTurn) {p : Phase} (hp : p.handles = s.phase.handles)
    (hexits : p = .exited → s.bWriteActive = false) : { s with phase := p }.InTurn := by
  refine ⟨?_, ?_, h.inFlight, h.completion⟩
  · change s.pWriteCurrent.isSome = (p.handles || s.bWriteActive)
    rw [hp]
    exact h.current
  · rintro (hhandles | hexited)
    · exact h.handled (.inl (hp ▸ hhandles))
    · exact hexits hexited

/-- The current write is in the thread's hand. -/
theorem InTurn.current_of_handles (h : s.InTurn) (hphase : s.phase.handles = true) :
    ∃ irp, s.pWriteCurrent = some irp := by
  have hcurrent := h.current
  rw [hphase, Bool.true_or] at hcurrent
  exact Option.isSome_iff_exists.mp hcurrent

/-- The thread has given the current write back. -/
theorem InTurn.giveBack (h : s.InTurn) (hphase : s.phase.handles = true) :
    { s with pWriteCurrent := none, phase := .loopHead }.InTurn := by
  have hactive := h.handled (.inl hphase)
  refine ⟨?_, fun _ => hactive, h.inFlight, h.completion⟩
  change false = (false || s.bWriteActive)
  rw [hactive]
  rfl

/-! ## Steps of the others -/

theorem sameTurn_completeHead : SameTurn s s.completeHead := by
  unfold State.completeHead
  cases s.irpCompletionQueue <;> exact ⟨rfl, rfl, rfl, rfl, rfl⟩

theorem sameTurn_write (irp : Irp) (found : Found) : SameTurn s (s.write client irp found) := by
  obtain ⟨status, hrefused⟩ | hqueued := write_cases client s irp found
  · rw [hrefused]
    exact ⟨rfl, rfl, rfl, rfl, rfl⟩
  · rw [hqueued]
    exact ⟨rfl, rfl, rfl, rfl, rfl⟩

theorem events_keSetEvent {e : WriteEvent} (he : e ≠ .completion) :
    (s.keSetEvent e).events .completion = s.events .completion :=
  Function.update_of_ne he.symm ..

theorem events_keClearEvent {e : WriteEvent} (he : e ≠ .completion) :
    (s.keClearEvent e).events .completion = s.events .completion :=
  Function.update_of_ne he.symm ..

theorem events_insertCompletion (irp : Irp) :
    (s.insertCompletion irp).events .completion = s.events .completion :=
  events_keSetEvent nofun

theorem Inv.keSetEvent (h : s.Inv) {e : WriteEvent} (he : e ≠ .completion) : (s.keSetEvent e).Inv :=
  ⟨h.ledger.of_same ⟨rfl, rfl, rfl, rfl, rfl, rfl, rfl⟩,
    h.inTurn.of_same ⟨rfl, rfl, rfl, rfl, events_keSetEvent he⟩⟩

theorem Inv.cancelWriteRoutine (h : s.Inv) (irp : Irp) (found : Bool) :
    (s.cancelWriteRoutine irp found).Inv := by
  unfold State.cancelWriteRoutine
  dsimp only
  split_ifs with hfound hactive hmem
  · exact ⟨h.ledger.of_same ⟨rfl, rfl, rfl, rfl, rfl, rfl, rfl⟩,
      h.inTurn.of_same ⟨rfl, rfl, rfl, rfl, events_keSetEvent nofun⟩⟩
  · exact ⟨(h.ledger.cancelled hmem).of_same ⟨rfl, rfl, rfl, rfl, rfl, rfl, rfl⟩,
      h.inTurn.of_same ⟨rfl, rfl, rfl, rfl, events_keSetEvent nofun⟩⟩
  · exact ⟨h.ledger.of_same ⟨rfl, rfl, rfl, rfl, rfl, rfl, rfl⟩,
      h.inTurn.of_same ⟨rfl, rfl, rfl, rfl, rfl⟩⟩
  · exact ⟨h.ledger.of_same ⟨rfl, rfl, rfl, rfl, rfl, rfl, rfl⟩,
      h.inTurn.of_same ⟨rfl, rfl, rfl, rfl, rfl⟩⟩

/-- The write that USB completes is active, and is waited for by its event. -/
theorem Inv.wtIrpCompletion (h : s.Inv) (hinFlight : s.inFlight = true) (status : NtStatus) :
    (s.wtIrpCompletion status).Inv := by
  refine ⟨h.ledger.of_same ⟨rfl, rfl, rfl, rfl, rfl, rfl, rfl⟩, h.inTurn.current, h.inTurn.handled,
    nofun, fun _ => ⟨h.inTurn.inFlight hinFlight, rfl⟩⟩

/-! ## Steps of the thread -/

theorem Inv.loopHead (h : s.Inv) (hphase : s.phase = .loopHead) (broken : Bool) :
    (s.loopHead broken).Inv := by
  unfold State.loopHead
  split_ifs
  · exact ⟨h.ledger.purgeQueue.of_same ⟨rfl, rfl, rfl, rfl, rfl, rfl, rfl⟩,
      (h.inTurn.goOn (p := .emptying) (by rw [hphase]; rfl) nofun).of_same ⟨rfl, rfl, rfl, rfl, rfl⟩⟩
  · exact ⟨h.ledger.of_same ⟨rfl, rfl, rfl, rfl, rfl, rfl, rfl⟩,
      h.inTurn.goOn (by rw [hphase]; rfl) nofun⟩

theorem Inv.emptying (h : s.Inv) (hphase : s.phase = .emptying)
    (hguard : s.irpCompletionQueue = [] → s.bCancelled = true → s.bWriteActive = false) :
    s.emptying.Inv := by
  unfold State.emptying
  split_ifs with hempty hcancelled
  · exact ⟨h.ledger.of_same ⟨rfl, rfl, rfl, rfl, rfl, rfl, rfl⟩,
      (h.inTurn.goOn (p := .exited) (by rw [hphase]; rfl) fun _ => hguard hempty hcancelled).of_same
        ⟨rfl, rfl, rfl, rfl, rfl⟩⟩
  · exact ⟨h.ledger.of_same ⟨rfl, rfl, rfl, rfl, rfl, rfl, rfl⟩,
      (h.inTurn.goOn (p := .wait) (by rw [hphase]; rfl) nofun).of_same ⟨rfl, rfl, rfl, rfl, rfl⟩⟩
  · exact ⟨h.ledger.completeHead, h.inTurn.of_same sameTurn_completeHead⟩

theorem Inv.dequeue (h : s.Inv) (hphase : s.phase = .dequeue) {quota : Bool}
    (hguard : s.writeIrpQueue ≠ [] → s.bWriteActive = false → quota = true →
      s.pActiveBuffer = none) : (s.dequeue quota).Inv := by
  have hwaits : { s with phase := .wait }.Inv :=
    ⟨h.ledger.of_same ⟨rfl, rfl, rfl, rfl, rfl, rfl, rfl⟩, h.inTurn.goOn (by rw [hphase]; rfl) nofun⟩
  unfold State.dequeue
  split
  next => exact hwaits
  next irp rest hqueue =>
    dsimp only
    split_ifs with htakes hbuffer
    · have hcurrent : s.pWriteCurrent = none := by
        have hsome := h.inTurn.current
        rw [hphase, htakes.1] at hsome
        exact Option.isNone_iff_eq_none.mp (by simpa [Phase.handles] using hsome)
      refine ⟨(h.ledger.take hqueue hcurrent).of_same ⟨rfl, rfl, rfl, rfl, rfl, rfl, rfl⟩, ?_⟩
      exact ⟨rfl, fun _ => htakes.1, h.inTurn.inFlight, h.inTurn.completion⟩
    · exact absurd (hguard (by simp [hqueue]) htakes.1 htakes.2) hbuffer
    · exact hwaits

theorem Inv.allocate (h : s.Inv) (hphase : s.phase = .allocate) (allocates : Bool) :
    (s.allocate allocates).Inv := by
  have hhandles : s.phase.handles = true := by rw [hphase]; rfl
  have hsends : ∀ n, { s with qmiBuffer := n, phase := .send }.Inv := fun n =>
    ⟨h.ledger.of_same ⟨rfl, rfl, rfl, rfl, rfl, rfl, rfl⟩,
      (h.inTurn.goOn (p := .send) (by rw [hphase]; rfl) nofun).of_same ⟨rfl, rfl, rfl, rfl, rfl⟩⟩
  obtain ⟨irp, hcurrent⟩ := h.inTurn.current_of_handles hhandles
  unfold State.allocate
  dsimp only
  split_ifs with hfits hallocates
  · exact hsends s.qmiBuffer
  · exact hsends _
  · -- the write goes back at once, whichever status it gets
    rw [hcurrent]
    dsimp only
    constructor
    · split_ifs <;>
        exact (h.ledger.giveBack hcurrent).of_same ⟨rfl, rfl, rfl, rfl, rfl, rfl, rfl⟩
    · split_ifs <;>
        exact (h.inTurn.giveBack hhandles).of_same ⟨rfl, rfl, rfl, rfl, events_insertCompletion irp⟩

theorem Inv.send (h : s.Inv) (hphase : s.phase = .send) : s.send.Inv := by
  have hhandles : s.phase.handles = true := by rw [hphase]; rfl
  have hcurrent := h.inTurn.current
  rw [hhandles] at hcurrent
  refine ⟨h.ledger.of_same ⟨rfl, rfl, rfl, rfl, rfl, rfl, rfl⟩, hcurrent, nofun, fun _ => rfl,
    fun hset => ?_⟩
  have hactive := (h.inTurn.completion hset).1
  rw [h.inTurn.handled (.inl hhandles)] at hactive
  cases hactive

theorem Inv.waitIfActive (h : s.Inv) (hphase : s.phase.handles = false) : s.waitIfActive.Inv := by
  refine ⟨h.ledger.of_same ⟨rfl, rfl, rfl, rfl, rfl, rfl, rfl⟩, h.inTurn.goOn ?_ ?_⟩
  · rw [hphase]
    split_ifs <;> rfl
  · split_ifs <;> exact nofun

/-- The thread wakes up. Only the completion event ends the turn of the active write. -/
theorem Inv.wake (h : s.Inv) (hphase : s.phase = .wait) {event : Option WriteEvent}
    (hevent : s.MayWake event) : (s.wake event).Inv := by
  have hidle : s.phase.handles = false := by rw [hphase]; rfl
  have hgoes (p : Phase) (hp : p.handles = false) (hexited : p ≠ .exited) (e : WriteEvent)
      (he : e ≠ .completion) (stopped cancelled purged : Bool) :
      State.Inv
        { s.keClearEvent e with
          bWriteStopped := stopped
          bCancelled := cancelled
          bPurged := purged
          phase := p } := by
    exact ⟨h.ledger.of_same ⟨rfl, rfl, rfl, rfl, rfl, rfl, rfl⟩,
      (h.inTurn.goOn (hp.trans hidle.symm) fun heq => absurd heq hexited).of_same
        ⟨rfl, rfl, rfl, rfl, events_keClearEvent he⟩⟩
  have hstays := hgoes s.phase hidle (by simp [hphase])
  cases event with
  | none =>
    exact ⟨h.ledger.of_same ⟨rfl, rfl, rfl, rfl, rfl, rfl, rfl⟩, h.inTurn.goOn hidle.symm nofun⟩
  | some e =>
    cases e with
    | completion =>
      obtain ⟨hactive, hback⟩ := h.inTurn.completion hevent
      have hcurrent := h.inTurn.current
      rw [hactive, Bool.or_true] at hcurrent
      have hclear : (s.keClearEvent .completion).events .completion = false := by
        simp [State.keClearEvent]
      refine ⟨h.ledger.of_same ⟨rfl, rfl, rfl, rfl, rfl, rfl, rfl⟩, hcurrent, fun _ => rfl,
        fun hinFlight => ?_, fun hset => ?_⟩
      · cases hback.symm.trans hinFlight
      · cases hclear.symm.trans hset
    | emptyCompletionQueue => exact hgoes .flushing rfl nofun .emptyCompletionQueue nofun ..
    | cancelCurrent => exact hgoes .loopHead rfl nofun .cancelCurrent nofun ..
    | stop => exact hgoes .loopHead rfl nofun .stop nofun ..
    | kick => exact (hstays .kick nofun ..).waitIfActive hidle
    | cancel => exact (hstays .cancel nofun ..).waitIfActive hidle
    | purge => exact (hstays .purge nofun ..).waitIfActive hidle

theorem sameLedger_countError (client : Client) : SameLedger s (s.countError client) := by
  unfold State.countError
  split_ifs <;> exact ⟨rfl, rfl, rfl, rfl, rfl, rfl, rfl⟩

theorem sameTurn_countError (client : Client) : SameTurn s (s.countError client) := by
  unfold State.countError
  split_ifs <;> exact ⟨rfl, rfl, rfl, rfl, rfl⟩

theorem Inv.completing (h : s.Inv) (hphase : s.phase = .completing) :
    (s.completing client).Inv := by
  have hhandles : s.phase.handles = true := by rw [hphase]; rfl
  obtain ⟨irp, hcurrent⟩ := h.inTurn.current_of_handles hhandles
  have hledger : (s.countError client).Ledger := h.ledger.of_same (sameLedger_countError client)
  have hturn : (s.countError client).InTurn := h.inTurn.of_same (sameTurn_countError client)
  have hcurrent' : (s.countError client).pWriteCurrent = some irp :=
    (sameLedger_countError client).pWriteCurrent.trans hcurrent
  have hhandles' : (s.countError client).phase.handles = true := by
    rw [(sameTurn_countError client).phase]
    exact hhandles
  unfold State.completing State.writeIrpCompletion
  rw [hcurrent]
  generalize s.countError client = t at *
  exact ⟨(hledger.giveBack hcurrent').of_same ⟨rfl, rfl, rfl, rfl, rfl, rfl, rfl⟩,
    (hturn.giveBack hhandles').of_same ⟨rfl, rfl, rfl, rfl, events_insertCompletion irp⟩⟩

theorem Inv.flushing (h : s.Inv) (hphase : s.phase = .flushing) : s.flushing.Inv := by
  unfold State.flushing
  split_ifs
  · exact ⟨h.ledger.of_same ⟨rfl, rfl, rfl, rfl, rfl, rfl, rfl⟩,
      h.inTurn.goOn (by rw [hphase]; rfl) nofun⟩
  · exact ⟨h.ledger.completeHead, h.inTurn.of_same sameTurn_completeHead⟩

theorem Inv.threadStep (h : s.Inv) {answers : Answers} (hguard : s.Guarded (.thread answers))
    (hs : s.threadStep client answers = some s') : s'.Inv := by
  unfold Guarded at hguard
  unfold State.threadStep at hs
  cases hphase : s.phase with
  | loopHead =>
    rw [hphase] at hs
    obtain rfl := Option.some.inj hs
    exact h.loopHead hphase answers.broken
  | emptying =>
    simp only [hphase, Option.some.injEq] at hs hguard
    subst hs
    exact h.emptying hphase hguard
  | dequeue =>
    simp only [hphase, Option.some.injEq] at hs hguard
    subst hs
    exact h.dequeue hphase hguard
  | allocate =>
    rw [hphase] at hs
    obtain rfl := Option.some.inj hs
    exact h.allocate hphase answers.allocates
  | send =>
    rw [hphase] at hs
    obtain rfl := Option.some.inj hs
    exact h.send hphase
  | wait =>
    rw [hphase] at hs
    obtain ⟨hwakes, heq⟩ := Option.ite_none_right_eq_some.mp hs
    obtain rfl := Option.some.inj heq
    exact h.wake hphase hwakes
  | completing =>
    rw [hphase] at hs
    obtain rfl := Option.some.inj hs
    exact h.completing hphase
  | flushing =>
    rw [hphase] at hs
    obtain rfl := Option.some.inj hs
    exact h.flushing hphase
  | exited => simp [hphase] at hs

theorem Inv.step (h : s.Inv) {op : Op} (hguard : s.Guarded op) (hs : s.step client op = some s') :
    s'.Inv := by
  cases op with
  | write irp found =>
    obtain ⟨hnew, heq⟩ := Option.ite_none_left_eq_some.mp hs
    obtain rfl := Option.some.inj heq
    exact ⟨h.ledger.write hnew found, h.inTurn.of_same (sameTurn_write irp found)⟩
  | kick =>
    obtain ⟨-, heq⟩ := Option.ite_none_left_eq_some.mp hs
    obtain rfl := Option.some.inj heq
    exact ⟨h.ledger.of_same ⟨rfl, rfl, rfl, rfl, rfl, rfl, rfl⟩,
      h.inTurn.of_same ⟨rfl, rfl, rfl, rfl, events_keSetEvent nofun⟩⟩
  | keSetEvent e =>
    obtain ⟨hne, heq⟩ := Option.ite_none_left_eq_some.mp hs
    obtain rfl := Option.some.inj heq
    exact h.keSetEvent hne
  | ioCancelIrp irp =>
    obtain ⟨-, heq⟩ := Option.ite_none_left_eq_some.mp hs
    obtain rfl := Option.some.inj heq
    exact ⟨h.ledger.of_same ⟨rfl, rfl, rfl, rfl, rfl, rfl, rfl⟩,
      h.inTurn.of_same ⟨rfl, rfl, rfl, rfl, rfl⟩⟩
  | cancelWriteRoutine irp found =>
    obtain ⟨-, heq⟩ := Option.ite_none_right_eq_some.mp hs
    obtain rfl := Option.some.inj heq
    exact h.cancelWriteRoutine irp found
  | purgeQueue =>
    obtain rfl := Option.some.inj hs
    exact ⟨h.ledger.purgeQueue, h.inTurn.of_same ⟨rfl, rfl, rfl, rfl, rfl⟩⟩
  | completeHead =>
    obtain rfl := Option.some.inj hs
    exact ⟨h.ledger.completeHead, h.inTurn.of_same sameTurn_completeHead⟩
  | usbCompletes status =>
    obtain ⟨hinFlight, heq⟩ := Option.ite_none_right_eq_some.mp hs
    obtain rfl := Option.some.inj heq
    exact h.wtIrpCompletion hinFlight status
  | thread answers => exact h.threadStep hguard hs

theorem inv_initial : initial.Inv :=
  ⟨⟨List.nodup_nil, nofun, .refl _, rfl⟩, ⟨rfl, fun _ => rfl, nofun, nofun⟩⟩

/-! ## Runs -/

theorem irpCount_foldl_completeHead (irps : List Irp) (h : s.irpCompletionQueue = irps) :
    (irps.foldl (fun s _ => s.completeHead) s).irpCount = s.irpCount - irps.length := by
  induction irps generalizing s with
  | nil => simp
  | cons irp rest ih =>
    have hqueue : s.completeHead.irpCompletionQueue = rest := by simp [State.completeHead, h]
    have hcount : s.completeHead.irpCount = s.irpCount - 1 := by simp [State.completeHead, h]
    rw [List.foldl_cons, ih hqueue, hcount, List.length_cons]
    push_cast
    omega

/-- Without a current write a cleanup completes all that is left. -/
theorem Ledger.irpCount_cleanupQueues (h : s.Ledger) (hcurrent : s.pWriteCurrent = none) :
    s.cleanupQueues.irpCount = 0 := by
  have hpurged := h.purgeQueue.count
  have hnone : s.purgeQueue.pWriteCurrent = none := hcurrent
  have hempty : s.purgeQueue.writeIrpQueue = [] := rfl
  rw [hnone, hempty] at hpurged
  unfold cleanupQueues emptyIrpCompletionQueue
  rw [irpCount_foldl_completeHead _ rfl, hpurged]
  simp

/-- A thread without an active write that does not handle one has given all back. -/
theorem Inv.pWriteCurrent_eq_none (h : s.Inv) (hhandles : s.phase.handles = false)
    (hactive : s.bWriteActive = false) : s.pWriteCurrent = none := by
  have hcurrent := h.inTurn.current
  rw [hhandles, hactive] at hcurrent
  exact Option.isSome_eq_false_iff.mp hcurrent |> Option.isNone_iff_eq_none.mp

theorem Inv.keepsWrites (h : s.Inv) : s.KeepsWrites where
  once := h.ledger.returned_nodup
  waits hphase hactive :=
    h.ledger.settled_iff.mpr (h.pWriteCurrent_eq_none (by rw [hphase]; rfl) hactive)
  exits hphase := by
    have hactive := h.inTurn.handled (.inr hphase)
    have hnone := h.pWriteCurrent_eq_none (by rw [hphase]; rfl) hactive
    refine ⟨?_, h.ledger.settled_iff.mpr hnone, h.ledger.irpCount_cleanupQueues hnone⟩
    by_contra hinFlight
    have hset := h.inTurn.inFlight (by simpa using hinFlight)
    cases hactive.symm.trans hset

/-- A step that does not meet the condition loses the current write. -/
theorem Inv.guarded_of_keepsWrites (h : s.Inv) {op : Op} (hs : s.step client op = some s')
    (hkeeps : s'.KeepsWrites) : s.Guarded op := by
  cases op with
  | thread answers =>
    unfold Guarded
    cases hphase : s.phase with
    | dequeue =>
      intro hqueue hactive hquota
      by_contra hbuffer
      obtain ⟨irp, rest, hcons⟩ := List.exists_cons_of_ne_nil hqueue
      have hs : some (s.dequeue answers.quota) = some s' := by
        rw [← hs, State.step, State.threadStep, hphase]
      obtain rfl := Option.some.inj hs
      have hlost : s.dequeue answers.quota =
          { s with
            writeIrpQueue := rest
            pWriteCurrent := some irp
            dequeued := s.dequeued ++ [irp]
            phase := .wait } := by
        simp [State.dequeue, hcons, hactive, hquota, hbuffer]
      rw [hlost] at hkeeps
      -- all that went before has come back, so this one has not
      have hnone := h.pWriteCurrent_eq_none (by rw [hphase]; rfl) hactive
      have hbefore := h.ledger.settled_iff.mpr hnone
      have hafter : s.returned.Perm (s.dequeued ++ [irp]) := hkeeps.waits rfl hactive
      have hlength := hbefore.length_eq.symm.trans hafter.length_eq
      rw [List.length_append, List.length_singleton] at hlength
      omega
    | emptying =>
      intro hempty hcancelled
      have hs : some s.emptying = some s' := by
        rw [← hs, State.step, State.threadStep, hphase]
      obtain rfl := Option.some.inj hs
      have hexits : s.emptying = { s with bPurged := false, phase := .exited } := by
        simp [State.emptying, hempty, hcancelled]
      rw [hexits] at hkeeps
      have hsettled : s.Settled := (hkeeps.exits rfl).2.1
      have hcurrent := h.inTurn.current
      rw [h.ledger.settled_iff.mp hsettled] at hcurrent
      simpa [hphase, Phase.handles] using hcurrent.symm
    | loopHead | allocate | send | wait | completing | flushing | exited => trivial
  | write | kick | keSetEvent | ioCancelIrp | cancelWriteRoutine | purgeQueue | completeHead
  | usbCompletes => trivial

end State

/-- The writes are kept just when no step takes a write over an active buffer or exits with an
active write. -/
theorem keepsWrites_iff_guarded (client : Client) (ops : List Op) :
    (∀ s ∈ (clientWrites client).visits .initial ops, s.KeepsWrites) ↔
      ∀ p ∈ (clientWrites client).fires .initial ops, p.1.Guarded p.2 := by
  apply Machine.visits_all_iff_fires_of_ok _ _ State.inv_initial State.inv_initial.keepsWrites
  · exact fun s op s' o h _ hguard hs => h.step hguard (step_of_clientWrites hs)
  · intro s op s' o h _ hs
    have hstep := step_of_clientWrites hs
    exact ⟨h.guarded_of_keepsWrites hstep, fun hguard => (h.step hguard hstep).keepsWrites⟩

/-! ## Lost writes -/

def wdsClient : Client := ⟨false, 1, false, 2, false⟩

def opened : Found := ⟨true, false, 5⟩

def calm (event : Option WriteEvent) : Answers := ⟨false, true, true, event⟩

/-- The QMI buffer for the first write is not allocated. The second write is taken off the queue. -/
def noMemoryRun : List Op :=
  [.write ⟨0, 16, true⟩ opened, .thread (calm none), .thread (calm none),
    .thread ⟨false, true, false, none⟩, .write ⟨1, 16, true⟩ opened, .thread (calm none),
    .thread (calm none)]

/-- A write is sent, and the thread is cancelled. The wait times out before the write comes back. -/
def cancelRun : List Op :=
  [.write ⟨0, 16, true⟩ opened] ++ List.replicate 4 (.thread (calm none)) ++
    [.keSetEvent .cancel, .thread (calm (some .cancel))] ++ List.replicate 3 (.thread (calm none))

/-- The thread waits with a write that never goes back, or has exited with a send under way. -/
theorem not_keepsWrites_noMemoryRun :
    (¬ ∀ s ∈ (clientWrites wdsClient).visits .initial noMemoryRun, s.KeepsWrites) ∧
      ¬ ∀ s ∈ (clientWrites wdsClient).visits .initial cancelRun, s.KeepsWrites := by
  constructor
  · obtain ⟨s, hs, hphase, hactive, hlength⟩ :
        ∃ s ∈ (clientWrites wdsClient).visits .initial noMemoryRun,
          s.phase = .wait ∧ s.bWriteActive = false ∧ s.returned.length ≠ s.dequeued.length := by
      decide +kernel
    exact fun h => hlength ((h s hs).waits hphase hactive).length_eq
  · obtain ⟨s, hs, hphase, hinFlight⟩ :
        ∃ s ∈ (clientWrites wdsClient).visits .initial cancelRun,
          s.phase = .exited ∧ s.inFlight = true := by
      decide +kernel
    intro h
    cases hinFlight.symm.trans ((h s hs).exits hphase).1

end Ndis.ClientWrites
