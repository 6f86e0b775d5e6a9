-- SUMMARY: Each read URB of the serial driver is in one place, and the counters of the driver agree with its lists.
import QcomUsb.WdfSerial.BufferSpace

/-!
# Accounting of the read URBs

A URB moves between three lists and the hands of the thread, in steps of the thread
and of the completion routine. In every state of every run each URB is in exactly one
of these places, and the counters the driver keeps by hand are those of the lists.
-/

namespace WdfSerial

open Transition Machine

namespace Control

/-- The URB in the hands of the thread, on no list. -/
def held : Control → Option Urb
  | .copy u | .takenFree u _ | .insertPending u _ | .putBack u _ => some u
  | _ => none

/-- The rounds `QCRD_SendReadUrbs` still makes. -/
def rounds : Control → Nat
  | .sendReadUrbs n _ => n
  | .takenFree _ k | .insertPending _ k | .send _ k | .sendFailed _ k | .putBack _ k =>
    match k with
    | .resend => 0
    | .sendReadUrbs n _ => n
  | _ => 0

/-- The copy to the ring buffer has failed, or the head of an empty list is taken for a URB. -/
def failed : Control → Bool
  | .copyFailed | .emptyFreeList => true
  | _ => false

/-- The thread holds no URB, has none to send, and has no round to make. -/
structure Idle (c : Control) : Prop where
  held : c.held = none
  unsent : c.unsent = none
  rounds : c.rounds = 0
  failed : c.failed = false

end Control

/-- There are `n` URBs, each on one list or in the hands of the thread, and the counters are those
of the lists. A URB that is to be sent is pending, the rounds of `QCRD_SendReadUrbs` are no more than
the free URBs, and nothing has failed. -/
structure Tracked (n : Nat) (l : UrbLists) (c : Control) : Prop where
  counted : l.Counted
  ids : ((c.held.toList ++ l.all).map (·.id)).Perm (List.range n)
  unsent : ∀ u ∈ c.unsent, u ∈ l.pendingList.entries
  rounds : c.rounds ≤ l.freeList.entries.length
  running : c.failed = false

variable {d : VendorConfig} {s s' : State} {ok : Bool} {n : Nat} {l l' : UrbLists} {c c' : Control}

theorem idle_startResend (s : State) : s.startResend.control.Idle := by
  unfold State.startResend
  split <;> exact ⟨rfl, rfl, rfl, rfl⟩

namespace Tracked

/-- The URBs stay where they are. -/
theorem of_idle (h : Tracked n l c) (hc : c.held = none) (hc' : c'.Idle) : Tracked n l c' where
  counted := h.counted
  ids := by simpa [hc, hc'.held] using h.ids
  unsent u hu := by simp [hc'.unsent] at hu
  rounds := hc'.rounds.trans_le (Nat.zero_le _)
  running := hc'.failed

/-- URBs move, and none gets lost. -/
theorem of_perm (h : Tracked n l c) (hcounted : l'.Counted)
    (hall : (c'.held.toList ++ l'.all).Perm (c.held.toList ++ l.all))
    (hunsent : ∀ u ∈ c'.unsent, u ∈ l'.pendingList.entries)
    (hrounds : c'.rounds ≤ l'.freeList.entries.length) (hrunning : c'.failed = false) :
    Tracked n l' c' where
  counted := hcounted
  ids := (hall.map _).trans h.ids
  unsent := hunsent
  rounds := hrounds
  running := hrunning

theorem setup (n : Nat) : Tracked n (UrbLists.setup n) .wait where
  counted := UrbLists.setup_counted n
  ids := by simp [UrbLists.setup, UrbLists.all, Control.held, Function.comp_def]
  unsent u hu := by simp [Control.unsent] at hu
  rounds := Nat.zero_le _
  running := rfl

/-! ## The completion case -/

theorem completionCase (h : Tracked n s.urbs .completion) (hc : s.control = .completion)
    (hs : CompletionStep d s s') : Tracked n s'.urbs s'.control := by
  cases hs with
  | empty | errorLimit | overflow => exact h.of_idle rfl ⟨rfl, rfl, rfl, rfl⟩
  | @recycle u rest m gone hlist hempty =>
    have hu : u ∈ s.urbs.completionList.entries := by simp [hlist]
    refine h.of_perm (h.counted.recycle hu hempty) ?_ ?_ ?_ ?_
    · simpa [hc, Control.held] using UrbLists.recycle_all hu
    · simp [hc, Control.unsent]
    · simp [hc, Control.rounds]
    · simp [hc, Control.failed]
  | @take u rest m gone hlist =>
    have hu : u ∈ s.urbs.completionList.entries := by simp [hlist]
    refine h.of_perm (h.counted.takeCompleted hu) ?_ ?_ (Nat.zero_le _) rfl
    · simpa [Control.held] using UrbLists.takeCompleted_all hu
    · simp [Control.unsent]

/-- A URB from the hands of the thread goes to the end of the free list. -/
theorem insertFree {u v : Urb} (h : Tracked n l c) (hc : c.held = some u) (hid : v.id = u.id)
    (hc' : c'.held = none) (hunsent : c'.unsent = none)
    (hrounds : c'.rounds ≤ l.freeList.entries.length + 1) (hrunning : c'.failed = false) :
    Tracked n (l.insertFree v) c' where
  counted := h.counted.insertFree v
  ids := by
    have hall := (UrbLists.insertFree_all l v).map (·.id)
    refine .trans ?_ h.ids
    simpa [hc, hc', hid] using hall
  unsent u hu := by simp [hunsent] at hu
  rounds := by simpa [UrbLists.insertFree, UrbList.insertTail] using hrounds
  running := hrunning

/-! ## Sending URBs -/

/-- The head of the free list is taken off, with one round less to make after it. -/
theorem removeFree {u : Urb} {rest : List Urb} (h : Tracked n l c) (hc : c.held = none)
    (hlist : l.freeList.entries = u :: rest) (k : Sender)
    (hrounds : (Control.takenFree u k).rounds ≤ rest.length) :
    Tracked n (l.removeFree u) (.takenFree u k) := by
  have hu : u ∈ l.freeList.entries := by simp [hlist]
  have hheld : (Control.takenFree u k).held = some u := rfl
  refine h.of_perm (h.counted.removeFree hu) ?_ (by simp [Control.unsent]) ?_ rfl
  · simpa [hc, hheld] using UrbLists.removeFree_all hu
  · simpa [UrbLists.removeFree, UrbList.removeEntry, hlist] using hrounds

theorem takenFreeCase {u : Urb} {k : Sender} {reset : Bool}
    (h : Tracked n s.urbs (.takenFree u k)) :
    Tracked n (s.takenFreeStep d u reset k).urbs (s.takenFreeStep d u reset k).control := by
  have hreset : Tracked n s.urbs (.insertPending u.reset k) :=
    { counted := h.counted
      ids := by simpa [Control.held, Urb.reset] using h.ids
      unsent := by simp [Control.unsent]
      rounds := h.rounds
      running := rfl }
  cases k with
  | resend =>
    simp only [State.takenFreeStep]
    split
    · exact hreset
    · exact h.insertFree rfl rfl rfl rfl (Nat.zero_le _) rfl
  | sendReadUrbs m k =>
    simp only [State.takenFreeStep]
    split
    · exact hreset
    · exact h.insertFree rfl rfl rfl rfl (Nat.le_succ_of_le h.rounds) rfl

theorem insertPending {u : Urb} {k : Sender} (h : Tracked n l (.insertPending u k)) :
    Tracked n (l.insertPending u) (.send u k) := by
  refine h.of_perm (h.counted.insertPending u) ?_ (fun v hv => ?_) h.rounds rfl
  · simpa [Control.held] using UrbLists.insertPending_all l u
  · obtain rfl : u = v := by simpa [Control.unsent] using hv
    simp [UrbLists.insertPending, UrbList.insertTail]

theorem sendCase {u : Urb} {k : Sender} {sent : Bool} (h : Tracked n s.urbs (.send u k)) :
    Tracked n (s.sendStep u sent k).urbs (s.sendStep u sent k).control := by
  unfold State.sendStep
  cases sent with
  | true =>
    cases k with
    | resend => exact h.of_idle rfl ⟨rfl, rfl, rfl, rfl⟩
    | sendReadUrbs m k => exact ⟨h.counted, h.ids, by simp [Control.unsent], h.rounds, rfl⟩
  | false => exact ⟨h.counted, h.ids, h.unsent, h.rounds, rfl⟩

theorem removePending {u : Urb} {k : Sender} (h : Tracked n l (.sendFailed u k)) :
    Tracked n (l.removePending u) (.putBack u k) := by
  have hu : u ∈ l.pendingList.entries := h.unsent u rfl
  refine h.of_perm (h.counted.removePending hu) ?_ (by simp [Control.unsent]) h.rounds rfl
  simpa [Control.held] using UrbLists.removePending_all hu

theorem putBackCase {u : Urb} {k : Sender} (h : Tracked n s.urbs (.putBack u k)) :
    Tracked n (s.putBackStep d u k).urbs (s.putBackStep d u k).control := by
  cases k with
  | resend =>
    simp only [State.putBackStep]
    split <;> exact h.insertFree rfl rfl rfl rfl (Nat.zero_le _) rfl
  | sendReadUrbs m k => exact h.insertFree rfl rfl rfl rfl (Nat.le_succ_of_le h.rounds) rfl

theorem sendReadUrbsCase {m : Nat} {k : SendCase} (h : Tracked n s.urbs (.sendReadUrbs m k)) :
    Tracked n (s.sendReadUrbsStep m k).urbs (s.sendReadUrbsStep m k).control := by
  unfold State.sendReadUrbsStep
  split
  · cases k <;> exact h.of_idle rfl ⟨rfl, rfl, rfl, rfl⟩
  · rename_i m hlist
    have hrounds : m + 1 ≤ s.urbs.freeList.entries.length := h.rounds
    simp [hlist] at hrounds
  · rename_i m u rest hlist
    have hrounds : m + 1 ≤ s.urbs.freeList.entries.length := h.rounds
    refine h.removeFree rfl hlist _ ?_
    simpa [hlist, Control.rounds] using hrounds

/-- The loops that send URBs. -/
theorem sends (h : Tracked n s.urbs s.control) (hc : s.control.sending = true)
    (hs : s.threadStep d ok = some s') : Tracked n s'.urbs s'.control := by
  cases hcontrol : s.control with
  | resend =>
    rw [hcontrol] at h
    simp only [State.threadStep, hcontrol, Option.some.injEq, State.resendStep] at hs
    split at hs
    · subst hs
      exact h.of_idle rfl ⟨rfl, rfl, rfl, rfl⟩
    · rename_i u rest hlist
      subst hs
      exact h.removeFree rfl hlist .resend (Nat.zero_le _)
  | takenFree u k =>
    rw [hcontrol] at h
    obtain rfl : s.takenFreeStep d u ok k = s' := by simpa [State.threadStep, hcontrol] using hs
    exact h.takenFreeCase
  | insertPending u k =>
    rw [hcontrol] at h
    simp only [State.threadStep, hcontrol, Option.some.injEq] at hs
    subst hs
    exact h.insertPending
  | send u k =>
    rw [hcontrol] at h
    obtain rfl : s.sendStep u ok k = s' := by simpa [State.threadStep, hcontrol] using hs
    exact h.sendCase
  | sendFailed u k =>
    rw [hcontrol] at h
    simp only [State.threadStep, hcontrol, Option.some.injEq] at hs
    subst hs
    exact h.removePending
  | putBack u k =>
    rw [hcontrol] at h
    obtain rfl : s.putBackStep d u k = s' := by simpa [State.threadStep, hcontrol] using hs
    exact h.putBackCase
  | sendReadUrbs m k =>
    rw [hcontrol] at h
    obtain rfl : s.sendReadUrbsStep m k = s' := by simpa [State.threadStep, hcontrol] using hs
    exact h.sendReadUrbsCase
  | _ => simp [hcontrol, Control.sending] at hc

/-- `QCRD_SendReadUrbs` counts the free URBs first. -/
theorem startSendReadUrbs {k : SendCase} (h : Tracked n l .wait) :
    Tracked n l (.sendReadUrbs l.freeList.listLength k) where
  counted := h.counted
  ids := h.ids
  unsent u hu := by simp [Control.unsent] at hu
  rounds := h.counted.free.le
  running := rfl

/-- A URB that was sent goes from the pending to the completion list. -/
theorem completes {u v : Urb} (h : Tracked n l c) (hu : u ∈ l.pendingList.entries)
    (hid : v.id = u.id) (hsent : c.unsent ≠ some u) : Tracked n (l.complete u v) c where
  counted := h.counted.complete hu v
  ids := by
    have hall := (UrbLists.complete_all hu v).map (·.id)
    simp only [List.map_cons, hid] at hall
    have hids := (hall.cons_inv.append_left (c.held.toList.map (·.id)))
    simpa using hids.trans (by simpa using h.ids)
  unsent w hw := by
    have hne : w ≠ u := fun heq => hsent (heq ▸ hw)
    simpa [UrbLists.complete, UrbList.findEntry, hu, UrbList.removeEntry] using
      (List.mem_erase_of_ne hne).mpr (h.unsent w hw)
  rounds := h.rounds
  running := h.running

/-! ## All steps -/

theorem thread (h : Tracked n s.urbs s.control) (hbuffer : s.Buffered)
    (hs : s.threadStep d ok = some s') : Tracked n s'.urbs s'.control := by
  cases threadStep_cases hs with
  | completion hc hstep => exact (hc ▸ h).completionCase hc hstep
  | @copy u hc =>
    obtain ⟨ring, -, -, heq⟩ := hbuffer.copied hc
    rw [heq]
    rw [hc] at h
    exact h.insertFree rfl rfl rfl rfl (Nat.zero_le _) rfl
  | completionDone hc =>
    have hheld : s.control.held = none := by rw [hc]; rfl
    unfold State.completionDoneStep
    dsimp only
    split <;> exact h.of_idle hheld ⟨rfl, rfl, rfl, rfl⟩
  | arriveClosed hc =>
    have hheld : s.control.held = none := by rw [hc]; rfl
    exact h.of_idle hheld ⟨rfl, rfl, rfl, rfl⟩
  | arrive hc hstep =>
    have hheld : s.control.held = none := by rw [hc]; rfl
    cases hstep with
    | bypass | drain => exact h.of_idle hheld ⟨rfl, rfl, rfl, rfl⟩
    | nothing | keep | forwarded | atOnce => exact h.of_idle hheld (idle_startResend _)
  | drain hc hstep =>
    have hheld : s.control.held = none := by rw [hc]; rfl
    cases hstep with
    | empty | noRead => exact h.of_idle hheld (idle_startResend _)
    | notified status hnext | served status hnext => cases nextRead_cases hnext <;> exact h
  | timeout hc hstep =>
    have hheld : s.control.held = none := by rw [hc]; rfl
    cases hstep <;> exact h.of_idle hheld ⟨rfl, rfl, rfl, rfl⟩
  | sends hc => exact h.sends hc hs
  | stopTarget hc | clearRing hc =>
    have hheld : s.control.held = none := by rw [hc]; rfl
    exact h.of_idle hheld ⟨rfl, rfl, rfl, rfl⟩
  | @cleared k hc =>
    have hcleared : Tracked n s.urbs.clearCompleted .wait := by
      rw [hc] at h
      refine h.of_perm h.counted.clearCompleted ?_ (by simp [Control.unsent]) (Nat.zero_le _) rfl
      simpa [Control.held] using UrbLists.clearCompleted_all h.counted
    cases k with
    | fileClose | d0Exit => exact hcleared
    | clearBuffer => exact hcleared.startSendReadUrbs

theorem wake (h : Tracked n s.urbs s.control) (hc : s.control = .wait) (e : Event) :
    Tracked n (s.wake e).urbs (s.wake e).control := by
  have hheld : s.control.held = none := by rw [hc]; rfl
  have hwait : Tracked n s.urbs .wait := hc ▸ h
  cases e with
  | fileCreate => exact hwait.startSendReadUrbs
  | d0Entry =>
    simp only [State.wake]
    split
    · exact hwait.startSendReadUrbs
    · exact hwait
  | _ => exact h.of_idle hheld ⟨rfl, rfl, rfl, rfl⟩

theorem step {op : Op} (h : Tracked n s.urbs s.control) (hbuffer : s.Buffered)
    (hs : s.step d op = some s') : Tracked n s'.urbs s'.control := by
  cases step_cases hs with
  | @completes u p hu hlocked hsent => exact h.completes hu rfl hsent
  | wake hc => exact h.wake hc _
  | thread hstep => exact h.thread hbuffer hstep
  | _ => exact h

end Tracked

/-! ## Runs -/

/-- In every state of every run each URB is on one list or in the hands of the thread, the counters
and the data size are those of the lists, `AmountInInQueue` is right when the thread is about to
wait, no copy to the ring buffer fails, and no URB is taken off an empty list. -/
theorem readThread_urbs (d : VendorConfig) (n : Nat) (pBuffer : Nat → UInt8) (capacity : Nat)
    (ops : List Op) :
    ∀ s ∈ (readThread d).visits (setupState n pBuffer capacity) ops,
      ((s.control.held.toList ++ s.urbs.all).map (·.id)).Perm (List.range n) ∧ s.urbs.Counted ∧
        (s.control = .wait → s.amountInInQueue = s.bytesUsed) ∧
        s.control ≠ .copyFailed ∧ s.control ≠ .emptyFreeList := by
  have hstep : ∀ s op s' (o : Unit), s.Buffered ∧ Tracked n s.urbs s.control → True →
      readThread d s op = some (s', o) → s'.Buffered ∧ Tracked n s'.urbs s'.control := by
    rintro s op s' o ⟨hbuffer, htracked⟩ - hstep
    have hstep : s.step d op = some s' := step_of_readThread hstep
    exact ⟨hbuffer.step hstep, htracked.step hbuffer hstep⟩
  intro s hs
  obtain ⟨hbuffer, htracked⟩ := visits_all hstep ⟨setupState_buffered .., .setup n⟩
    (fun _ _ => trivial) s hs
  refine ⟨htracked.ids, htracked.counted, fun _ => hbuffer.amount, fun hc => ?_, fun hc => ?_⟩
  · simpa [hc, Control.failed] using htracked.running
  · simpa [hc, Control.failed] using htracked.running

/-- Three URBs are sent, and one comes back with two bytes. -/
theorem readThread_urbs_oneBack :
    ∃ s ∈ (readThread ⟨2000, 10, 4⟩).visits (setupState 3 (fun _ => 0) 16)
        (openOps ++ [.urbCompletes 1 ⟨.success, 2, some 2, fun _ => 8⟩]),
      ((s.control.held.toList ++ s.urbs.all).map (·.id)).Perm (List.range 3) ∧ s.urbs.Counted ∧
        s.urbs.pendingList.listLength = 2 ∧ s.urbs.completionListDataSize = 2 := by
  have hlast := List.getLast_mem (List.ne_nil_of_mem (Machine.start_mem_visits
    (M := readThread ⟨2000, 10, 4⟩) (setupState 3 (fun _ => 0) 16)
    (openOps ++ [.urbCompletes 1 ⟨.success, 2, some 2, fun _ => 8⟩])))
  obtain ⟨hids, hcounted, -⟩ := readThread_urbs ⟨2000, 10, 4⟩ 3 (fun _ => 0) 16 _ _ hlast
  exact ⟨_, hlast, hids, hcounted, by decide +kernel, by decide +kernel⟩

end WdfSerial
