-- SUMMARY: When a queued read of the serial driver gets its turn, and which steps pass one over.
import QcomUsb.WdfSerial.OpenRun
import QcomUsb.WdfSerial.ReadOrder

/-!
# Turns

With nothing buffered, the arrive case takes one read from the read queue and lets it
wait. The next one has to be taken when that read is done. The read queue is announced
only when it was empty before, so a step that finishes a read and leaves others in the
queue can leave them without a turn.
-/

namespace WdfSerial

open Transition Machine

/-- The arrive event is set. -/
def State.Notified (s : State) : Prop := s.events .requestArrive = true

/-- When the thread is about to wait with nothing buffered, a read in the read queue has an
earlier one before it in the timeout queue, or the arrive event is set. -/
def State.HasTurn (s : State) : Prop :=
  s.control = .wait → s.bytesUsed = 0 → ∀ r ∈ s.readQueue,
    (∃ e ∈ s.timeoutReadQueue, e.seq < r.seq) ∨ s.Notified

/-- No read of the read queue is without a turn. -/
def State.TurnsKept (s : State) : Prop :=
  s.readQueue ≠ [] → s.timeoutReadQueue ≠ [] ∨ s.Notified

/-- The control points at which the thread has given the next read its turn. -/
def Control.turnGiven : Control → Bool
  | .drain _ => true
  | c => c.announcing

/-- The step does not pass over a read of the read queue: a read that returns at once from an empty
buffer is the last one, a read that takes the last bytes leaves a turn behind, a timeout comes
when no other read is queued, and so does the cancellation of a read in the timeout queue. -/
def KeepsTurn (s : State) : Op → Prop
  | .thread ok =>
    match s.control with
    | .arrive =>
      match s.readQueue with
      | [] => True
      | r :: rest =>
        s.bytesUsed = 0 → s.timeoutReadQueue = [] → s.completesAtOnce r ok → rest = [] ∨ s.Notified
    | .drain b =>
      match s.nextRead b with
      | none => True
      | some (r, t) => s.bytesUsed ≠ 0 → ok = true → s.bytesUsed ≤ r.length → t.TurnsKept
    | .timeout => s.timeoutReadQueue ≠ [] → s.readQueue = [] ∨ s.Notified
    | _ => True
  | .readCancelled seq =>
    s.control.turnGiven = true → s.bytesUsed = 0 → (∃ r ∈ s.timeoutReadQueue, r.seq = seq) →
      s.readQueue = [] ∨ s.Notified
  | _ => True

instance (s : State) : Decidable s.Notified := inferInstanceAs (Decidable (_ = _))

instance (s : State) : Decidable s.TurnsKept := inferInstanceAs (Decidable (_ → _))

instance (s : State) (r : ReadRequest) (ok : Bool) : Decidable (s.completesAtOnce r ok) :=
  inferInstanceAs (Decidable (_ ∨ _))

instance (s : State) (op : Op) : Decidable (KeepsTurn s op) := by
  unfold KeepsTurn
  split
  · split
    · split <;> infer_instance
    · split <;> infer_instance
    · infer_instance
    · infer_instance
  · infer_instance
  · infer_instance

/-- The turn of the next read is given. -/
def State.TurnGiven (s : State) : Prop :=
  s.control.turnGiven = true → s.bytesUsed = 0 → s.TurnsKept

variable {d : VendorConfig} {s s' : State} {ok : Bool}

/-! ## Turns -/

theorem State.turnsKept_hasTurn (hordered : Ordered s)
    (h : s.control.turnGiven = true → s.bytesUsed = 0 → s.TurnsKept) : s.HasTurn := by
  intro hc hempty r hr
  have hgiven : s.control.turnGiven = true := by
    simp [hc, Control.turnGiven, Control.announcing, Control.settled]
  rcases h hgiven hempty (List.ne_nil_of_mem hr) with htimeout | hset
  · obtain ⟨e, he⟩ := List.exists_mem_of_ne_nil _ htimeout
    exact .inl ⟨e, he, hordered.lt_of_mem he hr⟩
  · exact .inr hset

namespace State.TurnGiven

theorem of_busy (hc : s.control.turnGiven = false) : s.TurnGiven := fun hc' => by simp [hc] at hc'

theorem of_data (hused : s.bytesUsed ≠ 0) : s.TurnGiven := fun _ hempty => absurd hempty hused

theorem of_kept (h : s.TurnsKept) : s.TurnGiven := fun _ _ => h

theorem of_noRead (hread : s.readQueue = []) : s.TurnGiven := fun _ _ hr => absurd hread hr

/-- Nothing but the control point changes, within those at which the turn is given. -/
theorem of_same (h : s.TurnGiven) (hc : s.control.turnGiven = true)
    (hread : s'.readQueue = s.readQueue) (htimeout : s'.timeoutReadQueue = s.timeoutReadQueue)
    (hused : s'.bytesUsed = s.bytesUsed)
    (harrive : s.events .requestArrive = true → s'.events .requestArrive = true) :
    s'.TurnGiven := by
  intro _ hempty hr
  rcases h hc (hused ▸ hempty) (hread ▸ hr) with ht | hset
  · exact .inl (htimeout ▸ ht)
  · exact .inr (harrive hset)

theorem arrive (hc : s.control = .arrive) (hok : KeepsTurn s (.thread ok))
    (hs : ArriveStep s ok s') : s'.TurnGiven := by
  cases hs with
  | nothing hempty hqueues =>
    apply of_kept
    rcases hqueues with ht | hread
    · exact fun _ => .inl ht
    · exact fun hr => absurd hread hr
  | forwarded => exact of_kept fun _ => .inl (List.cons_ne_nil _ _)
  | atOnce timer status hempty htimeout hread honce =>
    have hleft := hok
    simp only [KeepsTurn, hc, hread] at hleft
    apply of_kept
    rcases hleft hempty htimeout honce with hnil | hset
    · exact fun hr => absurd hnil hr
    · exact fun _ => .inr hset
  | keep hinterval hread => exact of_noRead hread
  | bypass hinterval hused => exact of_data hused
  | drain hinterval hused => exact of_data hused

/-- A read that empties the buffer takes the last bytes. -/
theorem of_readRing {t : State} {r : ReadRequest} (status : List UInt8 → ReadStatus)
    (hring : t.readRingBuffer.Inv) (hused : t.bytesUsed ≠ 0)
    (hempty : (t.readRing r ok status).bytesUsed = 0)
    (hleft : ok = true → t.bytesUsed ≤ r.length → t.TurnsKept) : t.TurnsKept := by
  rw [readRing_bytesUsed hring] at hempty
  cases ok with
  | false => exact absurd hempty hused
  | true => exact hleft rfl (Nat.le_of_sub_eq_zero hempty)

theorem drainLoop {b : Bool} (h : s.TurnGiven) (hring : s.readRingBuffer.Inv)
    (hc : s.control = .drain b) (hok : KeepsTurn s (.thread ok)) (hs : DrainStep s b ok s') :
    s'.TurnGiven := by
  have hgiven : s.control.turnGiven = true := by simp [hc, Control.turnGiven]
  cases hs with
  | empty hempty => exact of_kept (h hgiven hempty)
  | noRead hnext => exact of_noRead (nextRead_eq_none hnext).1
  | @notified r t status hnext hused | @served r t status hnext hused =>
    have hsame : t.readRingBuffer = s.readRingBuffer := nextRead_ring (nextRead_cases hnext)
    have hbytes : t.bytesUsed = s.bytesUsed := congrArg RingBuffer.bytesUsed hsame
    have hused' : t.bytesUsed ≠ 0 := hbytes ▸ hused
    have hleft : ok = true → t.bytesUsed ≤ r.length → t.TurnsKept := by
      have hkeeps := hok
      simp only [KeepsTurn, hc, hnext] at hkeeps
      exact fun hmapped hle => hkeeps hused hmapped (hbytes ▸ hle)
    intro _ hempty hr
    have hkept : t.TurnsKept := of_readRing status (hsame.symm ▸ hring) hused' hempty hleft
    rcases hkept hr with ht | hset
    · exact .inl ht
    · exact .inr (by simpa [State.Notified, State.readRing] using hset)

theorem timeoutCase (h : s.TurnGiven) (hc : s.control = .timeout)
    (hok : KeepsTurn s (.thread ok)) (hs : TimeoutStep s ok s') : s'.TurnGiven := by
  have hgiven : s.control.turnGiven = true := by simp [hc, Control.turnGiven, Control.announcing]
  have hleft := hok
  simp only [KeepsTurn, hc] at hleft
  cases hs with
  | empty htimeout => exact h.of_same hgiven rfl rfl rfl id
  | partialRead status htimeout | timedOut htimeout =>
    apply of_kept
    rcases hleft (by simp [htimeout]) with hnil | hset
    · exact fun hr => absurd hnil hr
    · exact fun _ => .inr hset

theorem thread (h : s.TurnGiven) (hannounced : s.Announced) (hring : s.readRingBuffer.Inv)
    (hopen : s.IsOpen) (hok : KeepsTurn s (.thread ok)) (hs : s.threadStep d ok = some s') :
    s'.TurnGiven := by
  cases hopen.threadStep hs with
  | completion hc hstep =>
    cases hstep <;> exact of_busy
      (by simp [hc, Control.turnGiven, Control.announcing, Control.settled, Control.sending])
  | copy hc =>
    unfold State.copyStep
    dsimp only
    split <;> exact of_busy rfl
  | completionDone hc =>
    refine of_kept fun _ => .inr ?_
    unfold State.completionDoneStep State.Notified
    dsimp only
    split <;> simp
  | arrive hc hstep => exact arrive hc hok hstep
  | drain hc hstep => exact h.drainLoop hring hc hok hstep
  | timeout hc hstep => exact h.timeoutCase hc hok hstep
  | clearRing hc =>
    -- what was announced next to data still is
    have hannounce : s.control.announcing = true := by
      simp [hc, Control.announcing, Control.settled]
    intro _ _ hr
    by_cases hempty : s.bytesUsed = 0
    · exact h (by simp [hc, Control.turnGiven, Control.announcing, Control.settled]) hempty hr
    · exact .inr (hannounced hannounce hr hempty)
  | clearLists hc =>
    exact h.of_same (by simp [hc, Control.turnGiven, Control.announcing, Control.settled])
      rfl rfl rfl id
  | sends hc l n c hl hc' =>
    have hgiven : s.control.turnGiven = true := by
      have hsettled := Control.settled_of_sending hc
      cases hcontrol : s.control <;>
        simp_all [Control.turnGiven, Control.announcing, Control.settled, Control.sending]
    exact h.of_same hgiven rfl rfl rfl id

theorem wake {e : Event} (h : s.TurnGiven) (hopen : s.IsOpen) (hc : s.control = .wait)
    (he : s.events e = true) : (s.wake e).TurnGiven := by
  have hgiven : s.control.turnGiven = true := by
    simp [hc, Control.turnGiven, Control.announcing, Control.settled]
  have hlife : e.lifecycle = false := hopen.lifecycle_eq_false he
  cases e with
  | deviceRemove | fileCreate | fileClose | d0Exit | d0Entry => simp [Event.lifecycle] at hlife
  | requestArrive | requestCompletion => exact of_busy rfl
  | clearBuffer | scanWaitMask | requestTimeout =>
    exact h.of_same hgiven rfl rfl rfl (by simp [State.wake])

theorem step {op : Op} (h : s.TurnGiven) (hannounced : s.Announced) (hring : s.readRingBuffer.Inv)
    (hopen : s.IsOpen) (hok : KeepsTurn s op) (hs : s.step d op = some s') : s'.TurnGiven := by
  cases step_cases hs with
  | arrivesFirst => exact of_kept fun _ => .inr (by simp [State.Notified])
  | arrivesNext hread => exact fun hc hempty _ => h hc hempty hread
  | @cancelled r hr =>
    intro hc hempty hread
    have hread' : s.readQueue ≠ [] := fun hnil => hread (by simp [hnil])
    rcases h hc hempty hread' with ht | hset
    · by_cases hmem : r ∈ s.timeoutReadQueue
      · rcases hok hc hempty ⟨r, hmem, rfl⟩ with hnil | hset
        · exact absurd hnil hread'
        · exact .inr hset
      · exact .inl (by rwa [List.erase_of_not_mem hmem])
    · exact .inr hset
  | completes | dpc =>
    intro hc hempty hr
    exact (h hc hempty hr).imp id (by simp [State.Notified])
  | expires | setTimeout => exact h
  | purgeReads | purgeBoth => exact of_noRead rfl
  | @setEvent e =>
    intro hc hempty hr
    refine (h hc hempty hr).imp id fun hset => ?_
    by_cases he : Event.requestArrive = e
    · subst he
      simp [State.Notified]
    · simpa [State.Notified, Function.update_of_ne he] using hset
  | wake hc he => exact h.wake hopen hc he
  | thread hstep => exact h.thread hannounced hring hopen hok hstep

end State.TurnGiven

/-! ## Runs -/

/-- In a run with the file open, the device in D0 and the timeouts fixed, every queued read gets
its turn, unless a step passes one over. -/
theorem readThread_hasTurn (d : VendorConfig) (start : State) (hstart : start.Opened)
    (ops : List Op) (hops : ∀ op ∈ ops, op.staysOpen = true ∧ op.keepsTimeouts = true)
    (hok : ∀ p ∈ (readThread d).fires start ops, KeepsTurn p.1 p.2) :
    ∀ s ∈ (readThread d).visits start ops, s.HasTurn := by
  intro s hs
  have hordered : Ordered start :=
    .of_noRead (by simp [State.queued, hstart.timeoutReadQueue, hstart.readQueue])
  have hinv := visits_all_of_fires_adm (P := fun s => (s.IsOpen ∧ s.Announced) ∧
    s.readRingBuffer.Inv ∧ Ordered s ∧ s.TurnGiven) ?_
    ⟨⟨hstart.isOpen, .of_empty hstart.empty⟩, hstart.ring, hordered, .of_noRead hstart.readQueue⟩
    hops hok s hs
  · exact State.turnsKept_hasTurn hinv.2.2.1 hinv.2.2.2
  rintro s op s' o ⟨⟨hopen, hannounced⟩, hring, hordered, hturn⟩ ⟨hstays, -⟩ hok hstep
  have hstep : s.step d op = some s' := step_of_readThread hstep
  exact ⟨⟨hopen.step hstays hstep, hannounced.step hopen hstep⟩, ringInv_step hring hstep,
    hordered.step hstep, hturn.step hannounced hring hopen hok hstep⟩

/-- A device on which a read may take 100 ms. -/
def totalState : State := openState [⟨0, .success, []⟩, ⟨1, .success, []⟩] 16 ⟨0, 0, 100⟩

/-- Two reads of two bytes come, and the first begins to wait. -/
def twoReadsOps : List Op :=
  [.readArrives 2, .readArrives 2, .wake .requestArrive, .thread true, .thread true]

/-- Two bytes come, and the first read gets them. -/
def twoBytesOps : List Op :=
  [.urbCompletes 0 ⟨.success, 2, some 2, fun _ => 7⟩, .wake .requestCompletion, .thread true,
    .thread true, .thread true, .thread true, .wake .requestArrive, .thread true, .thread true,
    .thread true, .thread true, .thread true, .thread true, .thread true, .thread true]

theorem readThread_hasTurn_twoReads :
    ∃ s ∈ (readThread ⟨2000, 10, 4⟩).visits totalState twoReadsOps,
      s.HasTurn ∧ s.control = .wait ∧ s.timeoutReadQueue = [⟨0, 2⟩] ∧
        s.readQueue = [⟨1, 2⟩] := by
  have hlast := List.getLast_mem (List.ne_nil_of_mem (Machine.start_mem_visits
    (M := readThread ⟨2000, 10, 4⟩) totalState twoReadsOps))
  refine ⟨_, hlast, ?_, by decide +kernel, by decide +kernel, by decide +kernel⟩
  exact readThread_hasTurn _ _ (openState_opened ..) _ (by decide) (by decide +kernel) _ hlast

/-- The second read is left in the read queue: its time does not run. -/
theorem readThread_hasTurn_twoBytes :
    ¬ ∀ s ∈ (readThread ⟨2000, 10, 4⟩).visits totalState (twoReadsOps ++ twoBytesOps),
      s.HasTurn := by
  intro hall
  have hlast := hall _ (List.getLast_mem (List.ne_nil_of_mem (Machine.start_mem_visits _ _)))
  have hturn := hlast (by decide +kernel) (by decide +kernel) ⟨1, 2⟩ (by decide +kernel)
  revert hturn
  decide +kernel

end WdfSerial
