-- SUMMARY: The bytes of the serial stream: none is lost or duplicated, and in which order the reads get them.
import QcomUsb.WdfSerial.BufferSpace
import QcomUsb.WdfSerial.ReadOrder

/-!
# The serial stream

What the URBs bring goes through the completion list, the hands of the thread and the
ring buffer to the reads. Without a purge, a close, an exit from D0 or a cancelled
read, every byte is in exactly one of these places, in the order of arrival.
-/

namespace WdfSerial

open Transition Machine

/-- The events that throw reads or data away. -/
def Event.disturbs : Event → Bool
  | .fileClose | .clearBuffer | .d0Exit => true
  | _ => false

/-- No purge, no close, no exit from D0, and no cancelled read. -/
def Op.undisturbed : Op → Bool
  | .readCancelled _ | .purgeAbort => false
  | .setEvent e => !e.disturbs
  | _ => true

/-- The timeouts that are set, if any, do not ask for a gap between bytes. -/
def Op.noInterval : Op → Bool
  | .setTimeout t => !(WdfSerial.setTimeout t).bUseReadInterval
  | _ => true

namespace State

/-- The URBs that came back with data that is not in the ring buffer yet. -/
def arrived (s : State) : List Urb :=
  s.control.inHand.toList ++ s.urbs.completionList.entries

/-- The bytes received and not yet given to a read. -/
def unread (s : State) : List UInt8 :=
  s.readRingBuffer.contents ++ s.arrived.flatMap (·.readBuffer)

/-- The bytes of the completed reads, in the order of their completion. -/
def returned (s : State) : List UInt8 := s.completed.flatMap (·.bytes)

/-- The bytes of the completed reads, in the order of their submission. -/
def returnedAsSubmitted (s : State) : List UInt8 :=
  (s.completed.insertionSort fun a b => a.request.seq ≤ b.request.seq).flatMap (·.bytes)

end State

variable {d : VendorConfig} {s s' : State} {ok : Bool}

/-! ## Nothing is thrown away -/

/-- The thread is not about to clear its buffer. -/
def Control.clears : Control → Bool
  | .stopTarget _ | .clearRing _ | .clearLists _ => true
  | _ => false

/-- No data has been or will be thrown away. -/
structure Undisturbed (s : State) : Prop where
  events : ∀ e, e.disturbs = true → s.events e = false
  control : s.control.clears = false

namespace Undisturbed

theorem disturbs_own {e : Event} (he : e.disturbs = true) : e.own = false := by
  cases e <;> first | rfl | cases he

theorem clears_thread (h : s.control.clears = false) (hs : s.threadStep d ok = some s') :
    s'.control.clears = false := by
  have hsettled : ∀ t : State, t.startResend.control.clears = false := fun t => by
    unfold State.startResend
    split <;> rfl
  cases threadStep_cases hs with
  | completion hc hstep =>
    cases hstep with
    | recycle => exact h
    | _ => rfl
  | copy hc =>
    unfold State.copyStep
    dsimp only
    split <;> rfl
  | completionDone | arriveClosed => rfl
  | arrive hc hstep =>
    cases hstep with
    | bypass | drain => rfl
    | _ => exact hsettled _
  | drain hc hstep =>
    cases hstep with
    | empty | noRead => exact hsettled _
    | notified status hnext | served status hnext =>
      cases nextRead_cases hnext <;> simp [State.readRing, Control.clears, hc]
  | timeout hc hstep => cases hstep <;> rfl
  | sends hc hstep =>
    cases hstep with
    | @goes l n c hl hc' =>
      rcases hc' with rfl | rfl | hsend
      · rfl
      · rfl
      · cases c <;> simp_all [Control.clears, Control.sending]
    | @finish k => cases k <;> rfl
  | stopTarget hc | clearRing hc | cleared hc => simp [hc, Control.clears] at h

theorem clears_wake {e : Event} (he : e.disturbs = false) : (s.wake e).control.clears = false := by
  cases e with
  | fileClose | clearBuffer | d0Exit => cases he
  | d0Entry =>
    simp only [State.wake]
    split <;> rfl
  | _ => rfl

theorem step {op : Op} (h : Undisturbed s) (hop : op.undisturbed = true)
    (hs : s.step d op = some s') : Undisturbed s' where
  events e he := by
    refine Bool.eq_false_of_not_eq_true fun hset => ?_
    rcases step_events (disturbs_own he) hs hset with hset | rfl
    · simp [h.events e he] at hset
    · simp [Op.undisturbed, he] at hop
  control := by
    cases step_cases hs with
    | @wake e hc hset =>
      refine clears_wake (Bool.eq_false_of_not_eq_true fun he => ?_)
      simp [h.events e he] at hset
    | thread hstep => exact clears_thread h.control hstep
    | _ => exact h.control

end Undisturbed

/-! ## The bytes -/

/-- The bytes the reads got and the bytes still to be read are the bytes received. -/
def State.Accounted (s : State) : Prop := s.returned ++ s.unread = s.received

namespace State.Accounted

/-- Nothing happens to the bytes. -/
theorem of_same (h : s.Accounted) (hring : s'.readRingBuffer = s.readRingBuffer)
    (harrived : s'.arrived.flatMap (·.readBuffer) = s.arrived.flatMap (·.readBuffer))
    (hreturned : s'.returned = s.returned) (hreceived : s'.received = s.received) :
    s'.Accounted := by
  unfold State.Accounted State.unread
  rw [hreturned, hring, harrived, hreceived]
  exact h

/-- The thread goes on with empty hands. -/
theorem of_goto (h : s.Accounted) (hc : s.control.inHand = none) (hc' : s'.control.inHand = none)
    (hring : s'.readRingBuffer = s.readRingBuffer)
    (hlist : s'.urbs.completionList = s.urbs.completionList)
    (hreturned : s'.returned = s.returned) (hreceived : s'.received = s.received) :
    s'.Accounted := by
  refine h.of_same hring ?_ hreturned hreceived
  simp [State.arrived, hc, hc', hlist]

theorem completionCase (h : s.Accounted) (hc : s.control = .completion)
    (hs : CompletionStep d s s') : s'.Accounted := by
  have hhand : s.control.inHand = none := by rw [hc]; rfl
  cases hs with
  | empty | errorLimit | overflow => exact h.of_goto hhand rfl rfl rfl rfl rfl
  | @recycle u rest n gone hlist hempty =>
    have hnil : u.readBuffer = [] := List.eq_nil_of_length_eq_zero hempty
    refine h.of_same rfl ?_ rfl rfl
    simp [State.arrived, UrbLists.recycle, UrbList.removeEntry, hlist, hnil]
  | @take u rest n gone hlist hfits =>
    refine h.of_same rfl ?_ rfl rfl
    simp [State.arrived, hc, Control.inHand, hlist, UrbLists.takeCompleted_head hlist]

/-- The copied data moves from the hands of the thread to the end of the buffer. -/
theorem copyCase {u : Urb} (h : s.Accounted) (hbuffer : s.Buffered) (hc : s.control = .copy u) :
    (s.copyStep u).Accounted := by
  obtain ⟨ring, -, hcontents, heq⟩ := hbuffer.copied hc
  have hhand : s.control.inHand = some u := by rw [hc]; rfl
  have hstream : s.returned ++ (ring.contents ++
      s.urbs.completionList.entries.flatMap (·.readBuffer)) = s.received := by
    simpa [State.Accounted, State.unread, State.arrived, hhand, hcontents] using h
  rw [heq]
  exact hstream

/-- A read gets bytes from the front of the buffer. -/
theorem readRing (h : s.Accounted) (hring : s.readRingBuffer.Inv) (r : ReadRequest) (mapped : Bool)
    (status : List UInt8 → ReadStatus) : (s.readRing r mapped status).Accounted := by
  obtain ⟨-, hbytes, hcompleted⟩ := readRing_spec hring r mapped status
  have hreturned : (s.readRing r mapped status).returned =
      s.returned ++ s.readBytes r mapped := by
    simp [State.returned, hcompleted]
  calc
    (s.readRing r mapped status).returned ++ (s.readRing r mapped status).unread
      = s.returned ++ ((s.readBytes r mapped ++
          (s.readRing r mapped status).readRingBuffer.contents) ++
          s.arrived.flatMap (·.readBuffer)) := by
        simp only [hreturned, State.unread, List.append_assoc]
        rfl
    _ = s.returned ++ s.unread := by rw [hbytes, State.unread]
    _ = s.received := h

theorem of_nextRead {b : Bool} {r : ReadRequest} {t : State} (h : s.Accounted)
    (hc : s.control.inHand = none) (hnext : NextRead s b r t) :
    t.Accounted ∧ t.control.inHand = none := by
  cases hnext <;> exact ⟨h.of_goto hc hc rfl rfl rfl rfl, hc⟩

theorem thread (h : s.Accounted) (hbuffer : s.Buffered) (hclears : s.control.clears = false)
    (hs : s.threadStep d ok = some s') : s'.Accounted := by
  cases threadStep_cases hs with
  | completion hc hstep => exact h.completionCase hc hstep
  | copy hc => exact h.copyCase hbuffer hc
  | completionDone hc =>
    have hhand : s.control.inHand = none := by rw [hc]; rfl
    unfold State.completionDoneStep
    dsimp only
    split <;> exact h.of_goto hhand rfl rfl rfl rfl rfl
  | arriveClosed hc =>
    have hhand : s.control.inHand = none := by rw [hc]; rfl
    exact h.of_goto hhand rfl rfl rfl rfl rfl
  | arrive hc hstep =>
    have hhand : s.control.inHand = none := by rw [hc]; rfl
    cases hstep with
    | bypass | drain => exact h.of_goto hhand rfl rfl rfl rfl rfl
    | nothing | keep | forwarded =>
      exact h.of_goto hhand (startResend_inHand _) rfl rfl rfl rfl
    | atOnce =>
      refine h.of_goto hhand (startResend_inHand _) rfl rfl ?_ rfl
      simp [State.returned, State.startResend]
  | drain hc hstep =>
    have hhand : s.control.inHand = none := by rw [hc]; rfl
    cases hstep with
    | empty | noRead => exact h.of_goto hhand (startResend_inHand _) rfl rfl rfl rfl
    | @notified r t status hnext | @served r t status hnext =>
      obtain ⟨ht, hthand⟩ := h.of_nextRead hhand (nextRead_cases hnext)
      have hring : t.readRingBuffer.Inv := (nextRead_ring (nextRead_cases hnext)).symm ▸ hbuffer.ring
      exact (ht.readRing hring r ok status).of_goto hthand hthand rfl rfl rfl rfl
  | timeout hc hstep =>
    have hhand : s.control.inHand = none := by rw [hc]; rfl
    cases hstep with
    | empty => exact h.of_goto hhand rfl rfl rfl rfl rfl
    | @partialRead r rest status =>
      have ht : State.Accounted { s with timeoutReadQueue := rest } :=
        h.of_goto hhand hhand rfl rfl rfl rfl
      exact (ht.readRing hbuffer.ring r ok status).of_goto hhand rfl rfl rfl rfl rfl
    | timedOut =>
      refine h.of_goto hhand rfl rfl rfl ?_ rfl
      simp [State.returned]
  | sends hc hstep =>
    have hhand : s.control.inHand = none := inHand_of_sending (.inr (.inr hc))
    cases hstep with
    | goes l n c hl hc' => exact h.of_goto hhand (inHand_of_sending hc') rfl hl rfl rfl
    | @finish k => cases k <;> exact h.of_goto hhand rfl rfl rfl rfl rfl
  | stopTarget hc | clearRing hc | cleared hc => simp [hc, Control.clears] at hclears

theorem wake (h : s.Accounted) (hc : s.control = .wait) {e : Event} (he : e.disturbs = false) :
    (s.wake e).Accounted := by
  have hhand : s.control.inHand = none := by rw [hc]; rfl
  cases e with
  | fileClose | clearBuffer | d0Exit => cases he
  | deviceRemove =>
    refine h.of_goto hhand rfl rfl rfl ?_ rfl
    simp [State.returned, State.wake, State.purgeReadQueue, List.flatMap_map]
  | d0Entry =>
    simp only [State.wake]
    split <;> exact h.of_goto hhand rfl rfl rfl rfl rfl
  | _ => exact h.of_goto hhand rfl rfl rfl rfl rfl

theorem step {op : Op} (h : s.Accounted) (hs : s.step d op = some s') (hbuffer : s.Buffered)
    (hsafe : Undisturbed s) (hop : op.undisturbed = true) : s'.Accounted := by
  cases step_cases hs with
  | @completes u p =>
    -- the data joins the end of the completion list
    have hstream := congrArg (· ++ (p.urb u).readBuffer) h
    simpa [State.Accounted, State.unread, State.arrived, UrbLists.complete, UrbList.insertTail,
      State.returned] using hstream
  | @wake e hc hset =>
    refine h.wake hc (Bool.eq_false_of_not_eq_true fun he => ?_)
    simp [hsafe.events e he] at hset
  | thread hstep => exact h.thread hbuffer hsafe.control hstep
  | cancelled | purgeReads | purgeBoth => cases hop
  | arrivesFirst | arrivesNext | expires | dpc | setTimeout | setEvent => exact h

end State.Accounted

/-! ## The order of the reads -/

/-- A read is completed after all reads that came before it to the read queue. -/
structure Served (s : State) : Prop where
  bound : ∀ c ∈ s.completed, c.request.seq < s.submitted
  later : ∀ c ∈ s.completed, ∀ r ∈ s.readQueue, c.request.seq < r.seq

namespace Served

/-- One more read is completed, and it came before all reads of the read queue. -/
theorem completes (h : Served s) {c : ReadCompletion}
    (hcompleted : s'.completed = s.completed ++ [c])
    (hsubmitted : s'.submitted = s.submitted) (hread : ∀ r ∈ s'.readQueue, r ∈ s.readQueue)
    (hbound : c.request.seq < s.submitted) (hlater : ∀ r ∈ s'.readQueue, c.request.seq < r.seq) :
    Served s' where
  bound c' hc' := by
    rw [hcompleted, List.mem_append, List.mem_singleton] at hc'
    rw [hsubmitted]
    rcases hc' with hc' | rfl
    · exact h.bound c' hc'
    · exact hbound
  later c' hc' r hr := by
    rw [hcompleted, List.mem_append, List.mem_singleton] at hc'
    rcases hc' with hc' | rfl
    · exact h.later c' hc' r (hread r hr)
    · exact hlater r hr

theorem thread (h : Served s) (hordered : Ordered s) (hs : s.threadStep d ok = some s') :
    Served s' := by
  obtain ⟨hmove, hsubmitted⟩ := readMove_thread hs
  cases hmove with
  | none hread htimeout hcompleted =>
    refine ⟨?_, ?_⟩
    · rw [hcompleted, hsubmitted]
      exact h.bound
    · rw [hcompleted, hread]
      exact h.later
  | forward hread htimeout hread' htimeout' hcompleted =>
    refine ⟨?_, ?_⟩
    · rw [hcompleted, hsubmitted]
      exact h.bound
    · rw [hcompleted, hread']
      exact fun c hc r hr => h.later c hc r (hread ▸ List.mem_cons_of_mem _ hr)
  | @fromReadQueue c rest hread hread' htimeout' hcompleted =>
    have hmem : c.request ∈ s.queued := by simp [State.queued, hread]
    refine h.completes hcompleted hsubmitted (fun r hr => ?_) (hordered.bound _ hmem) fun r hr => ?_
    · exact hread ▸ List.mem_cons_of_mem _ (hread' ▸ hr)
    · exact hordered.lt_of_readQueue hread (hread' ▸ hr)
  | @fromTimeoutQueue c rest htimeout hread' htimeout' hcompleted =>
    have hmem : c.request ∈ s.timeoutReadQueue := by simp [htimeout]
    refine h.completes hcompleted hsubmitted (fun r hr => hread' ▸ hr)
      (hordered.bound _ (List.mem_append_left _ hmem)) fun r hr => ?_
    exact hordered.lt_of_mem hmem (hread' ▸ hr)

theorem step {op : Op} (h : Served s) (hs : s.step d op = some s') (hordered : Ordered s)
    (hop : op.undisturbed = true) : Served s' := by
  have harrives : ∀ length, ∀ c ∈ s.completed, ∀ r ∈ s.readQueue ++ [⟨s.submitted, length⟩],
      c.request.seq < r.seq := by
    intro length c hc r hr
    rw [List.mem_append, List.mem_singleton] at hr
    rcases hr with hr | rfl
    · exact h.later c hc r hr
    · exact h.bound c hc
  cases step_cases hs with
  | arrivesFirst | arrivesNext =>
    exact ⟨fun c hc => Nat.lt_succ_of_lt (h.bound c hc), harrives _⟩
  | @wake e hc hset =>
    cases e with
    | deviceRemove =>
      refine ⟨fun c hc => ?_, fun c hc r hr => by simp [State.wake, State.purgeReadQueue] at hr⟩
      rcases List.mem_append.mp hc with hc | hc
      · exact h.bound c hc
      · obtain ⟨r, hr, rfl⟩ := List.mem_map.mp hc
        exact hordered.bound r (List.mem_append_right _ hr)
    | fileClose =>
      refine ⟨fun c hc => ?_, fun c hc r hr => ?_⟩
      · rcases List.mem_append.mp hc with hc | hc
        · exact h.bound c hc
        · obtain ⟨q, hq, rfl⟩ := List.mem_map.mp hc
          exact hordered.bound q (List.mem_append_left _ hq)
      · rcases List.mem_append.mp hc with hc | hc
        · exact h.later c hc r hr
        · obtain ⟨q, hq, rfl⟩ := List.mem_map.mp hc
          exact hordered.lt_of_mem hq hr
    | d0Entry =>
      simp only [State.wake]
      split <;> exact ⟨h.bound, h.later⟩
    | _ => exact ⟨h.bound, h.later⟩
  | thread hstep => exact h.thread hordered hstep
  | cancelled | purgeReads | purgeBoth => cases hop
  | completes | expires | dpc | setTimeout | setEvent => exact ⟨h.bound, h.later⟩

end Served

/-- Without a gap between bytes to wait for, reads are completed as they were submitted. After the
thread has ended no read is completed any more. -/
structure AsSubmitted (s : State) : Prop where
  sorted : s.completed.Pairwise fun a b => a.request.seq < b.request.seq
  later : s.control ≠ .exited → ∀ c ∈ s.completed, ∀ r ∈ s.queued, c.request.seq < r.seq
  mode : s.readTimeout.bUseReadInterval = false
  control : s.control ≠ .drain true

namespace AsSubmitted

theorem returned_eq (h : AsSubmitted s) : s.returnedAsSubmitted = s.returned := by
  have hsorted : s.completed.Pairwise fun a b => a.request.seq ≤ b.request.seq :=
    h.sorted.imp Nat.le_of_lt
  rw [State.returnedAsSubmitted, hsorted.insertionSort_eq, State.returned]

/-- The next read is completed. -/
theorem completes (h : AsSubmitted s) {c : ReadCompletion} {rest : List ReadRequest}
    (hordered : Ordered s) (hc : s.control ≠ .exited) (hqueued : s.queued = c.request :: rest)
    (hcompleted : s'.completed = s.completed ++ [c]) (hqueued' : s'.queued = rest)
    (hmode : s'.readTimeout.bUseReadInterval = false) (hcontrol : s'.control ≠ .drain true) :
    AsSubmitted s' := by
  have hlast : ∀ a ∈ s.completed, a.request.seq < c.request.seq := fun a ha =>
    h.later hc a ha c.request (by simp [hqueued])
  have hsorted := hordered.sorted
  rw [hqueued, List.pairwise_cons] at hsorted
  refine ⟨?_, fun _ a ha r hr => ?_, hmode, hcontrol⟩
  · rw [hcompleted, List.pairwise_append]
    refine ⟨h.sorted, List.pairwise_singleton _ _, fun a ha b hb => ?_⟩
    obtain rfl : b = c := by simpa using hb
    exact hlast a ha
  · rw [hcompleted, List.mem_append, List.mem_singleton] at ha
    rw [hqueued'] at hr
    rcases ha with ha | rfl
    · exact h.later hc a ha r (by simp [hqueued, hr])
    · exact hsorted.1 r hr

/-- The completed reads stay, and no read joins the queues. -/
theorem of_same (h : AsSubmitted s) (hcompleted : s'.completed = s.completed)
    (hqueued : ∀ r ∈ s'.queued, r ∈ s.queued) (hmode : s'.readTimeout.bUseReadInterval = false)
    (hexited : s'.control ≠ .exited → s.control ≠ .exited) (hcontrol : s'.control ≠ .drain true) :
    AsSubmitted s' where
  sorted := hcompleted ▸ h.sorted
  later hc c hcmem r hr := h.later (hexited hc) c (hcompleted ▸ hcmem) r (hqueued r hr)
  mode := hmode
  control := hcontrol

end AsSubmitted

theorem ne_drain_of_sending {c : Control} (hc : c = .wait ∨ c = .emptyFreeList ∨ c.sending = true) :
    c ≠ .drain true := by
  rintro rfl
  simp [Control.sending] at hc

theorem startResend_ne_drain (s : State) : s.startResend.control ≠ .drain true := by
  unfold State.startResend
  split <;> simp

/-- The drain loop skips the timeout queue only when a gap is to be waited for. -/
theorem mode_thread (hmode : s.readTimeout.bUseReadInterval = false)
    (hcontrol : s.control ≠ .drain true) (hs : s.threadStep d ok = some s') :
    s'.readTimeout = s.readTimeout ∧ s'.control ≠ .drain true := by
  cases threadStep_cases hs with
  | completion hc hstep =>
    cases hstep with
    | recycle => exact ⟨rfl, hcontrol⟩
    | _ => exact ⟨rfl, by simp⟩
  | copy hc =>
    unfold State.copyStep
    dsimp only
    split <;> exact ⟨rfl, by simp⟩
  | completionDone hc =>
    unfold State.completionDoneStep
    dsimp only
    split <;> exact ⟨rfl, by simp⟩
  | arrive hc hstep =>
    cases hstep with
    | nothing | forwarded | atOnce | keep => exact ⟨rfl, startResend_ne_drain _⟩
    | bypass hinterval => simp [State.useReadInterval, hmode] at hinterval
    | drain => exact ⟨rfl, by simp⟩
  | drain hc hstep =>
    cases hstep with
    | empty | noRead => exact ⟨rfl, startResend_ne_drain _⟩
    | notified status hnext | served status hnext =>
      cases nextRead_cases hnext <;> exact ⟨rfl, hcontrol⟩
  | timeout hc hstep => cases hstep <;> exact ⟨rfl, by simp [State.readRing]⟩
  | sends hc hstep =>
    cases hstep with
    | goes l n c hl hc' => exact ⟨rfl, ne_drain_of_sending hc'⟩
    | @finish k => cases k <;> exact ⟨rfl, by simp [State.finishSend]⟩
  | @cleared k =>
    cases k <;> exact ⟨rfl, by simp [State.finishClear, State.startSendReadUrbs]⟩
  | arriveClosed | stopTarget | clearRing => exact ⟨rfl, by simp⟩

namespace AsSubmitted

theorem thread (h : AsSubmitted s) (hordered : Ordered s) (hs : s.threadStep d ok = some s') :
    AsSubmitted s' := by
  have hlive : s.control ≠ .exited := fun hc => by simp [State.threadStep, hc] at hs
  obtain ⟨htimeouts, hcontrol⟩ := mode_thread h.mode h.control hs
  have hmode : s'.readTimeout.bUseReadInterval = false := htimeouts ▸ h.mode
  cases (readMove_thread hs).1 with
  | none hread htimeout hcompleted =>
    refine h.of_same hcompleted (fun r hr => ?_) hmode (fun _ => hlive) hcontrol
    simpa [State.queued, hread, htimeout] using hr
  | forward hread htimeout hread' htimeout' hcompleted =>
    refine h.of_same hcompleted (fun r hr => ?_) hmode (fun _ => hlive) hcontrol
    simpa [State.queued, hread, htimeout, hread', htimeout'] using hr
  | @fromReadQueue c rest hread hread' htimeout' hcompleted hbypass =>
    have htimeout : s.timeoutReadQueue = [] := hbypass.resolve_right h.control
    have hqueued : s.queued = c.request :: rest := by simp [State.queued, htimeout, hread]
    have hqueued' : s'.queued = rest := by simp [State.queued, htimeout', htimeout, hread']
    exact h.completes hordered hlive hqueued hcompleted hqueued' hmode hcontrol
  | @fromTimeoutQueue c rest htimeout hread' htimeout' hcompleted =>
    have hqueued : s.queued = c.request :: (rest ++ s.readQueue) := by
      simp [State.queued, htimeout]
    have hqueued' : s'.queued = rest ++ s.readQueue := by simp [State.queued, htimeout', hread']
    exact h.completes hordered hlive hqueued hcompleted hqueued' hmode hcontrol

/-- The reads that are purged when the device is removed are the last ones that are completed. -/
theorem removed (h : AsSubmitted s) (hordered : Ordered s) (hc : s.control ≠ .exited) :
    AsSubmitted (s.wake .deviceRemove) where
  sorted := by
    have hread : s.readQueue.Pairwise fun a b => a.seq < b.seq :=
      hordered.sorted.sublist (List.sublist_append_right ..)
    refine List.pairwise_append.mpr ⟨h.sorted, List.pairwise_map.mpr hread, fun a ha b hb => ?_⟩
    obtain ⟨r, hr, rfl⟩ := List.mem_map.mp hb
    exact h.later hc a ha r (List.mem_append_right _ hr)
  later hexited := absurd rfl hexited
  mode := h.mode
  control := by simp [State.wake]

theorem wake (h : AsSubmitted s) (hordered : Ordered s) (hc : s.control = .wait) {e : Event}
    (he : e.disturbs = false) : AsSubmitted (s.wake e) := by
  have hlive : s.control ≠ .exited := by simp [hc]
  cases e with
  | deviceRemove => exact h.removed hordered hlive
  | fileClose | clearBuffer | d0Exit => cases he
  | d0Entry =>
    simp only [State.wake]
    split <;> exact h.of_same rfl (fun _ => id) h.mode (fun _ => hlive)
      (by simp [State.startSendReadUrbs, State.finishSend])
  | _ =>
    exact h.of_same rfl (fun _ => id) h.mode (fun _ => hlive)
      (by simp [State.wake, State.startSendReadUrbs])

theorem step {op : Op} (h : AsSubmitted s) (hs : s.step d op = some s') (hordered : Ordered s)
    (hserved : Served s) (hsafe : Undisturbed s) (hop : op.undisturbed = true)
    (hinterval : op.noInterval = true) : AsSubmitted s' := by
  have harrives : ∀ length, s.control ≠ .exited → ∀ c ∈ s.completed,
      ∀ r ∈ s.timeoutReadQueue ++ (s.readQueue ++ [⟨s.submitted, length⟩]),
        c.request.seq < r.seq := by
    intro length hc c hcmem r hr
    rw [← List.append_assoc, List.mem_append, List.mem_singleton] at hr
    rcases hr with hr | rfl
    · exact h.later hc c hcmem r hr
    · exact hserved.bound c hcmem
  cases step_cases hs with
  | arrivesFirst | arrivesNext => exact ⟨h.sorted, harrives _, h.mode, h.control⟩
  | setTimeout =>
    exact h.of_same rfl (fun _ => id) (by simpa [Op.noInterval] using hinterval) id h.control
  | @wake e hc hset =>
    refine h.wake hordered hc (Bool.eq_false_of_not_eq_true fun he => ?_)
    simp [hsafe.events e he] at hset
  | thread hstep => exact h.thread hordered hstep
  | cancelled | purgeReads | purgeBoth => cases hop
  | completes | expires | dpc | setEvent =>
    exact h.of_same rfl (fun _ => id) h.mode id h.control

end AsSubmitted

/-! ## Runs -/

/-- No byte is lost, duplicated or reordered on its way to the reads, and a read gets its bytes
after all reads that came before it to the read queue. Without a gap to wait for, that is the order
of submission. -/
theorem readThread_stream (d : VendorConfig) (n : Nat) (pBuffer : Nat → UInt8) (capacity : Nat)
    (ops : List Op) (hops : ∀ op ∈ ops, op.undisturbed = true) :
    ∀ s ∈ (readThread d).visits (setupState n pBuffer capacity) ops,
      s.returned ++ s.unread = s.received ∧
        (∀ c ∈ s.completed, ∀ r ∈ s.readQueue, c.request.seq < r.seq) ∧
        ((∀ op ∈ ops, op.noInterval = true) → s.returnedAsSubmitted <+: s.received) := by
  let Kept (s : State) : Prop :=
    s.Buffered ∧ Undisturbed s ∧ s.Accounted ∧ Ordered s ∧ Served s
  have hkept : ∀ s op s' (o : Unit), Kept s → op.undisturbed = true →
      readThread d s op = some (s', o) → Kept s' := by
    rintro s op s' o ⟨hbuffer, hsafe, hbytes, hordered, hserved⟩ hop hstep
    have hstep : s.step d op = some s' := step_of_readThread hstep
    exact ⟨hbuffer.step hstep, hsafe.step hop hstep, hbytes.step hstep hbuffer hsafe hop,
      hordered.step hstep, hserved.step hstep hordered hop⟩
  have hsetup : Kept (setupState n pBuffer capacity) :=
    ⟨setupState_buffered .., ⟨fun _ _ => rfl, rfl⟩, by simp [State.Accounted, setupState,
      Control.inHand, State.returned, State.unread, State.arrived, UrbLists.setup],
      .of_noRead rfl, ⟨by simp [setupState], by simp [setupState]⟩⟩
  have hall : ∀ s op s' (o : Unit), Kept s ∧ AsSubmitted s →
      op.undisturbed = true ∧ op.noInterval = true → readThread d s op = some (s', o) →
      Kept s' ∧ AsSubmitted s' := by
    rintro s op s' o ⟨hs, hsubmitted⟩ ⟨hop, hgap⟩ hstep
    have hsafe : Undisturbed s := hs.2.1
    have hordered : Ordered s := hs.2.2.2.1
    have hserved : Served s := hs.2.2.2.2
    exact ⟨hkept s op s' o hs hop hstep,
      hsubmitted.step (step_of_readThread hstep) hordered hserved hsafe hop hgap⟩
  intro s hs
  obtain ⟨-, -, hbytes, -, hserved⟩ := visits_all hkept hsetup hops s hs
  refine ⟨hbytes, hserved.later, fun hinterval => ?_⟩
  have hfirst : AsSubmitted (setupState n pBuffer capacity) :=
    ⟨List.Pairwise.nil, by simp [setupState], rfl, by simp [setupState]⟩
  obtain ⟨-, hsubmitted⟩ := visits_all hall ⟨hsetup, hfirst⟩
    (fun op hop => ⟨hops op hop, hinterval op hop⟩) s hs
  rw [hsubmitted.returned_eq]
  exact ⟨s.unread, hbytes⟩

/-- Two reads and three bytes. -/
def overlappedOps : List Op :=
  [.readArrives 2, .readArrives 2, .urbCompletes 0 ⟨.success, 3, some 3, fun i => [1, 2, 3][i]!⟩,
    .wake .requestCompletion, .thread true, .thread true, .thread true, .thread true,
    .wake .requestArrive, .thread true, .thread true, .thread true]

/-- The first read gets two bytes, and the second the rest. -/
theorem readThread_stream_overlapped :
    ∃ s ∈ (readThread ⟨2000, 10, 4⟩).visits (setupState 3 (fun _ => 0) 16)
        (openOps.dropLast ++ .setTimeout ⟨0, 0, 100⟩ :: overlappedOps),
      s.returned ++ s.unread = s.received ∧
        (∀ c ∈ s.completed, ∀ r ∈ s.readQueue, c.request.seq < r.seq) ∧
        s.returnedAsSubmitted <+: s.received ∧ s.returned = [1, 2, 3] := by
  have hlast := List.getLast_mem (List.ne_nil_of_mem (Machine.start_mem_visits
    (M := readThread ⟨2000, 10, 4⟩) (setupState 3 (fun _ => 0) 16)
    (openOps.dropLast ++ .setTimeout ⟨0, 0, 100⟩ :: overlappedOps)))
  obtain ⟨hstream, hlater, hprefix⟩ :=
    readThread_stream ⟨2000, 10, 4⟩ 3 (fun _ => 0) 16 _ (by decide +kernel) _ hlast
  exact ⟨_, hlast, hstream, hlater, hprefix (by decide +kernel), by decide +kernel⟩

/-- A read of four bytes waits for a gap. A read of one byte comes after two bytes did and gets the
first of them. The gap passes after a third byte. -/
def overtakenOps : List Op :=
  [.readArrives 4, .wake .requestArrive, .thread true, .thread true,
    .urbCompletes 0 ⟨.success, 2, some 2, fun i => [1, 2][i]!⟩, .wake .requestCompletion,
    .thread true, .thread true, .thread true, .thread true, .readArrives 1, .wake .requestArrive,
    .thread true, .thread true, .thread true, .thread true, .thread true, .thread true,
    .thread true, .thread true, .urbCompletes 1 ⟨.success, 1, some 1, fun _ => 3⟩,
    .wake .requestCompletion, .thread true, .thread true, .thread true, .thread true,
    .timerExpires, .timeoutDpc, .wake .requestTimeout, .thread true]

/-- The read that waits for a gap gets the second byte and the third, and the later read the
first. -/
theorem readThread_stream_overtaken :
    (∀ op ∈ openOps ++ overtakenOps, op.undisturbed = true) ∧
      ¬ ∀ s ∈ (readThread ⟨2000, 10, 4⟩).visits (setupState 3 (fun _ => 0) 16)
          (openOps ++ overtakenOps), s.returnedAsSubmitted <+: s.received := by
  refine ⟨by decide +kernel, fun hall => ?_⟩
  have hprefix := hall _ (List.getLast_mem (List.ne_nil_of_mem (Machine.start_mem_visits _ _)))
  revert hprefix
  decide +kernel

end WdfSerial
