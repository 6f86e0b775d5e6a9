-- SUMMARY: How reads move through the two queues of the serial driver, in the order of their submission.
import QcomUsb.WdfSerial.ReadSteps

/-!
# The order of the reads

A read goes from the read queue to the timeout queue, when that is empty, and is
completed from either. The queues keep the order of submission whatever the thread does.
-/

namespace WdfSerial

/-- The reads of both queues, the next one first. -/
def State.queued (s : State) : List ReadRequest := s.timeoutReadQueue ++ s.readQueue

/-- What a step of the thread does to the reads. -/
inductive ReadMove (s s' : State) : Prop
  | none (hread : s'.readQueue = s.readQueue) (htimeout : s'.timeoutReadQueue = s.timeoutReadQueue)
      (hcompleted : s'.completed = s.completed)
  | forward {r : ReadRequest} {rest : List ReadRequest} (hread : s.readQueue = r :: rest)
      (htimeout : s.timeoutReadQueue = []) (hread' : s'.readQueue = rest)
      (htimeout' : s'.timeoutReadQueue = [r]) (hcompleted : s'.completed = s.completed)
  | fromReadQueue {c : ReadCompletion} {rest : List ReadRequest}
      (hread : s.readQueue = c.request :: rest) (hread' : s'.readQueue = rest)
      (htimeout' : s'.timeoutReadQueue = s.timeoutReadQueue)
      (hcompleted : s'.completed = s.completed ++ [c])
      (hmode : s.timeoutReadQueue = [] ∨ s.control = .drain true)
  | fromTimeoutQueue {c : ReadCompletion} {rest : List ReadRequest}
      (htimeout : s.timeoutReadQueue = c.request :: rest) (hread' : s'.readQueue = s.readQueue)
      (htimeout' : s'.timeoutReadQueue = rest) (hcompleted : s'.completed = s.completed ++ [c])

variable {d : VendorConfig} {s s' : State} {ok : Bool}

theorem ReadMove.of_nextRead {b : Bool} {r : ReadRequest} {t : State} (hc : s.control = .drain b)
    (h : NextRead s b r t) (hread : s'.readQueue = t.readQueue)
    (htimeout : s'.timeoutReadQueue = t.timeoutReadQueue) {c : ReadCompletion}
    (hrequest : c.request = r) (hcompleted : s'.completed = t.completed ++ [c]) :
    ReadMove s s' := by
  subst hrequest
  cases h with
  | fromTimeoutQueue hinterval hqueue => exact .fromTimeoutQueue hqueue hread htimeout hcompleted
  | fromReadQueue hqueue hmode =>
    refine .fromReadQueue hqueue hread htimeout hcompleted ?_
    cases b with
    | true => exact .inr hc
    | false => exact .inl (hmode rfl)

/-- A step of the thread moves at most one read. -/
theorem readMove_thread (hs : s.threadStep d ok = some s') :
    ReadMove s s' ∧ s'.submitted = s.submitted := by
  cases threadStep_cases hs with
  | completion hc hstep => cases hstep <;> exact ⟨.none rfl rfl rfl, rfl⟩
  | copy hc =>
    unfold State.copyStep
    dsimp only
    split <;> exact ⟨.none rfl rfl rfl, rfl⟩
  | completionDone hc =>
    unfold State.completionDoneStep
    dsimp only
    split <;> exact ⟨.none rfl rfl rfl, rfl⟩
  | arrive hc hstep =>
    cases hstep with
    | nothing | keep | bypass | drain => exact ⟨.none rfl rfl rfl, rfl⟩
    | forwarded timer hempty htimeout hread =>
      exact ⟨.forward hread htimeout rfl rfl rfl, rfl⟩
    | @atOnce r rest timer status hempty htimeout hread =>
      exact ⟨.fromReadQueue (c := ⟨r, status, []⟩) hread rfl rfl rfl (.inl htimeout), rfl⟩
  | drain hc hstep =>
    cases hstep with
    | empty | noRead => exact ⟨.none rfl rfl rfl, rfl⟩
    | notified status hnext | served status hnext =>
      have hnext := nextRead_cases hnext
      refine ⟨.of_nextRead hc hnext rfl rfl rfl rfl, ?_⟩
      cases hnext <;> rfl
  | timeout hc hstep =>
    cases hstep with
    | empty => exact ⟨.none rfl rfl rfl, rfl⟩
    | @partialRead r rest status htimeout =>
      exact ⟨.fromTimeoutQueue (c := ⟨r, _, _⟩) htimeout rfl rfl rfl, rfl⟩
    | @timedOut r rest htimeout =>
      exact ⟨.fromTimeoutQueue (c := ⟨r, .timeout, []⟩) htimeout rfl rfl rfl, rfl⟩
  | sends hc hstep =>
    cases hstep with
    | goes => exact ⟨.none rfl rfl rfl, rfl⟩
    | @finish k => cases k <;> exact ⟨.none rfl rfl rfl, rfl⟩
  | @cleared k hc => cases k <;> exact ⟨.none rfl rfl rfl, rfl⟩
  | arriveClosed | stopTarget | clearRing => exact ⟨.none rfl rfl rfl, rfl⟩

theorem ReadMove.queued_sublist (h : ReadMove s s') : s'.queued.Sublist s.queued := by
  unfold State.queued
  cases h with
  | none hread htimeout => rw [hread, htimeout]
  | forward hread htimeout hread' htimeout' => simp [hread, htimeout, hread', htimeout']
  | fromReadQueue hread hread' htimeout' =>
    rw [hread, hread', htimeout']
    exact (List.Sublist.refl _).append (List.sublist_cons_self ..)
  | fromTimeoutQueue htimeout hread' htimeout' =>
    rw [htimeout, hread', htimeout']
    exact List.sublist_cons_self ..

/-- The queues hold reads in the order of their submission. -/
structure Ordered (s : State) : Prop where
  sorted : s.queued.Pairwise fun a b => a.seq < b.seq
  bound : ∀ r ∈ s.queued, r.seq < s.submitted

namespace Ordered

theorem of_sublist (h : Ordered s) (hsub : s'.queued.Sublist s.queued)
    (hsubmitted : s'.submitted = s.submitted) : Ordered s' where
  sorted := h.sorted.sublist hsub
  bound r hr := hsubmitted ▸ h.bound r (hsub.subset hr)

theorem of_noRead (hqueued : s.queued = []) : Ordered s := ⟨by simp [hqueued], by simp [hqueued]⟩

/-- A new read has the highest number. -/
theorem arrives (h : Ordered s) {length : Nat}
    (hqueued : s'.queued = s.queued ++ [⟨s.submitted, length⟩])
    (hsubmitted : s'.submitted = s.submitted + 1) : Ordered s' where
  sorted := by
    rw [hqueued, List.pairwise_append]
    refine ⟨h.sorted, List.pairwise_singleton _ _, fun a ha b hb => ?_⟩
    obtain rfl : b = ⟨s.submitted, length⟩ := by simpa using hb
    exact h.bound a ha
  bound r hr := by
    rw [hqueued] at hr
    rw [hsubmitted]
    rcases List.mem_append.mp hr with hold | hnew
    · exact Nat.lt_succ_of_lt (h.bound r hold)
    · obtain rfl : r = ⟨s.submitted, length⟩ := by simpa using hnew
      exact Nat.lt_succ_self _

/-- A read of the timeout queue came before those of the read queue. -/
theorem lt_of_mem (h : Ordered s) {a b : ReadRequest} (ha : a ∈ s.timeoutReadQueue)
    (hb : b ∈ s.readQueue) : a.seq < b.seq := by
  have hsorted := h.sorted
  rw [State.queued, List.pairwise_append] at hsorted
  exact hsorted.2.2 a ha b hb

theorem lt_of_readQueue (h : Ordered s) {a b : ReadRequest} {rest : List ReadRequest}
    (hread : s.readQueue = a :: rest) (hb : b ∈ rest) : a.seq < b.seq := by
  have hsorted := h.sorted
  rw [State.queued, List.pairwise_append, hread, List.pairwise_cons] at hsorted
  exact hsorted.2.1.1 b hb

theorem wake (h : Ordered s) (e : Event) : Ordered (s.wake e) := by
  have hsame : ∀ t : State, t.queued = s.queued → t.submitted = s.submitted → Ordered t :=
    fun t hq hn => h.of_sublist (hq ▸ List.Sublist.refl _) hn
  cases e with
  | deviceRemove =>
    refine h.of_sublist ?_ rfl
    simp [State.queued, State.wake, State.purgeReadQueue]
  | fileClose =>
    refine h.of_sublist ?_ rfl
    simp [State.queued, State.wake, State.purgeTimeoutReadQueue]
  | d0Entry =>
    simp only [State.wake]
    split <;> exact hsame _ rfl rfl
  | _ => exact hsame _ rfl rfl

theorem step {op : Op} (h : Ordered s) (hs : s.step d op = some s') : Ordered s' := by
  cases step_cases hs with
  | arrivesFirst | arrivesNext => exact h.arrives (List.append_assoc ..).symm rfl
  | cancelled hr => exact h.of_sublist (List.erase_sublist.append List.erase_sublist) rfl
  | purgeReads => exact h.of_sublist (by simp [State.queued, State.purgeReadQueue]) rfl
  | purgeBoth htimeout =>
    exact h.of_sublist (by simp [State.queued, State.purgeReadQueue, htimeout]) rfl
  | wake hc he => exact h.wake _
  | thread hstep =>
    obtain ⟨hmove, hsubmitted⟩ := readMove_thread hstep
    exact h.of_sublist hmove.queued_sublist hsubmitted
  | completes | expires | dpc | setTimeout | setEvent =>
    exact h.of_sublist (List.Sublist.refl _) rfl

end Ordered

end WdfSerial
