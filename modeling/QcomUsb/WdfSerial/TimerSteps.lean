-- SUMMARY: What each step of the read thread does to the read timer, its DPC and its event, and to the reads that wait.
import QcomUsb.WdfSerial.ReadSteps

/-!
# Steps and the read timer

One timer, one DPC and one event serve all reads. Only two cases of the thread set the
timer, only the DPC sets the event, and only the timeout case completes a read with a timeout.
-/

namespace WdfSerial

/-! ## Where the timer is set -/

/-- The cases in which `QCRD_StartReadTimeout` waits for ever. -/
def ReadTimeoutType.isNoTimeout : ReadTimeoutType → Bool
  | .case1 | .case2 | .case7 => true
  | _ => false

/-- A step calls `KeSetTimer` on `ReadTimer`: `QCRD_StartReadTimeout` does for a read it starts,
just before the read is forwarded, and the completion case does for the gap. -/
def State.setsTimer (s : State) : Op → Bool
  | .thread _ =>
    match s.control with
    | .arrive =>
      match s.timeoutReadQueue, s.readQueue with
      | [], r :: _ =>
        s.bDeviceOpened && s.bDeviceAwaken && s.bytesUsed == 0 && !s.useReadInterval &&
          startReadTimeout s.timeouts s.readTimeout.ucTimeoutType r.length == some true
      | _, _ => false
    | .completionDone =>
      s.bDeviceAwaken && s.readTimeout.bUseReadInterval && !s.timeoutReadQueue.isEmpty &&
        decide (0 < s.timeouts.readIntervalTimeout)
    | _ => false
  | _ => false

/-- The arrive case forwards the read at the head of the read queue to the timeout queue. -/
def State.forwards (s : State) : Op → Bool
  | .thread true =>
    match s.control with
    | .arrive =>
      match s.timeoutReadQueue, s.readQueue with
      | [], r :: _ =>
        s.bDeviceOpened && s.bDeviceAwaken && s.bytesUsed == 0 &&
          (s.useReadInterval ||
            (startReadTimeout s.timeouts s.readTimeout.ucTimeoutType r.length).isSome)
      | _, _ => false
    | _ => false
  | _ => false

/-! ## What a step does to the timer -/

variable {d : VendorConfig} {s s' : State} {ok : Bool}

/-- What a step does to the timeout queue, the timer, the DPC and the event. -/
structure TimerStep (s : State) (op : Op) (s' : State) : Prop where
  queue : s'.timeoutReadQueue ⊆ s.timeoutReadQueue ∨
    s.forwards op = true ∧ s.timeoutReadQueue = [] ∧ ∃ r, s'.timeoutReadQueue = [r]
  timer : s'.readTimer = true → s.readTimer = true ∨ s.setsTimer op = true
  dpc : s'.readTimeoutDpc = true → s.readTimeoutDpc = true ∨ op = .timerExpires
  event : s'.events .requestTimeout = true → s.events .requestTimeout = true ∨ op = .timeoutDpc
  control : s'.control = .timeout → s.control = .timeout ∨ op = .wake .requestTimeout
  completed : ∃ cs, s'.completed = s.completed ++ cs ∧ ∀ c ∈ cs, c.status = .timeout →
    s.control = .timeout ∧ c.request ∈ s.timeoutReadQueue
  config : s'.readTimeout = s.readTimeout ∨ ∃ t, op = .setTimeout t ∧ s'.readTimeout = setTimeout t

namespace TimerStep

/-- No read is timed out between two lists of completions. -/
def NoneTimedOut (cs cs' : List ReadCompletion) : Prop :=
  ∃ new, cs' = cs ++ new ∧ ∀ c ∈ new, c.status ≠ .timeout

theorem NoneTimedOut.same (cs : List ReadCompletion) : NoneTimedOut cs cs :=
  ⟨[], (List.append_nil _).symm, fun _ hc => absurd hc List.not_mem_nil⟩

theorem NoneTimedOut.one {cs : List ReadCompletion} {c : ReadCompletion} (h : c.status ≠ .timeout) :
    NoneTimedOut cs (cs ++ [c]) :=
  ⟨[c], rfl, fun _ hc => List.mem_singleton.mp hc ▸ h⟩

/-- A step that puts no read into the timeout queue and times none out. -/
theorem of_quiet {op : Op} (hqueue : s'.timeoutReadQueue ⊆ s.timeoutReadQueue)
    (htimer : s'.readTimer = true → s.readTimer = true ∨ s.setsTimer op = true)
    (hdpc : s'.readTimeoutDpc = true → s.readTimeoutDpc = true ∨ op = .timerExpires)
    (hevent : s'.events .requestTimeout = true →
      s.events .requestTimeout = true ∨ op = .timeoutDpc)
    (hcontrol : s'.control = .timeout → s.control = .timeout ∨ op = .wake .requestTimeout)
    (hcompleted : NoneTimedOut s.completed s'.completed)
    (hconfig : s'.readTimeout = s.readTimeout ∨
      ∃ t, op = .setTimeout t ∧ s'.readTimeout = setTimeout t) : TimerStep s op s' where
  queue := .inl hqueue
  timer := htimer
  dpc := hdpc
  event := hevent
  control := hcontrol
  completed := by
    obtain ⟨cs, heq, hcs⟩ := hcompleted
    exact ⟨cs, heq, fun c hc htimeout => absurd htimeout (hcs c hc)⟩
  config := hconfig

/-- A step that leaves alone what the timer is about, and goes on with another case. -/
theorem of_same {op : Op} (hqueue : s'.timeoutReadQueue = s.timeoutReadQueue)
    (htimer : s'.readTimer = s.readTimer) (hdpc : s'.readTimeoutDpc = s.readTimeoutDpc)
    (hevent : s'.events .requestTimeout = s.events .requestTimeout)
    (hcontrol : s'.control ≠ .timeout ∨ s'.control = s.control)
    (hcompleted : s'.completed = s.completed) (hconfig : s'.readTimeout = s.readTimeout) :
    TimerStep s op s' :=
  of_quiet (hqueue ▸ List.Subset.refl _) (fun h => .inl (htimer ▸ h)) (fun h => .inl (hdpc ▸ h))
    (fun h => .inl (hevent ▸ h)) (fun h => hcontrol.elim (absurd h) fun heq => .inl (heq ▸ h))
    (hcompleted ▸ .same _) (.inl hconfig)

theorem ne_timeout_of_settled {c : Control} (h : c.settled = true) : c ≠ .timeout := by
  rintro rfl
  exact absurd h (by decide)

/-- The arrive case sets the timer where it starts a read. -/
theorem arrive_readTimer (hc : s.control = .arrive) (h : (s.arriveStep ok).readTimer = true) :
    s.readTimer = true ∨ s.setsTimer (.thread ok) = true := by
  by_contra hnone
  obtain ⟨hoff, hno⟩ := not_or.mp hnone
  have hoff : s.readTimer = false := Bool.eq_false_of_not_eq_true hoff
  rw [State.setsTimer, hc] at hno
  unfold State.arriveStep at h
  split at h
  · simp [hoff] at h
  · rename_i hopen
    obtain ⟨hopened, hawaken⟩ := not_not.mp hopen
    split at h
    · rename_i hempty
      split at h
      · rename_i r rest htimeout hread
        simp only [htimeout, hread, hopened, hawaken, hempty] at hno
        dsimp only at h
        split at h
        · cases ok <;> simp [State.startResend, State.forward, hoff] at h
        · rename_i hinterval
          split at h
          · simp [State.startResend, hoff] at h
          · rename_i armed harmed
            rw [harmed] at hno
            have hinterval : s.useReadInterval = false := Bool.eq_false_of_not_eq_true hinterval
            cases armed with
            | true => simp [hinterval] at hno
            | false => cases ok <;> simp [State.startResend, State.forward, hoff] at h
      · simp [State.startResend, hoff] at h
    · split at h
      · simp [State.startResend, hoff] at h
      · split at h <;> simp [hoff] at h

theorem arrive_completed (s : State) (ok : Bool) :
    NoneTimedOut s.completed (s.arriveStep ok).completed := by
  have hforward (t : State) (r : ReadRequest) (h : t.completed = s.completed) :
      NoneTimedOut s.completed (t.forward r ok).startResend.completed := by
    rw [← h]
    cases ok with
    | true => exact .same _
    | false => exact .one ReadStatus.noConfusion
  unfold State.arriveStep
  split
  · exact .same _
  · split
    · split
      · dsimp only
        split
        · exact hforward _ _ rfl
        · split
          · exact .one ReadStatus.noConfusion
          · exact hforward _ _ (by split <;> rfl)
      · exact .same _
    · split
      · exact .same _
      · split <;> exact .same _

/-- The arrive case puts a read into the timeout queue where it forwards one. -/
theorem arrive_forwards (hc : s.control = .arrive) :
    (s.arriveStep ok).timeoutReadQueue = s.timeoutReadQueue ∨ s.forwards (.thread ok) = true := by
  cases ok with
  | false =>
    left
    unfold State.arriveStep
    split
    · rfl
    · split
      · split
        · dsimp only
          split
          · rfl
          · split
            · rfl
            · split <;> rfl
        · rfl
      · split
        · rfl
        · split <;> rfl
  | true =>
    unfold State.arriveStep
    split
    · exact .inl rfl
    · rename_i hopen
      obtain ⟨hopened, hawaken⟩ := not_not.mp hopen
      split
      · rename_i hempty
        split
        · rename_i r rest htimeout hread
          simp only [State.forwards, hc, htimeout, hread, hopened, hawaken, hempty]
          split
          · rename_i hinterval
            have hinterval : s.useReadInterval = true := hinterval
            right
            rw [hinterval]
            rfl
          · split
            · exact .inl rfl
            · rename_i armed harmed
              right
              rw [harmed]
              cases s.useReadInterval <;> rfl
        · exact .inl rfl
      · split
        · exact .inl rfl
        · split <;> exact .inl rfl

theorem drain_completed (s : State) (useReadInterval mapped : Bool) :
    NoneTimedOut s.completed (s.drainStep useReadInterval mapped).completed := by
  unfold State.drainStep
  split
  · exact .same _
  · split
    · exact .same _
    · rename_i r t hnext
      have hsame : t.completed = s.completed := by cases nextRead_cases hnext <;> rfl
      have hone (bytes : List UInt8) :
          NoneTimedOut s.completed
            (t.completed ++ [⟨r, if mapped = true then .success else .failed, bytes⟩]) := by
        rw [hsame]
        cases mapped <;> exact .one ReadStatus.noConfusion
      dsimp only
      by_cases hboth : mapped = true ∧ (t.readRing r mapped fun _ =>
          if mapped = true then ReadStatus.success else .failed).bBufferOverflow = true
      · rw [if_pos hboth]
        exact hone _
      · rw [if_neg hboth]
        exact hone _

theorem arrive (hc : s.control = .arrive) (hs : s.arriveStep ok = s') (h : ArriveStep s ok s') :
    TimerStep s (.thread ok) s' := by
  have htimer : s'.readTimer = true → s.readTimer = true ∨ s.setsTimer (.thread ok) = true := by
    intro hset
    rw [← hs] at hset
    exact arrive_readTimer hc hset
  have hresend (t : State) : t.startResend.control ≠ .timeout :=
    ne_timeout_of_settled (startResend_settled t)
  cases h with
  | nothing | keep => exact of_same rfl rfl rfl rfl (.inl (hresend _)) rfl rfl
  | @forwarded r rest timer hempty htimeout hread =>
    have hforwards : s.forwards (.thread ok) = true := by
      have hqueue : (s.arriveStep ok).timeoutReadQueue = s.timeoutReadQueue ∨
          s.forwards (.thread ok) = true := arrive_forwards hc
      rcases hqueue with hsame | hforwards
      · rw [hs, htimeout] at hsame
        exact absurd hsame (List.cons_ne_nil r [])
      · exact hforwards
    exact ⟨.inr ⟨hforwards, htimeout, r, rfl⟩, htimer, .inl, .inl, fun h => absurd h (hresend _),
      ⟨[], (List.append_nil _).symm, fun _ hc => absurd hc List.not_mem_nil⟩, .inl rfl⟩
  | atOnce =>
    have hcompleted := arrive_completed s ok
    rw [hs] at hcompleted
    exact of_quiet (List.Subset.refl _) htimer .inl .inl (fun h => absurd h (hresend _)) hcompleted
      (.inl rfl)
  | bypass hinterval hused =>
    exact of_quiet (List.Subset.refl _) htimer .inl (by simp) (by simp) (.same _) (.inl rfl)
  | drain => exact of_same rfl rfl rfl rfl (.inl (by simp)) rfl rfl

theorem nextRead {b : Bool} {r : ReadRequest} {t : State} (h : NextRead s b r t) :
    t.timeoutReadQueue ⊆ s.timeoutReadQueue ∧ (t.readTimer = true → s.readTimer = true) ∧
      t.readTimeoutDpc = s.readTimeoutDpc ∧
      (t.events .requestTimeout = true → s.events .requestTimeout = true) ∧
      t.control = s.control ∧ t.readTimeout = s.readTimeout := by
  cases h with
  | fromTimeoutQueue hinterval htimeout =>
    rw [htimeout]
    exact ⟨List.subset_cons_self _ _, fun h => absurd h (by simp), rfl, by simp, rfl, rfl⟩
  | fromReadQueue => exact ⟨List.Subset.refl _, id, rfl, id, rfl, rfl⟩

theorem drain {b : Bool} (hs : s.drainStep b ok = s') (h : DrainStep s b ok s') :
    TimerStep s (.thread ok) s' := by
  have hcompleted := drain_completed s b ok
  rw [hs] at hcompleted
  cases h with
  | empty | noRead =>
    exact of_same rfl rfl rfl rfl (.inl (ne_timeout_of_settled (startResend_settled s))) rfl rfl
  | @notified r t status hnext =>
    obtain ⟨hqueue, htimer, hdpc, hevent, hcontrol, hconfig⟩ := nextRead (nextRead_cases hnext)
    refine of_quiet hqueue (fun h => .inl (htimer h)) (fun h => .inl (hdpc ▸ h))
      (fun h => .inl (hevent ?_)) (fun h => .inl (hcontrol ▸ h)) hcompleted (.inl hconfig)
    simpa [State.readRing] using h
  | @served r t status hnext =>
    obtain ⟨hqueue, htimer, hdpc, hevent, hcontrol, hconfig⟩ := nextRead (nextRead_cases hnext)
    exact of_quiet hqueue (fun h => .inl (htimer h)) (fun h => .inl (hdpc ▸ h))
      (fun h => .inl (hevent h)) (fun h => .inl (hcontrol ▸ h)) hcompleted (.inl hconfig)

theorem timeout (hc : s.control = .timeout) (h : TimeoutStep s ok s') :
    TimerStep s (.thread ok) s' := by
  have hone {r : ReadRequest} {rest : List ReadRequest} (status : ReadStatus) (bytes : List UInt8)
      (hqueue : s.timeoutReadQueue = r :: rest) :
      ∃ cs, s.completed ++ [⟨r, status, bytes⟩] = s.completed ++ cs ∧
        ∀ c ∈ cs, c.status = .timeout → s.control = .timeout ∧ c.request ∈ s.timeoutReadQueue := by
    refine ⟨_, rfl, fun c hmem _ => ?_⟩
    rw [List.mem_singleton] at hmem
    rw [hmem, hqueue]
    exact ⟨hc, List.mem_cons_self⟩
  cases h with
  | empty => exact of_same rfl rfl rfl rfl (.inl (by simp)) rfl rfl
  | partialRead status hqueue =>
    exact ⟨.inl (hqueue ▸ List.subset_cons_self _ _), .inl, .inl, .inl, by simp,
      hone _ _ hqueue, .inl rfl⟩
  | timedOut hqueue =>
    exact ⟨.inl (hqueue ▸ List.subset_cons_self _ _), .inl, .inl, .inl, by simp,
      hone _ _ hqueue, .inl rfl⟩

theorem sends (h : SendStep s s') : TimerStep s (.thread ok) s' := by
  cases h with
  | goes l n c hl hc =>
    exact of_same rfl rfl rfl rfl
      (.inl (ne_timeout_of_settled (Control.settled_of_sends hc))) rfl rfl
  | @finish k =>
    cases k with
    | fileCreate | clearBuffer | d0Entry =>
      exact of_same rfl rfl rfl rfl (.inl (by simp [State.finishSend])) rfl rfl

theorem finishClear (k : ClearCase) :
    TimerStep s (.thread ok) ({ s with urbs := s.urbs.clearCompleted }.finishClear k) := by
  cases k with
  | fileClose | clearBuffer | d0Exit =>
    exact of_same rfl rfl rfl rfl
      (.inl (by simp [State.finishClear, State.startSendReadUrbs])) rfl rfl

theorem completion (h : CompletionStep d s s') : TimerStep s (.thread ok) s' := by
  cases h with
  | recycle => exact of_same rfl rfl rfl rfl (.inr rfl) rfl rfl
  | empty | errorLimit | overflow | take => exact of_same rfl rfl rfl rfl (.inl (by simp)) rfl rfl

theorem copy (u : Urb) : TimerStep s (.thread ok) (s.copyStep u) := by
  unfold State.copyStep
  dsimp only
  split <;> exact of_same rfl rfl rfl rfl (.inl (by simp)) rfl rfl

/-- At its end the completion case sets the timer of a read that waits for a gap. -/
theorem completionDone (hc : s.control = .completionDone) :
    TimerStep s (.thread ok) s.completionDoneStep := by
  unfold State.completionDoneStep
  dsimp only
  split
  · rename_i hgap
    obtain ⟨hawaken, hinterval, hqueue, hpos⟩ := hgap
    have hsets : s.setsTimer (.thread ok) = true := by
      have hsome : s.timeoutReadQueue.isEmpty = false := List.isEmpty_eq_false_iff.mpr hqueue
      simp_all [State.setsTimer]
    exact of_quiet (List.Subset.refl _) (fun _ => .inr hsets) .inl
      (fun h => .inl (by simpa using h)) (by simp) (.same _) (.inl rfl)
  · exact of_same rfl rfl rfl rfl (.inl (by simp)) rfl rfl

theorem thread (hs : s.threadStep d ok = some s') : TimerStep s (.thread ok) s' := by
  cases threadStep_cases hs with
  | completion hc hstep => exact completion hstep
  | copy => exact copy _
  | completionDone hc => exact completionDone hc
  | arriveClosed => exact of_same rfl rfl rfl rfl (.inl (by simp)) rfl rfl
  | arrive hc hstep => exact arrive hc (by simpa [State.threadStep, hc] using hs) hstep
  | drain hc hstep => exact drain (by simpa [State.threadStep, hc] using hs) hstep
  | timeout hc hstep => exact timeout hc hstep
  | sends hc hstep => exact sends hstep
  | stopTarget | clearRing => exact of_same rfl rfl rfl rfl (.inl (by simp)) rfl rfl
  | cleared => exact finishClear _

theorem NoneTimedOut.cancelled (cs : List ReadCompletion) (rs : List ReadRequest) :
    NoneTimedOut cs (cs ++ rs.map fun r => ⟨r, .cancelled, []⟩) := by
  refine ⟨_, rfl, fun c hc => ?_⟩
  obtain ⟨r, -, rfl⟩ := List.mem_map.mp hc
  exact ReadStatus.noConfusion

theorem NoneTimedOut.trans {cs cs' cs'' : List ReadCompletion} (h : NoneTimedOut cs cs')
    (h' : NoneTimedOut cs' cs'') : NoneTimedOut cs cs'' := by
  obtain ⟨new, rfl, hnew⟩ := h
  obtain ⟨new', rfl, hnew'⟩ := h'
  refine ⟨new ++ new', List.append_assoc .., fun c hc => ?_⟩
  rcases List.mem_append.mp hc with hc | hc
  · exact hnew c hc
  · exact hnew' c hc

theorem wake {e : Event} : TimerStep s (.wake e) (s.wake e) := by
  cases e with
  | deviceRemove =>
    exact of_quiet (List.Subset.refl _) .inl .inl .inl (by simp [State.wake])
      (NoneTimedOut.cancelled _ _) (.inl rfl)
  | fileClose =>
    exact of_quiet (List.nil_subset _) (by simp [State.wake, State.purgeTimeoutReadQueue]) .inl
      (fun h => .inl h) (by simp [State.wake]) (NoneTimedOut.cancelled _ _) (.inl rfl)
  | requestTimeout =>
    exact of_quiet (List.Subset.refl _) (by simp [State.wake]) .inl (by simp [State.wake])
      (fun _ => .inr rfl) (.same _) (.inl rfl)
  | d0Entry =>
    simp only [State.wake]
    split
    · exact of_same rfl rfl rfl rfl (.inl (by simp [State.startSendReadUrbs])) rfl rfl
    · exact of_same rfl rfl rfl rfl (.inl (by simp [State.finishSend])) rfl rfl
  | requestArrive | fileCreate | clearBuffer | d0Exit | requestCompletion | scanWaitMask =>
    exact of_same rfl rfl rfl rfl (.inl (by simp [State.wake, State.startSendReadUrbs])) rfl rfl

/-- All steps but the one that sets the timeout event from outside. -/
theorem of_step {op : Op} (hop : op ≠ .setEvent .requestTimeout) (hs : s.step d op = some s') :
    TimerStep s op s' := by
  cases step_cases hs with
  | arrivesFirst | arrivesNext | completes => exact of_same rfl rfl rfl rfl (.inr rfl) rfl rfl
  | cancelled hr =>
    exact of_quiet (List.erase_subset) .inl .inl .inl .inl (.one ReadStatus.noConfusion) (.inl rfl)
  | expires =>
    exact of_quiet (List.Subset.refl _) (by simp) (fun _ => .inr rfl) .inl .inl (.same _) (.inl rfl)
  | dpc =>
    exact of_quiet (List.Subset.refl _) .inl (by simp) (fun _ => .inr rfl) .inl (.same _) (.inl rfl)
  | @setTimeout t =>
    exact of_quiet (List.Subset.refl _) .inl .inl .inl .inl (.same _) (.inr ⟨t, rfl, rfl⟩)
  | purgeReads =>
    exact of_quiet (List.Subset.refl _) (by simp) .inl .inl .inl (NoneTimedOut.cancelled _ _)
      (.inl rfl)
  | purgeBoth hqueue =>
    exact of_quiet (hqueue ▸ List.subset_cons_self _ _) (by simp) .inl .inl .inl
      ((NoneTimedOut.cancelled _ _).trans (.one ReadStatus.noConfusion)) (.inl rfl)
  | @setEvent e =>
    have hne : Event.requestTimeout ≠ e := fun heq => hop (congrArg _ heq.symm)
    exact of_same rfl rfl rfl (Function.update_of_ne hne ..) (.inr rfl) rfl rfl
  | wake => exact wake
  | thread hstep => exact thread hstep

end TimerStep

/-! ## Reads that wait -/

theorem startReadTimeout_isNoTimeout {t : SerialTimeouts} {type : ReadTimeoutType} {length : Nat}
    (h : type.isNoTimeout = true) : startReadTimeout t type length = some false := by
  cases type with
  | case1 | case2 | case7 => rfl
  | _ => exact absurd h Bool.false_ne_true

/-- The gap between two bytes is not used in the cases without a timeout. -/
theorem setTimeout_isNoTimeout {t : SerialTimeouts}
    (h : (setTimeout t).bUseReadInterval = true) :
    (setTimeout t).ucTimeoutType.isNoTimeout = false := by
  have h : timeoutType t = .case9 ∨ timeoutType t = .case10 := by simpa [setTimeout] using h
  show (timeoutType t).isNoTimeout = false
  rcases h with h | h <;> rw [h] <;> rfl

/-- The arrive case starts a read when it forwards one or sets the timer. -/
theorem control_of_forwards {op : Op} (h : s.forwards op = true) :
    s.control = .arrive ∧ ∃ ok, op = .thread ok := by
  unfold State.forwards at h
  split at h
  · split at h
    · rename_i hc
      exact ⟨hc, _, rfl⟩
    · exact absurd h Bool.false_ne_true
  · exact absurd h Bool.false_ne_true

/-- While a read waits, the timer is set for the gap only. -/
theorem interval_of_setsTimer {op : Op} (hsets : s.setsTimer op = true)
    (hqueue : s.timeoutReadQueue ≠ []) : s.readTimeout.bUseReadInterval = true := by
  unfold State.setsTimer at hsets
  split at hsets
  · split at hsets
    · split at hsets
      · rename_i hempty _
        exact absurd hempty hqueue
      · exact absurd hsets Bool.false_ne_true
    · simp only [Bool.and_eq_true] at hsets
      exact hsets.1.1.2
    · exact absurd hsets Bool.false_ne_true
  · exact absurd hsets Bool.false_ne_true

/-- A read without a timeout is forwarded with the timer left alone. -/
theorem setsTimer_isNoTimeout {op : Op} (hforwards : s.forwards op = true)
    (htype : s.readTimeout.ucTimeoutType.isNoTimeout = true) : s.setsTimer op = false := by
  obtain ⟨hc, ok, rfl⟩ := control_of_forwards hforwards
  simp only [State.setsTimer, hc]
  split
  · rw [startReadTimeout_isNoTimeout htype]
    exact Bool.and_false _
  · rfl

end WdfSerial
