-- SUMMARY: When data that did not fit into the ring buffer of the serial driver is looked at again.
import QcomUsb.WdfSerial.ReadSteps

/-!
# Data that waits for room

A URB whose data does not fit stays at the head of the completion list, and
`bBufferOverflow` says so. The drain loop raises the completion event again after it
has made room. The timeout case makes room without doing so.
-/

namespace WdfSerial

open Transition Machine

/-- When the thread is about to wait and the data of the first completed URB fits, the
completion event is set. -/
def State.NotBlocked (s : State) : Prop :=
  s.control = .wait → s.errorLimitReached = false →
    ∀ u ∈ s.urbs.completionList.entries.head?, u.availableBytes ≤ s.bytesFree →
      s.events .requestCompletion = true

/-- A timeout case that serves a read makes no room for the first completed URB, or the
completion event is set. -/
def MakesNoRoom (s : State) : Op → Prop
  | .thread mapped =>
    s.control = .timeout → mapped = true → s.errorLimitReached = false → 0 < s.bytesUsed →
      (s.readTimeout.bUseReadInterval = true ∨ s.readTimeout.bReturnOnAnyChars = true) →
      ∀ r ∈ s.timeoutReadQueue.head?, ∀ u ∈ s.urbs.completionList.entries.head?,
        u.availableBytes ≤ s.bytesFree + min s.bytesUsed r.length →
        s.events .requestCompletion = true
  | _ => True

instance (s : State) (op : Op) : Decidable (MakesNoRoom s op) :=
  match op with
  | .thread _ => inferInstanceAs (Decidable (_ → _ → _ → _ → _ → ∀ r ∈ _, ∀ u ∈ _, _ → _))
  | .readArrives _ | .readCancelled _ | .urbCompletes _ _ | .timerExpires | .timeoutDpc
  | .setTimeout _ | .purgeAbort | .setEvent _ | .wake _ => .isTrue trivial

/-- The control points at which the thread works on the completion list. -/
def Control.collecting : Control → Bool
  | .completion | .copy _ | .copyFailed | .clearLists _ => true
  | _ => false

/-- What is on the completion list is announced, or known not to fit. -/
def State.Explained (s : State) : Prop :=
  s.control.collecting = false → s.errorLimitReached = false →
    ∀ u ∈ s.urbs.completionList.entries.head?,
      s.events .requestCompletion = true ∨
        s.bBufferOverflow = true ∧ s.bytesFree < u.availableBytes

variable {d : VendorConfig} {s s' : State} {ok : Bool}

theorem readRing_bytesFree (h : s.readRingBuffer.Inv) (r : ReadRequest)
    (status : List UInt8 → ReadStatus) :
    (s.readRing r true status).bytesFree = s.bytesFree + min s.bytesUsed r.length := by
  obtain ⟨-, -, -, hcapacity⟩ := h.read_eq r.length
  have hused := readRing_bytesUsed h r true status
  have hlt := h.bytesUsed_lt
  have hcapacity' : (s.readRing r true status).readRingBuffer.capacity =
      s.readRingBuffer.capacity := hcapacity
  simp only [State.bytesUsed, State.bytesFree, RingBuffer.bytesFree, hcapacity', if_true] at hused ⊢
  omega

namespace State.Explained

theorem notBlocked (h : s.Explained) : s.NotBlocked := by
  intro hc hlimit u hu hfits
  rcases h (by simp [hc, Control.collecting]) hlimit u hu with hset | ⟨-, hfull⟩
  · exact hset
  · exact absurd hfits (Nat.not_le_of_lt hfull)

theorem of_busy (hc : s.control.collecting = true) : s.Explained := fun hc' => by simp [hc] at hc'

theorem of_empty (hlist : s.urbs.completionList.entries = []) : s.Explained := by
  intro _ _ u hu
  simp [hlist] at hu

theorem of_set (hset : s.events .requestCompletion = true) : s.Explained :=
  fun _ _ _ _ => .inl hset

/-- Neither the list nor the buffer changes, and the event stays. -/
theorem of_same (h : s.Explained) (hc : s.control.collecting = false)
    (hlist : s'.urbs.completionList = s.urbs.completionList)
    (hring : s'.readRingBuffer = s.readRingBuffer)
    (hoverflow : s'.bBufferOverflow = s.bBufferOverflow)
    (hlimit : s'.errorLimitReached = s.errorLimitReached)
    (hset : s.events .requestCompletion = true → s'.events .requestCompletion = true) :
    s'.Explained := by
  intro _ hl u hu
  rcases h hc (hlimit ▸ hl) u (hlist ▸ hu) with hevent | ⟨hover, hfull⟩
  · exact .inl (hset hevent)
  · exact .inr ⟨hoverflow.trans hover, (congrArg RingBuffer.bytesFree hring).trans_lt hfull⟩

theorem completionCase (hs : CompletionStep d s s') (hc : s.control = .completion) :
    s'.Explained := by
  cases hs with
  | empty hlist => exact of_empty hlist
  | errorLimit => exact fun _ hlimit => by simp at hlimit
  | recycle => exact of_busy (by simp [hc, Control.collecting])
  | @overflow u rest n gone hlist hfull =>
    intro _ _ v hv
    obtain rfl : u = v := by simpa [hlist] using hv
    exact .inr ⟨rfl, hfull⟩
  | take => exact of_busy rfl

theorem nextRead {b : Bool} {r : ReadRequest} {t : State} (h : NextRead s b r t) :
    t.urbs = s.urbs ∧ t.bBufferOverflow = s.bBufferOverflow ∧
      t.errorLimitReached = s.errorLimitReached ∧
      t.events .requestCompletion = s.events .requestCompletion := by
  cases h with
  | fromTimeoutQueue => exact ⟨rfl, rfl, rfl, by simp⟩
  | fromReadQueue => exact ⟨rfl, rfl, rfl, rfl⟩

theorem drainLoop {b : Bool} (h : s.Explained) (hc : s.control = .drain b)
    (hs : DrainStep s b ok s') : s'.Explained := by
  have hcollect : s.control.collecting = false := by simp [hc, Control.collecting]
  cases hs with
  | empty | noRead => exact h.of_same hcollect rfl rfl rfl rfl id
  | notified => exact of_set (by simp)
  | @served r t status hnext hused hoverflow =>
    have hring := nextRead_ring (nextRead_cases hnext)
    obtain ⟨hurbs, hover, hlimit, hset⟩ := nextRead (nextRead_cases hnext)
    cases ok with
    | false => exact h.of_same hcollect (by simp [State.readRing, hurbs]) hring hover hlimit hset.trans
    | true =>
      intro _ hl u hu
      -- the overflow flag is off, so the event is set
      rcases h hcollect (hlimit ▸ hl) u (hurbs ▸ hu) with hevent | ⟨hon, -⟩
      · exact .inl (hset.trans hevent)
      · exact absurd (hoverflow rfl) (by simp [hon])

theorem timeoutCase (h : s.Explained) (hring : s.readRingBuffer.Inv) (hc : s.control = .timeout)
    (hok : MakesNoRoom s (.thread ok)) (hs : TimeoutStep s ok s') : s'.Explained := by
  have hcollect : s.control.collecting = false := by simp [hc, Control.collecting]
  cases hs with
  | empty | timedOut => exact h.of_same hcollect rfl rfl rfl rfl id
  | @partialRead r rest status htimeout hflags hused =>
    cases ok with
    | false => exact h.of_same hcollect rfl rfl rfl rfl id
    | true =>
      intro _ hlimit u hu
      rcases h hcollect hlimit u hu with hevent | ⟨hon, hfull⟩
      · exact .inl hevent
      · have hfree := readRing_bytesFree (s := { s with timeoutReadQueue := rest }) hring r status
        rcases Nat.lt_or_ge (s.bytesFree + min s.bytesUsed r.length) u.availableBytes with
          hstill | hfits
        · exact .inr ⟨hon, hfree.trans_lt hstill⟩
        · exact .inl (hok hc rfl hlimit hused hflags r (by simp [htimeout]) u hu hfits)

theorem sends (h : s.Explained) (hc : s.control.sending = true) (hs : SendStep s s') :
    s'.Explained := by
  have hcollect : s.control.collecting = false := by
    cases hcontrol : s.control <;> simp_all [Control.collecting, Control.sending]
  cases hs with
  | goes l n c hl => exact h.of_same hcollect hl rfl rfl rfl id
  | @finish k =>
    cases k with
    | fileCreate | clearBuffer => exact h.of_same hcollect rfl rfl rfl rfl id
    | d0Entry => exact h.of_same hcollect rfl rfl rfl rfl (by simp [State.finishSend])

theorem thread (h : s.Explained) (hring : s.readRingBuffer.Inv) (hok : MakesNoRoom s (.thread ok))
    (hs : s.threadStep d ok = some s') : s'.Explained := by
  cases threadStep_cases hs with
  | completion hc hstep => exact completionCase hstep hc
  | copy hc =>
    unfold State.copyStep
    dsimp only
    split <;> exact of_busy rfl
  | completionDone hc =>
    have hcollect : s.control.collecting = false := by simp [hc, Control.collecting]
    unfold State.completionDoneStep
    dsimp only
    split <;> exact h.of_same hcollect rfl rfl rfl rfl (by simp)
  | arriveClosed hc | stopTarget hc =>
    exact h.of_same (by simp [hc, Control.collecting]) rfl rfl rfl rfl id
  | arrive hc hstep =>
    have hcollect : s.control.collecting = false := by simp [hc, Control.collecting]
    cases hstep <;> exact h.of_same hcollect rfl rfl rfl rfl (by simp [State.startResend])
  | drain hc hstep => exact h.drainLoop hc hstep
  | timeout hc hstep => exact h.timeoutCase hring hc hok hstep
  | sends hc hstep => exact h.sends hc hstep
  | clearRing hc => exact of_busy rfl
  | @cleared k hc => cases k <;> exact of_empty (UrbLists.clearCompleted_entries s.urbs)

theorem wake {e : Event} (h : s.Explained) (hc : s.control = .wait) : (s.wake e).Explained := by
  have hcollect : s.control.collecting = false := by simp [hc, Control.collecting]
  cases e with
  | requestCompletion => exact of_busy rfl
  | d0Entry =>
    simp only [State.wake]
    split <;> exact h.of_same hcollect rfl rfl rfl rfl
      (by simp [State.startSendReadUrbs, State.finishSend])
  | _ =>
    exact h.of_same hcollect rfl rfl rfl rfl (by simp [State.wake, State.purgeReadQueue,
      State.purgeTimeoutReadQueue, State.startSendReadUrbs])

theorem step {op : Op} (h : s.Explained) (hring : s.readRingBuffer.Inv) (hok : MakesNoRoom s op)
    (hs : s.step d op = some s') : s'.Explained := by
  cases step_cases hs with
  | arrivesFirst | dpc =>
    exact fun hc hl u hu => (h hc hl u hu).imp (by simp) id
  | completes => exact of_set (by simp)
  | @setEvent e =>
    refine fun hc hl u hu => (h hc hl u hu).imp (fun hset => ?_) id
    by_cases he : Event.requestCompletion = e
    · subst he
      simp
    · simpa [Function.update_of_ne he] using hset
  | wake hc he => exact h.wake hc
  | thread hstep => exact h.thread hring hok hstep
  | arrivesNext | cancelled | expires | setTimeout | purgeReads | purgeBoth => exact h

end State.Explained

/-! ## Runs -/

/-- From the set-up device on, received data is not blocked while it fits, unless a timeout case
makes the room for it. -/
theorem readThread_notBlocked (d : VendorConfig) (n : Nat) (pBuffer : Nat → UInt8) (capacity : Nat)
    (ops : List Op)
    (hok : ∀ p ∈ (readThread d).fires (setupState n pBuffer capacity) ops, MakesNoRoom p.1 p.2) :
    ∀ s ∈ (readThread d).visits (setupState n pBuffer capacity) ops, s.NotBlocked := by
  intro s hs
  have hinv := visits_all_of_fires (P := fun s => s.readRingBuffer.Inv ∧ s.Explained) ?_
    ⟨RingBuffer.init_inv .., .of_empty rfl⟩ hok s hs
  · exact hinv.2.notBlocked
  rintro s op s' o ⟨hring, hexplained⟩ hok hstep
  have hstep : s.step d op = some s' := step_of_readThread hstep
  exact ⟨ringInv_step hring hstep, hexplained.step hring hok hstep⟩

/-- A read waits for a gap. Three bytes come for it, and two that do not fit. The gap passes. -/
def fullOps : List Op :=
  [.readArrives 4, .wake .requestArrive, .thread true, .thread true,
    .urbCompletes 0 ⟨.success, 3, some 3, fun _ => 7⟩,
    .urbCompletes 1 ⟨.success, 2, some 2, fun _ => 8⟩, .wake .requestCompletion, .thread true,
    .thread true, .thread true, .thread true, .wake .requestArrive, .thread true, .thread true,
    .thread true, .timerExpires, .timeoutDpc, .wake .requestTimeout]

/-- Another URB comes back in time. -/
theorem readThread_notBlocked_announced :
    ∃ s ∈ (readThread ⟨2000, 10, 4⟩).visits (setupState 3 (fun _ => 0) 4)
        (openOps ++ fullOps ++ [.urbCompletes 2 ⟨.success, 0, some 0, fun _ => 0⟩, .thread true]),
      s.NotBlocked ∧ s.control = .wait ∧ s.bytesFree = 4 ∧
        s.urbs.completionList.entries.head? = some ⟨1, .success, [8, 8]⟩ := by
  have hlast := List.getLast_mem (List.ne_nil_of_mem (Machine.start_mem_visits
    (M := readThread ⟨2000, 10, 4⟩) (setupState 3 (fun _ => 0) 4)
    (openOps ++ fullOps ++ [.urbCompletes 2 ⟨.success, 0, some 0, fun _ => 0⟩, .thread true])))
  refine ⟨_, hlast, ?_, by decide +kernel, by decide +kernel, by decide +kernel⟩
  exact readThread_notBlocked _ _ _ _ _ (by decide +kernel) _ hlast

/-- The timeout case empties the buffer, and nothing says that the two bytes fit now. -/
theorem readThread_notBlocked_timeout :
    ¬ ∀ s ∈ (readThread ⟨2000, 10, 4⟩).visits (setupState 3 (fun _ => 0) 4)
        (openOps ++ fullOps ++ [.thread true]), s.NotBlocked := by
  intro hall
  have hlast := hall _ (List.getLast_mem (List.ne_nil_of_mem (Machine.start_mem_visits _ _)))
  have hset := hlast (by decide +kernel) (by decide +kernel) ⟨1, .success, [8, 8]⟩
    (by decide +kernel) (by decide +kernel)
  revert hset
  decide +kernel

end WdfSerial
