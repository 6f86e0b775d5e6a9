-- SUMMARY: When the D0 callbacks of the serial driver return only after both threads have done their part.
import QcomUsb.WdfSerial.PowerHandshake

/-!
# Fresh acknowledgements

A callback returns when both ready events were set. The interrupt thread sets the ready
event of an exit in the exit case, and once more when the interrupt request comes back.
If the callback has cleared the event before that, the event stays set, and the next
exit does not wait.
-/

namespace WdfSerial.Power

open Transition Machine

attribute [simp] State.goto

/-- A callback that returns while the device works returns after both threads have stopped or
started their target for it. -/
def State.Fresh (s : State) : Prop :=
  ∀ r ∈ s.returned, r.failed = false → ∀ t, r.ran t = r.call

/-- The completion case acknowledges an exit while the callback of that exit has not cleared the
ready event yet. -/
def AcksInTime (s : State) : Op → Prop
  | .thread .int _ =>
    s.control .int = .completed → s.d0ExitState = true →
      s.callback = some ⟨.d0Exit, .int, .await⟩ ∨ s.callback = some ⟨.d0Exit, .int, .clearReady⟩
  | _ => True

instance (s : State) (op : Op) : Decidable (AcksInTime s op) :=
  match op with
  | .thread .int _ => inferInstanceAs (Decidable (_ → _ → _ ∨ _))
  | .call | .callback | .wakeD0 _ _ | .wakeCompletion | .wakeStart | .thread .read _
  | .requestCompletes => .isTrue trivial

/-! ## The handshake with one thread -/

/-- The thread is in the case of a D0 event. -/
def Control.inD0 : Control → Bool
  | .d0 .. => true
  | _ => false

/-- The thread has no D0 event to handle and no entry to finish. -/
structure State.Rests (s : State) (t : Thread) : Prop where
  event : ∀ op, s.d0Event t op = false
  control : (s.control t).inD0 = false
  entry : t = .int → s.d0EntryState = false

/-- How far a thread is with what the callback asks of it. -/
inductive Side (s : State) (t : Thread) : Prop
  | rests (hcallback : ∀ op, s.callback ≠ some ⟨op, t, .await⟩ ∧ s.callback ≠ some ⟨op, t, .clearReady⟩)
      (hrests : s.Rests t) (hready : ∀ op, s.readyEvent t op = false)
  | asked {op : PowerOp} (hcallback : s.callback = some ⟨op, t, .await⟩)
      (hevent : ∀ op', s.d0Event t op' = true → op' = op) (hset : s.setBy t op = s.calls)
      (hcontrol : (s.control t).inD0 = false) (hready : ∀ op', s.readyEvent t op' = false)
      (hentry : t = .int → s.d0EntryState = false)
      (hexit : t = .int → op = .d0Exit → s.d0ExitState = false)
  | picked {op : PowerOp} (hcallback : s.callback = some ⟨op, t, .await⟩)
      (hevent : ∀ op', s.d0Event t op' = true → op' = op)
      (hcontrol : s.control t = .d0 op .clearEvent s.calls)
      (hready : ∀ op', s.readyEvent t op' = false)
      (hexit : t = .int → op = .d0Exit → s.d0ExitState = false)
  | cleared {op : PowerOp} {stage : Stage} (hcallback : s.callback = some ⟨op, t, .await⟩)
      (hevent : ∀ op', s.d0Event t op' = false) (hcontrol : s.control t = .d0 op stage s.calls)
      (hstage : stage = .target ∨ stage = .ready ∧ s.ran t op = s.calls)
      (hready : ∀ op', s.readyEvent t op' = false)
      (hentry : t = .int → s.d0EntryState = decide (op = .d0Entry))
      (hexit : t = .int → op = .d0Entry → s.d0ExitState = false)
  | starting (hint : t = .int) (hcallback : s.callback = some ⟨.d0Entry, t, .await⟩)
      (hevent : ∀ op', s.d0Event t op' = false) (hcontrol : (s.control t).inD0 = false)
      (hran : s.ran t .d0Entry = s.calls) (hready : ∀ op', s.readyEvent t op' = false)
      (hexit : s.d0ExitState = false)
  | acked {op : PowerOp} (hcallback : s.callback = some ⟨op, t, .await⟩) (hrests : s.Rests t)
      (hready : ∀ op', s.readyEvent t op' = true → op' = op) (hran : s.ran t op = s.calls)
      (hexit : t = .int → op = .d0Entry → s.d0ExitState = false)
  | passed {op : PowerOp} (hcallback : s.callback = some ⟨op, t, .clearReady⟩) (hrests : s.Rests t)
      (hready : ∀ op', s.readyEvent t op' = true → op' = op) (hran : s.ran t op = s.calls)

/-- Nothing changes that the handshake with a thread depends on. -/
structure Same (s s' : State) (t : Thread) : Prop where
  callback : s'.callback = s.callback
  event : s'.d0Event t = s.d0Event t
  ready : s'.readyEvent t = s.readyEvent t
  control : s'.control t = s.control t ∨ (s.control t).inD0 = false ∧ (s'.control t).inD0 = false
  setBy : s'.setBy t = s.setBy t
  ran : s'.ran t = s.ran t
  calls : s'.calls = s.calls
  entry : t = .int → s'.d0EntryState = s.d0EntryState
  exit : t = .int → s.d0ExitState = false → s'.d0ExitState = false

variable {s s' : State} {t : Thread} {op : PowerOp} {limit : Nat}

theorem Same.inD0 (h : Same s s' t) (hc : (s.control t).inD0 = false) :
    (s'.control t).inD0 = false := by
  rcases h.control with heq | ⟨-, hc'⟩
  · rwa [heq]
  · exact hc'

theorem Same.d0 (h : Same s s' t) {stage : Stage} {call : Nat}
    (hc : s.control t = .d0 op stage call) : s'.control t = .d0 op stage call := by
  rcases h.control with heq | ⟨hc', -⟩
  · rwa [heq]
  · simp [hc, Control.inD0] at hc'

theorem State.Rests.same (h : s.Rests t) (hs : Same s s' t) : s'.Rests t where
  event op := hs.event ▸ h.event op
  control := hs.inD0 h.control
  entry ht := (hs.entry ht).trans (h.entry ht)

theorem Side.same (h : Side s t) (hs : Same s s' t) : Side s' t := by
  have hcall := hs.callback
  have hevent := hs.event
  have hready := hs.ready
  have hran := hs.ran
  cases h with
  | rests hc hrests hr => exact .rests (by rwa [hcall]) (hrests.same hs) (by rwa [hready])
  | asked hc he hset hcontrol hr hentry hexit =>
    exact .asked (hcall.trans hc) (by rwa [hevent]) (by rwa [hs.setBy, hs.calls])
      (hs.inD0 hcontrol) (by rwa [hready]) (fun ht => (hs.entry ht).trans (hentry ht))
      fun ht hop => hs.exit ht (hexit ht hop)
  | picked hc he hcontrol hr hexit =>
    exact .picked (hcall.trans hc) (by rwa [hevent]) (by rw [hs.d0 hcontrol, hs.calls])
      (by rwa [hready]) fun ht hop => hs.exit ht (hexit ht hop)
  | cleared hc he hcontrol hstage hr hentry hexit =>
    exact .cleared (hcall.trans hc) (by rwa [hevent]) (by rw [hs.d0 hcontrol, hs.calls])
      (by rwa [hran, hs.calls]) (by rwa [hready]) (fun ht => (hs.entry ht).trans (hentry ht))
      fun ht hop => hs.exit ht (hexit ht hop)
  | starting ht hc he hcontrol hr hready' hexit =>
    exact .starting ht (hcall.trans hc) (by rwa [hevent]) (hs.inD0 hcontrol)
      (by rwa [hran, hs.calls]) (by rwa [hready]) (hs.exit ht hexit)
  | acked hc hrests hr hran' hexit =>
    exact .acked (hcall.trans hc) (hrests.same hs) (by rwa [hready]) (by rwa [hran, hs.calls])
      fun ht hop => hs.exit ht (hexit ht hop)
  | passed hc hrests hr hran' =>
    exact .passed (hcall.trans hc) (hrests.same hs) (by rwa [hready]) (by rwa [hran, hs.calls])

/-- A thread that the callback does not wait for rests. -/
theorem Side.of_callback (h : Side s t)
    (hc : ∀ op, s.callback ≠ some ⟨op, t, .await⟩ ∧ s.callback ≠ some ⟨op, t, .clearReady⟩) :
    s.Rests t ∧ ∀ op, s.readyEvent t op = false := by
  cases h with
  | rests _ hrests hready => exact ⟨hrests, hready⟩
  | asked hcallback | picked hcallback | cleared hcallback | acked hcallback =>
    exact absurd hcallback (hc _).1
  | starting _ hcallback => exact absurd hcallback (hc _).1
  | passed hcallback => exact absurd hcallback (hc _).2

/-! ## The whole handshake -/

/-- The last callback that both threads know of is an entry. -/
def State.Entered (s : State) : Prop :=
  match s.callback with
  | none => s.next = .d0Exit
  | some ⟨.d0Exit, .read, _⟩ | some ⟨.d0Exit, .int, .clearOpposite⟩
  | some ⟨.d0Exit, .int, .setEvent⟩ | some ⟨.d0Entry, .int, .clearReady⟩ => True
  | _ => False

/-- Both threads are where the callback has them, `D0ExitState` is not left from an earlier exit,
and the read thread is done before the callback turns to the interrupt thread. -/
structure Inv (s : State) : Prop where
  side : ∀ t, Side s t
  next : ∀ op t phase, s.callback = some ⟨op, t, phase⟩ → s.next = op.opposite
  entered : s.Entered → s.d0ExitState = false
  read : ∀ op phase, s.callback = some ⟨op, .int, phase⟩ → s.ran .read op = s.calls

theorem startedState_inv : Inv startedState where
  side t := .rests (by simp [startedState]) ⟨fun _ => rfl, rfl, fun _ => rfl⟩ fun _ => rfl
  next := by simp [startedState]
  entered _ := rfl
  read := by simp [startedState]

/-- A step inside a thread leaves the callback alone. -/
theorem Inv.of_side (h : Inv s) (hside : ∀ t, Side s' t) (hcallback : s'.callback = s.callback)
    (hnext : s'.next = s.next) (hcalls : s'.calls = s.calls)
    (hexit : s.Entered → s.d0ExitState = false → s'.d0ExitState = false)
    (hread : ∀ op phase, s.callback = some ⟨op, .int, phase⟩ →
      s'.ran .read op = s.ran .read op) : Inv s' where
  side := hside
  next op t phase hc := hnext.trans (h.next op t phase (hcallback ▸ hc))
  entered he := by
    have he' : s.Entered := by
      unfold State.Entered at he ⊢
      rwa [hcallback, hnext] at he
    exact hexit he' (h.entered he')
  read op phase hc := by
    rw [hcallback] at hc
    rw [hread op phase hc, hcalls]
    exact h.read op phase hc

/-- Nothing changes that the handshakes depend on. -/
theorem Inv.same (h : Inv s) (hs : ∀ t, Same s s' t) (hnext : s'.next = s.next) : Inv s' :=
  h.of_side (fun t => (h.side t).same (hs t)) (hs .int).callback hnext (hs .int).calls
    (fun _ => (hs .int).exit rfl) fun op _ _ => congrFun (hs .read).ran op

/-! ## The callback -/

theorem Inv.call (h : Inv s) (hs : s.call = some s') : Inv s' := by
  unfold State.call at hs
  split at hs
  · cases hs
  · rename_i hnone
    cases hs
    have hc : ∀ t op, s.callback ≠ some ⟨op, t, .await⟩ ∧ s.callback ≠ some ⟨op, t, .clearReady⟩ := by
      simp [hnone]
    refine ⟨fun t => ?_, ?_, fun he => ?_, by simp⟩
    · obtain ⟨hrests, hready⟩ := (h.side t).of_callback (hc t)
      exact .rests (by simp) ⟨hrests.event, hrests.control, hrests.entry⟩ hready
    · rintro op t phase hcall
      cases hcall
      rfl
    · -- an exit begins after an entry has returned
      have hnext : s.next = .d0Exit := by
        cases hop : s.next with
        | d0Exit => rfl
        | d0Entry => simp [State.Entered, hop] at he
      exact h.entered (by simpa [State.Entered, hnone] using hnext)

theorem Inv.clearOpposite (h : Inv s) (hc : s.callback = some ⟨op, t, .clearOpposite⟩) :
    Inv { s with
      d0Event := update s.d0Event t op.opposite false
      callback := some ⟨op, t, .setEvent⟩ } where
  side t' := by
    obtain ⟨hrests, hready⟩ := (h.side t').of_callback (by simp [hc])
    exact .rests (by simp) ⟨fun op' => by simp [hrests.event], hrests.control, hrests.entry⟩ hready
  next op' t' phase hcall := by
    cases hcall
    exact h.next _ _ _ hc
  entered he := by
    refine h.entered ?_
    cases op <;> cases t <;> simp_all [State.Entered]
  read op' phase hcall := by
    cases hcall
    exact h.read _ _ hc

theorem Inv.setEvent (h : Inv s) (hc : s.callback = some ⟨op, t, .setEvent⟩) :
    Inv { s with
      d0Event := update s.d0Event t op true
      setBy := note s.setBy t op s.calls
      callback := some ⟨op, t, .await⟩ } where
  side t' := by
    obtain ⟨hrests, hready⟩ := (h.side t').of_callback (by simp [hc])
    by_cases ht : t' = t
    · subst ht
      refine .asked rfl (fun op' => ?_) (by simp) hrests.control hready hrests.entry ?_
      · simp [hrests.event]
      · rintro rfl rfl
        exact h.entered (by simp [State.Entered, hc])
    · exact .rests (by simp [Ne.symm ht])
        ⟨fun op' => by simp [ht, hrests.event], hrests.control, hrests.entry⟩ hready
  next op' t' phase hcall := by
    cases hcall
    exact h.next _ _ _ hc
  entered he := by
    refine h.entered ?_
    cases op <;> cases t <;> simp_all [State.Entered]
  read op' phase hcall := by
    cases hcall
    exact h.read _ _ hc

theorem Inv.acknowledged (h : Inv s) (hc : s.callback = some ⟨op, t, .await⟩)
    (hset : s.readyEvent t op = true) :
    Inv { s with callback := some ⟨op, t, .clearReady⟩ } := by
  have hacked : s.Rests t ∧ (∀ op', s.readyEvent t op' = true → op' = op) ∧
      s.ran t op = s.calls ∧ (t = .int → op = .d0Entry → s.d0ExitState = false) := by
    cases h.side t with
    | rests hcallback => exact absurd hc (hcallback op).1
    | asked _ _ _ _ hready | picked _ _ _ hready | cleared _ _ _ _ hready
    | starting _ _ _ _ _ hready => simp [hready op] at hset
    | acked hcallback hrests hready hran hexit =>
      obtain ⟨rfl⟩ := hcallback.symm.trans hc
      exact ⟨hrests, hready, hran, hexit⟩
    | passed hcallback => simp [hc] at hcallback
  obtain ⟨hrests, hready, hran, hexit⟩ := hacked
  refine ⟨fun t' => ?_, fun op' t' phase hcall => ?_, fun he => ?_, fun op' phase hcall => ?_⟩
  · by_cases ht : t' = t
    · subst ht
      exact .passed rfl ⟨hrests.event, hrests.control, hrests.entry⟩ hready hran
    · obtain ⟨hrests', hready'⟩ := (h.side t').of_callback (by simp [hc, Ne.symm ht])
      exact .rests (by simp [Ne.symm ht]) ⟨hrests'.event, hrests'.control, hrests'.entry⟩ hready'
  · cases hcall
    exact h.next _ _ _ hc
  · cases op with
    | d0Exit => exact h.entered (by cases t <;> simp_all [State.Entered])
    | d0Entry =>
      cases t with
      | read => simp [State.Entered] at he
      | int => exact hexit rfl rfl
  · cases hcall
    exact h.read _ _ hc

/-- When the callback clears the ready event, the thread has done its part. -/
theorem Side.passed_of (h : Side s t) (hc : s.callback = some ⟨op, t, .clearReady⟩) :
    s.Rests t ∧ (∀ op', s.readyEvent t op' = true → op' = op) ∧ s.ran t op = s.calls := by
  cases h with
  | rests hcallback => exact absurd hc (hcallback op).2
  | asked hcallback | picked hcallback | cleared hcallback | acked hcallback =>
    simp [hc] at hcallback
  | starting _ hcallback => simp [hc] at hcallback
  | passed hcallback hrests hready hran =>
    obtain ⟨rfl⟩ := hcallback.symm.trans hc
    exact ⟨hrests, hready, hran⟩

/-- Both threads rest when the callback goes on to the next thread or returns. -/
theorem Inv.rests_of_clearReady (h : Inv s) (hc : s.callback = some ⟨op, t, .clearReady⟩)
    (t' : Thread) : s.Rests t' ∧ ∀ op', update s.readyEvent t op false t' op' = false := by
  by_cases ht : t' = t
  · subst ht
    obtain ⟨hrests, hready, -⟩ := (h.side t').passed_of hc
    refine ⟨hrests, fun op' => ?_⟩
    by_cases hop : op' = op
    · simp [hop]
    · simpa [hop] using fun hset => hop (hready op' hset)
  · obtain ⟨hrests, hready⟩ := (h.side t').of_callback (by simp [hc, Ne.symm ht])
    exact ⟨hrests, fun op' => by simp [ht, hready]⟩

theorem Inv.nextThread (h : Inv s) (hc : s.callback = some ⟨op, .read, .clearReady⟩) :
    Inv { s with
      readyEvent := update s.readyEvent .read op false
      callback := some ⟨op, .int, .clearOpposite⟩ } where
  side t' := by
    obtain ⟨hrests, hready⟩ := h.rests_of_clearReady hc t'
    exact .rests (by simp) ⟨hrests.event, hrests.control, hrests.entry⟩ hready
  next op' t' phase hcall := by
    cases hcall
    exact h.next _ _ _ hc
  entered he := by
    refine h.entered ?_
    cases op <;> simp_all [State.Entered]
  read op' phase hcall := by
    cases hcall
    exact ((h.side .read).passed_of hc).2.2

theorem Inv.returns (h : Inv s) (hc : s.callback = some ⟨op, .int, .clearReady⟩)
    (returned : List Return) :
    Inv { s with
      readyEvent := update s.readyEvent .int op false
      callback := none
      returned := returned } where
  side t' := by
    obtain ⟨hrests, hready⟩ := h.rests_of_clearReady hc t'
    exact .rests (by simp) ⟨hrests.event, hrests.control, hrests.entry⟩ hready
  next op' t' phase hcall := by cases hcall
  entered he := by
    have hnext : s.next = op.opposite := h.next _ _ _ hc
    have hexit : s.next = .d0Exit := he
    refine h.entered ?_
    cases op with
    | d0Entry => simp [State.Entered, hc]
    | d0Exit => simp [hnext, PowerOp.opposite] at hexit
  read op' phase hcall := by cases hcall

/-- When a callback returns, both threads have done their part for it. -/
theorem Inv.ran_of_returns (h : Inv s) (hc : s.callback = some ⟨op, .int, .clearReady⟩)
    (t : Thread) : s.ran t op = s.calls := by
  cases t with
  | read => exact h.read _ _ hc
  | int => exact ((h.side .int).passed_of hc).2.2

/-- The property, and what keeps it while the device works. -/
def Good (s : State) : Prop := s.Fresh ∧ (s.deviceFailed = false → Inv s)

theorem Good.callbackStep (h : Good s) (hs : s.callbackStep = some s') : Good s' := by
  obtain ⟨hfresh, hinv⟩ := h
  unfold State.callbackStep at hs
  split at hs
  · cases hs
  · rename_i op t hc
    cases hs
    exact ⟨hfresh, fun hworks => (hinv hworks).clearOpposite hc⟩
  · rename_i op t hc
    cases hs
    exact ⟨hfresh, fun hworks => (hinv hworks).setEvent hc⟩
  · rename_i op t hc
    split at hs
    · rename_i hset
      cases hs
      exact ⟨hfresh, fun hworks => (hinv hworks).acknowledged hc hset⟩
    · cases hs
  · rename_i op t hc
    cases t with
    | read =>
      cases hs
      exact ⟨hfresh, fun hworks => (hinv hworks).nextThread hc⟩
    | int =>
      cases hs
      refine ⟨fun r hr hworks t => ?_, fun hworks => (hinv hworks).returns hc _⟩
      rcases List.mem_append.mp hr with hold | hnew
      · exact hfresh r hold hworks t
      · obtain rfl := List.mem_singleton.mp hnew
        exact (hinv hworks).ran_of_returns hc t

/-! ## The threads -/

theorem Inv.wakeD0 (h : Inv s) (hs : s.wakeD0 t op = some s') : Inv s' := by
  unfold State.wakeD0 at hs
  split at hs
  · rename_i hwake
    obtain ⟨hcontrol, hset, -⟩ := hwake
    cases hs
    refine h.of_side (fun t' => ?_) rfl rfl rfl (fun _ => id) fun _ _ _ => rfl
    by_cases ht : t' = t
    · subst ht
      cases h.side t' with
      | asked hcallback hevent hsetBy _ hready hentry hexit =>
        obtain rfl := hevent op hset
        exact .picked hcallback hevent (by simp [hsetBy]) hready hexit
      | rests _ hrests | acked _ hrests | passed _ hrests => simp [hrests.event op] at hset
      | picked _ _ hcontrol' | cleared _ _ hcontrol' => simp [hcontrol'] at hcontrol
      | starting _ _ hevent => simp [hevent op] at hset
    · exact (h.side t').same ⟨rfl, rfl, rfl, .inl (by simp [ht]), rfl, rfl, rfl, fun _ => rfl,
        fun _ => id⟩
  · cases hs

/-- A thread in the case of a D0 event does what the callback waits for. -/
inductive D0Case (s : State) (t : Thread) (op : PowerOp) : Stage → Prop
  | picked (hevent : ∀ op', s.d0Event t op' = true → op' = op) : D0Case s t op .clearEvent
  | cleared {stage : Stage} (hevent : ∀ op', s.d0Event t op' = false)
      (hstage : stage = .target ∨ stage = .ready ∧ s.ran t op = s.calls)
      (hentry : t = .int → s.d0EntryState = decide (op = .d0Entry))
      (hexit : t = .int → op = .d0Entry → s.d0ExitState = false) : D0Case s t op stage

theorem Side.d0Case (h : Side s t) {stage : Stage} {call : Nat}
    (hc : s.control t = .d0 op stage call) :
    call = s.calls ∧ s.callback = some ⟨op, t, .await⟩ ∧ (∀ op', s.readyEvent t op' = false) ∧
      D0Case s t op stage := by
  cases h with
  | picked hcallback hevent hcontrol hready =>
    obtain ⟨rfl, rfl, rfl⟩ : _ ∧ _ ∧ _ := by simpa using hcontrol.symm.trans hc
    exact ⟨rfl, hcallback, hready, .picked hevent⟩
  | cleared hcallback hevent hcontrol hstage hready hentry hexit =>
    obtain ⟨rfl, rfl, rfl⟩ : _ ∧ _ ∧ _ := by simpa using hcontrol.symm.trans hc
    exact ⟨rfl, hcallback, hready, .cleared hevent hstage hentry hexit⟩
  | rests _ hrests | acked _ hrests | passed _ hrests =>
    simpa [hc, Control.inD0] using hrests.control
  | asked _ _ _ hcontrol => simp [hc, Control.inD0] at hcontrol
  | starting _ _ _ hcontrol => simp [hc, Control.inD0] at hcontrol

/-- A step in the case of a D0 event keeps the handshake with the other thread. -/
theorem Inv.of_d0 (h : Inv s) (hc : s.callback = some ⟨op, t, .await⟩) (hside : Side s' t)
    (hother : ∀ t', t' ≠ t → Same s s' t') (hcallback : s'.callback = s.callback)
    (hnext : s'.next = s.next) (hcalls : s'.calls = s.calls) : Inv s' := by
  refine h.of_side (fun t' => ?_) hcallback hnext hcalls (fun he hexit => ?_) fun op' phase hc' => ?_
  · by_cases ht : t' = t
    · rwa [ht]
    · exact (h.side t').same (hother t' ht)
  · cases t with
    | read => exact (hother .int (by simp)).exit rfl hexit
    | int => cases op <;> simp [State.Entered, hc] at he
  · obtain ⟨rfl, rfl, rfl⟩ : _ ∧ _ ∧ _ := by simpa using hc.symm.trans hc'
    exact congrFun (hother .read (by simp)).ran op

theorem Inv.clearEvent (h : Inv s) {call : Nat} (hc : s.control t = .d0 op .clearEvent call)
    (hs : s.d0Step t op .clearEvent call = some s') : Inv s' := by
  obtain ⟨rfl, hcallback, hready, hcase⟩ := (h.side t).d0Case hc
  have hevent : ∀ op', update s.d0Event t op false t op' = false := by
    intro op'
    cases hcase with
    | picked hevent =>
      by_cases hop : op' = op
      · simp [hop]
      · simpa [hop] using fun hset => hop (hevent op' hset)
    | cleared hevent => simp [hevent]
  cases t with
  | read =>
    cases hs
    refine h.of_d0 hcallback ?_ (fun t' ht => ?_) rfl rfl rfl
    · have hcontrol : Function.update s.control .read (.d0 op .target s.calls) .read =
          .d0 op .target s.calls := Function.update_self ..
      exact .cleared hcallback hevent hcontrol (.inl rfl) hready (by simp) (by simp)
    · exact ⟨rfl, by simp [update, ht], rfl, .inl (by simp [ht]), rfl, rfl, rfl, fun _ => rfl,
        fun _ => id⟩
  | int =>
    cases hs
    refine h.of_d0 hcallback ?_ (fun t' ht => ?_) rfl rfl rfl
    · have hcontrol : Function.update s.control .int (.d0 op .target s.calls) .int =
          .d0 op .target s.calls := Function.update_self ..
      exact .cleared hcallback hevent hcontrol (.inl rfl) hready (by simp)
        fun _ hop => by simp [hop]
    · exact ⟨rfl, by simp [update, ht], rfl, .inl (by simp [ht]), rfl, rfl, rfl,
        fun hint => absurd hint ht, fun hint => absurd hint ht⟩

theorem Inv.target (h : Inv s) {call : Nat} (hc : s.control t = .d0 op .target call)
    (hs : s.d0Step t op .target call = some s') : Inv s' := by
  obtain ⟨rfl, hcallback, hready, hcase⟩ := (h.side t).d0Case hc
  simp only [State.d0Step] at hs
  split at hs
  · cases hs
  · cases hs
    cases hcase with
    | cleared hevent hstage hentry hexit =>
      refine h.of_d0 hcallback ?_ (fun t' ht => ?_) rfl rfl rfl
      · have hcontrol : Function.update s.control t (.d0 op .ready s.calls) t =
            .d0 op .ready s.calls := Function.update_self ..
        exact .cleared hcallback hevent hcontrol (.inr (by simp)) hready hentry hexit
      · exact ⟨rfl, rfl, rfl, .inl (by simp [ht]), rfl, by simp [note, ht], rfl, fun _ => rfl,
          fun _ => id⟩

theorem Inv.ready (h : Inv s) {call : Nat} (hc : s.control t = .d0 op .ready call)
    (hs : s.d0Step t op .ready call = some s') : Inv s' := by
  obtain ⟨rfl, hcallback, hready, hcase⟩ := (h.side t).d0Case hc
  cases hcase with
  | cleared hevent hstage hentry hexit =>
    have hran : s.ran t op = s.calls := by simpa using hstage
    -- only the interrupt thread puts the answer off, and only for an entry
    have hacked : (t = .int → op = .d0Exit) →
        Inv ({ s with readyEvent := update s.readyEvent t op true }.goto t .wait) := by
      intro hop
      refine h.of_d0 hcallback ?_ (fun t' ht => ?_) rfl rfl rfl
      · refine .acked hcallback ⟨hevent, by simp [Control.inD0], fun ht => ?_⟩ (by simp [hready])
          hran hexit
        have hentry := hentry ht
        rw [hop ht] at hentry
        exact hentry
      · exact ⟨rfl, rfl, by simp [update, ht], .inl (by simp [ht]), rfl, rfl, rfl, fun _ => rfl,
          fun _ => id⟩
    cases t with
    | read =>
      cases op <;> cases hs <;> exact hacked (by simp)
    | int =>
      cases op with
      | d0Exit =>
        cases hs
        exact hacked fun _ => rfl
      | d0Entry =>
        cases hs
        refine h.of_d0 hcallback ?_ (fun t' ht => ?_) rfl rfl rfl
        · exact .starting rfl hcallback hevent (by simp [Control.inD0]) hran hready (hexit rfl rfl)
        · exact ⟨rfl, rfl, rfl, .inl (by simp [ht]), rfl, rfl, rfl, fun _ => rfl, fun _ => id⟩

/-! ## The interrupt thread -/

/-- A step of the interrupt thread or of its request that sets no ready event. -/
theorem Inv.unanswered (h : Inv s) (hcallback : s'.callback = s.callback)
    (hevent : s'.d0Event = s.d0Event) (hready : s'.readyEvent = s.readyEvent)
    (hread : s'.control .read = s.control .read)
    (hint : s'.control .int = s.control .int ∨
      (s.control .int).inD0 = false ∧ (s'.control .int).inD0 = false)
    (hentry : s'.d0EntryState = s.d0EntryState) (hexit : s'.d0ExitState = s.d0ExitState)
    (hobserver : s'.next = s.next ∧ s'.setBy = s.setBy ∧ s'.ran = s.ran ∧ s'.calls = s.calls) :
    Inv s' := by
  obtain ⟨hnext, hset, hran, hcalls⟩ := hobserver
  refine h.same (fun t => ?_) hnext
  have hcontrol : s'.control t = s.control t ∨
      (s.control t).inD0 = false ∧ (s'.control t).inD0 = false := by
    cases t with
    | read => exact .inl hread
    | int => exact hint
  exact ⟨hcallback, congrFun hevent t, congrFun hready t, hcontrol, congrFun hset t,
    congrFun hran t, hcalls, fun _ => hentry, fun _ => hexit.trans⟩

/-- An acknowledgement in time finds the exit done, and changes nothing for the callback. -/
theorem Side.acksInTime (h : Side s .int) (hc : s.control .int = .completed)
    (hexit : s.d0ExitState = true)
    (hok : s.callback = some ⟨.d0Exit, .int, .await⟩ ∨
      s.callback = some ⟨.d0Exit, .int, .clearReady⟩) :
    Side ({ s with
      d0ExitState := false
      readyEvent := update s.readyEvent .int .d0Exit true }.goto .int .wait) .int := by
  rcases hok with hawait | hclear
  · cases h with
    | rests hcallback => exact absurd hawait (hcallback _).1
    | asked hcallback _ _ _ _ _ hexit' =>
      obtain ⟨rfl⟩ := hcallback.symm.trans hawait
      simp [hexit' rfl rfl] at hexit
    | picked _ _ hcontrol | cleared _ _ hcontrol => simp [hc] at hcontrol
    | starting _ _ _ _ _ _ hexit' => simp [hexit'] at hexit
    | acked hcallback hrests hready hran =>
      obtain ⟨rfl⟩ := hcallback.symm.trans hawait
      refine .acked hawait ⟨hrests.event, by simp [Control.inD0], hrests.entry⟩ (fun op hset => ?_)
        hran (by simp)
      by_cases hop : op = .d0Exit
      · exact hop
      · exact hready op (by simpa [hop] using hset)
    | passed hcallback => simp [hawait] at hcallback
  · obtain ⟨hrests, hready, hran⟩ := h.passed_of hclear
    refine .passed hclear ⟨hrests.event, by simp [Control.inD0], hrests.entry⟩ (fun op hset => ?_)
      hran
    by_cases hop : op = .d0Exit
    · exact hop
    · exact hready op (by simpa [hop] using hset)

theorem Inv.completed (h : Inv s) (hc : s.control .int = .completed) (succeeded : Bool)
    (hok : s.d0ExitState = true → s.callback = some ⟨.d0Exit, .int, .await⟩ ∨
      s.callback = some ⟨.d0Exit, .int, .clearReady⟩) : Inv (s.completedStep succeeded) := by
  have hint : (s.control .int).inD0 = false := by rw [hc]; rfl
  unfold State.completedStep
  split
  · rename_i hexit
    refine h.of_side (fun t => ?_) rfl rfl rfl (fun _ _ => rfl) fun _ _ _ => rfl
    cases t with
    | read =>
      exact (h.side .read).same ⟨rfl, rfl, by simp [update], .inl (by simp), rfl, rfl, rfl, by simp,
        by simp⟩
    | int => exact (h.side .int).acksInTime hc hexit (hok hexit)
  · exact h.unanswered rfl rfl rfl (by simp) (.inr ⟨hint, by simp [Control.inD0]⟩) rfl rfl
      ⟨rfl, rfl, rfl, rfl⟩

/-- The request of an entry is sent: the entry is done. -/
theorem Inv.entered_sent (h : Inv s) (hint : (s.control .int).inD0 = false)
    (hentry : s.d0EntryState = true) :
    Inv { { s with sent := true }.goto .int .wait with
      d0EntryState := false
      readyEvent := update s.readyEvent .int .d0Entry true } := by
  have hrests : ¬ s.Rests .int := fun hrests => by simp [hrests.entry rfl] at hentry
  refine h.of_side (fun t => ?_) rfl rfl rfl (fun _ => id) fun _ _ _ => rfl
  cases t with
  | read =>
    exact (h.side .read).same ⟨rfl, rfl, by simp [update], .inl (by simp), rfl, rfl, rfl, by simp,
      by simp⟩
  | int =>
    cases h.side .int with
    | rests _ hrests' | acked _ hrests' | passed _ hrests' => exact absurd hrests' hrests
    | asked _ _ _ _ _ hentry' => simp [hentry' rfl] at hentry
    | picked _ _ hcontrol | cleared _ _ hcontrol => simp [hcontrol, Control.inD0] at hint
    | starting _ hcallback hevent _ hran hready hexit =>
      exact .acked hcallback ⟨hevent, by simp [Control.inD0], fun _ => rfl⟩ (by simp [hready]) hran
        fun _ _ => hexit

theorem Inv.started (h : Inv s) (hc : s.control .int = .started) (a : Answers)
    (hworks : (s.startedStep limit a).deviceFailed = false) : Inv (s.startedStep limit a) := by
  have hint : (s.control .int).inD0 = false := by rw [hc]; rfl
  unfold State.startedStep at hworks ⊢
  split
  · rename_i hfails
    simp [hfails, State.fail] at hworks
  · rename_i hfails
    rw [if_neg hfails] at hworks
    split
    · dsimp only
      split
      · rename_i hentry
        exact h.entered_sent hint hentry
      · exact h.unanswered rfl rfl rfl (by simp) (.inr ⟨hint, by simp [Control.inD0]⟩) rfl rfl
          ⟨rfl, rfl, rfl, rfl⟩
    · rename_i hsent
      rw [if_neg hsent] at hworks
      dsimp only at hworks ⊢
      generalize (if a.printed = true then s.errcnt + 1 else s.errcnt) = errcnt at hworks ⊢
      generalize State.resetLoop a.reset (limit - errcnt) errcnt = result at hworks ⊢
      split
      · exact h.unanswered rfl rfl rfl (by simp) (.inr ⟨hint, by simp [Control.inD0]⟩) rfl rfl
          ⟨rfl, rfl, rfl, rfl⟩
      · rename_i hreset
        rw [if_neg hreset] at hworks
        simp [State.fail] at hworks

/-! ## All steps -/

theorem Good.of_inv (h : Good s) (hreturned : s'.returned = s.returned)
    (hworks : s'.deviceFailed = false → s.deviceFailed = false)
    (hinv : Inv s → s'.deviceFailed = false → Inv s') : Good s' := by
  refine ⟨?_, fun hf => hinv (h.2 (hworks hf)) hf⟩
  unfold State.Fresh
  rw [hreturned]
  exact h.1

theorem startedStep_frame (limit : Nat) (s : State) (a : Answers) :
    (s.startedStep limit a).returned = s.returned ∧
      ((s.startedStep limit a).deviceFailed = false → s.deviceFailed = false) := by
  unfold State.startedStep
  split
  · exact ⟨rfl, fun hf => by simp [State.fail] at hf⟩
  · split
    · dsimp only
      split <;> exact ⟨rfl, id⟩
    · dsimp only
      generalize (if a.printed = true then s.errcnt + 1 else s.errcnt) = errcnt
      generalize State.resetLoop a.reset (limit - errcnt) errcnt = result
      split
      · exact ⟨rfl, id⟩
      · exact ⟨rfl, fun hf => by simp [State.fail] at hf⟩

theorem Good.d0Step (h : Good s) {stage : Stage} {call : Nat}
    (hc : s.control t = .d0 op stage call) (hs : s.d0Step t op stage call = some s') : Good s' := by
  have hframe : s'.returned = s.returned ∧ s'.deviceFailed = s.deviceFailed := by
    unfold State.d0Step at hs
    split at hs
    · cases hs; exact ⟨rfl, rfl⟩
    · cases hs; exact ⟨rfl, rfl⟩
    · split at hs
      · cases hs
      · cases hs; exact ⟨rfl, rfl⟩
    · cases hs; exact ⟨rfl, rfl⟩
    · cases hs; exact ⟨rfl, rfl⟩
  refine h.of_inv hframe.1 (fun hf => hframe.2 ▸ hf) fun hinv _ => ?_
  cases stage with
  | clearEvent => exact hinv.clearEvent hc hs
  | target => exact hinv.target hc hs
  | ready => exact hinv.ready hc hs

theorem Good.thread (h : Good s) {a : Answers} (hok : AcksInTime s (.thread t a))
    (hs : s.threadStep limit t a = some s') : Good s' := by
  unfold State.threadStep at hs
  split at hs
  · cases hs
  · rename_i op stage call hc
    exact h.d0Step hc hs
  · rename_i hc
    cases hs
    refine h.of_inv rfl id fun hinv _ => hinv.unanswered rfl rfl rfl (by simp) (.inr ?_) rfl rfl
      ⟨rfl, rfl, rfl, rfl⟩
    exact ⟨by rw [hc]; rfl, by simp [Control.inD0]⟩
  · rename_i hc
    cases hs
    refine h.of_inv ?_ ?_ fun hinv _ => hinv.completed hc a.succeeded fun hexit => hok hc hexit
    · unfold State.completedStep
      split <;> rfl
    · unfold State.completedStep
      split <;> exact id
  · rename_i hc
    cases hs
    refine h.of_inv rfl id fun hinv _ => hinv.unanswered rfl rfl rfl (by simp) (.inr ?_) rfl rfl
      ⟨rfl, rfl, rfl, rfl⟩
    exact ⟨by rw [hc]; rfl, by simp [Control.inD0]⟩
  · rename_i hc
    cases hs
    obtain ⟨hreturned, hworks⟩ := startedStep_frame limit s a
    exact h.of_inv hreturned hworks fun hinv hf => hinv.started hc a hf
  · cases hs

theorem Good.step {i : Op} (h : Good s) (hok : AcksInTime s i) (hs : s.step limit i = some s') :
    Good s' := by
  cases i with
  | call =>
    have hs : s.call = some s' := hs
    have hframe : s'.returned = s.returned ∧ s'.deviceFailed = s.deviceFailed := by
      unfold State.call at hs
      split at hs <;> cases hs
      exact ⟨rfl, rfl⟩
    exact h.of_inv hframe.1 (fun hf => hframe.2 ▸ hf) fun hinv _ => hinv.call hs
  | callback => exact h.callbackStep hs
  | wakeD0 t op =>
    have hs : s.wakeD0 t op = some s' := hs
    have hframe : s'.returned = s.returned ∧ s'.deviceFailed = s.deviceFailed := by
      unfold State.wakeD0 at hs
      split at hs <;> cases hs
      exact ⟨rfl, rfl⟩
    exact h.of_inv hframe.1 (fun hf => hframe.2 ▸ hf) fun hinv _ => hinv.wakeD0 hs
  | wakeCompletion =>
    simp only [State.step] at hs
    split at hs
    · rename_i hwake
      cases hs
      refine h.of_inv rfl id fun hinv _ => hinv.unanswered rfl rfl rfl (by simp) (.inr ?_) rfl rfl
        ⟨rfl, rfl, rfl, rfl⟩
      exact ⟨by rw [hwake.1]; rfl, by simp [Control.inD0]⟩
    · cases hs
  | wakeStart =>
    simp only [State.step] at hs
    split at hs
    · rename_i hwake
      cases hs
      refine h.of_inv rfl id fun hinv _ => hinv.unanswered rfl rfl rfl (by simp) (.inr ?_) rfl rfl
        ⟨rfl, rfl, rfl, rfl⟩
      exact ⟨by rw [hwake.1]; rfl, by simp [Control.inD0]⟩
    · cases hs
  | thread t a => exact h.thread hok hs
  | requestCompletes =>
    simp only [State.step] at hs
    split at hs
    · cases hs
      exact h.of_inv rfl id fun hinv _ => hinv.unanswered rfl rfl rfl rfl (.inl rfl) rfl rfl
        ⟨rfl, rfl, rfl, rfl⟩
    · cases hs

/-! ## Runs -/

/-- If the completion case acknowledges exits in time only, every callback that returns while the
device works returns after both threads have stopped or started their target for it. -/
theorem powerHandshake_fresh (limit : Nat) (ops : List Op)
    (hok : ∀ p ∈ (powerHandshake limit).fires startedState ops, AcksInTime p.1 p.2) :
    ∀ s ∈ (powerHandshake limit).visits startedState ops, s.Fresh := by
  have hstep : ∀ s i s' (o : Unit), Good s → AcksInTime s i →
      powerHandshake limit s i = some (s', o) → Good s' := by
    intro s i s' o hs hi hstep
    exact hs.step hi (by simpa [powerHandshake] using hstep)
  have hstart : Good startedState :=
    ⟨fun r hr => by simp [startedState] at hr, fun _ => startedState_inv⟩
  exact fun s hs => (visits_all_of_fires hstep hstart hok s hs).1

/-- Every call succeeds. -/
def answers : Answers := ⟨true, true, true, false, fun _ => true⟩

/-- A callback up to the end of its part for the read thread. -/
def readOps (op : PowerOp) : List Op :=
  [.call, .callback, .callback, .wakeD0 .read op, .thread .read answers, .thread .read answers,
    .thread .read answers, .callback, .callback]

/-- An entry: the interrupt thread sends its request. -/
def entryOps : List Op :=
  readOps .d0Entry ++ [.callback, .callback, .wakeD0 .int .d0Entry, .thread .int answers,
    .thread .int answers, .thread .int answers, .wakeStart, .thread .int answers,
    .thread .int answers, .callback, .callback]

/-- An exit up to the ready event of the interrupt thread: the request is cancelled. -/
def exitOps : List Op :=
  readOps .d0Exit ++ [.callback, .callback, .wakeD0 .int .d0Exit, .thread .int answers,
    .requestCompletes, .thread .int answers, .thread .int answers]

/-- The interrupt thread handles the completion of its request. -/
def completionOps : List Op := [.wakeCompletion, .thread .int answers, .thread .int answers]

/-- The completion is handled before the callback goes on, in two cycles. -/
theorem powerHandshake_fresh_inTime :
    ∃ s ∈ (powerHandshake 10).visits startedState
        (entryOps ++ exitOps ++ completionOps ++ [.callback, .callback] ++
          entryOps ++ exitOps ++ completionOps ++ [.callback, .callback]),
      s.Fresh ∧ s.returned.length = 4 ∧ s.deviceFailed = false := by
  have hlast := List.getLast_mem (List.ne_nil_of_mem (Machine.start_mem_visits
    (M := powerHandshake 10) startedState
    (entryOps ++ exitOps ++ completionOps ++ [.callback, .callback] ++
      entryOps ++ exitOps ++ completionOps ++ [.callback, .callback])))
  refine ⟨_, hlast, ?_, by decide +kernel, by decide +kernel⟩
  exact powerHandshake_fresh _ _ (by decide +kernel) _ hlast

/-- The first exit returns before the completion is handled, and the second exit returns before the
interrupt thread has woken up. -/
theorem powerHandshake_fresh_stale :
    ¬ ∀ s ∈ (powerHandshake 10).visits startedState
        (entryOps ++ exitOps ++ [.callback, .callback] ++ completionOps ++
          entryOps ++ readOps .d0Exit ++ [.callback, .callback, .callback, .callback]), s.Fresh := by
  intro hall
  have hfresh := hall _ (List.getLast_mem (List.ne_nil_of_mem (Machine.start_mem_visits _ _)))
  have hran := hfresh _ (List.getLast_mem (List.ne_nil_of_length_pos (by decide +kernel)))
    (by decide +kernel) .int
  revert hran
  decide +kernel

end WdfSerial.Power
