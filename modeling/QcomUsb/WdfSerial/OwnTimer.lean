-- SUMMARY: Which setting of the timer has a read timed out, and when that is always one of its own.
import QcomUsb.WdfSerial.TimerSteps

/-!
# A read times out by its own timer

The marks kept beside a run say at which step the timer was set that is armed, queued as a
DPC or set as an event, and at which step each read entered the timeout queue.
-/

namespace WdfSerial

open Transition Machine

/-! ## Marks -/

/-- What has timed a read out. -/
structure TimedOut where
  /-- The step in which the read entered the timeout queue. -/
  entered : Option Nat
  /-- The step in which the timer was set whose expiry the thread has woken up from. -/
  set : Option Nat
  /-- The read entered in one of the cases 1, 2 and 7, and the timeouts have stayed as they were. -/
  noTimeout : Bool

/-- The marks beside a state. A timer, a DPC and an event are marked with the step of their
`KeSetTimer`, the latest if there are several. -/
structure Marks where
  now : Nat
  entered : Nat → Option Nat
  noTimeout : Nat → Bool
  timer : Option Nat
  dpc : Option Nat
  event : Option Nat
  /-- The mark of the event the timeout case has begun with. -/
  woken : Option Nat
  timedOut : List TimedOut

def Marks.start : Marks := ⟨0, fun _ => none, fun _ => false, none, none, none, none, []⟩

/-- A read enters the timeout queue. -/
def enters (s s' : State) (seq : Nat) : Bool :=
  s'.timeoutReadQueue.any fun r => r.seq == seq && !s.timeoutReadQueue.contains r

/-- The marks after the step `op` from `s` to `s'`. -/
def Marks.next (m : Marks) (s : State) (op : Op) (s' : State) : Marks where
  now := m.now + 1
  entered seq := if enters s s' seq then some m.now else m.entered seq
  noTimeout seq :=
    if enters s s' seq then s.readTimeout.ucTimeoutType.isNoTimeout
    else
      match op with
      | .setTimeout _ => false
      | _ => m.noTimeout seq
  timer := if s.setsTimer op then some m.now else if s'.readTimer then m.timer else none
  dpc :=
    match op with
    | .timerExpires => m.timer
    | _ => if s'.readTimeoutDpc then m.dpc else none
  event :=
    match op with
    | .timeoutDpc => m.dpc
    | _ => if s'.events .requestTimeout then m.event else none
  woken :=
    match op with
    | .wake .requestTimeout => m.event
    | _ => m.woken
  timedOut := m.timedOut ++
    ((s'.completed.drop s.completed.length).filter fun c => c.status = .timeout).map fun c =>
      ⟨m.entered c.request.seq, m.woken, m.noTimeout c.request.seq⟩

/-- The read thread with its marks. Only the DPC sets the timeout event. -/
def marked (d : VendorConfig) : Machine (State × Marks) Op Unit := fun p op =>
  match op with
  | .setEvent .requestTimeout => none
  | _ => (p.1.step d op).map fun s' => ((s', p.2.next p.1 op s'), ())

/-! ## Own timers -/

/-- The read was timed out by a timer set in the step in which it entered the timeout queue or
later, and it did not wait without a timeout. -/
structure TimedOut.Own (r : TimedOut) : Prop where
  set : ∃ e t, r.entered = some e ∧ r.set = some t ∧ e ≤ t
  timeout : r.noTimeout = false

/-- All reads timed out so far were timed out by their own timers. -/
def OwnTimers (p : State × Marks) : Prop := ∀ r ∈ p.2.timedOut, r.Own

/-- A read that enters the timeout queue meets no expiry of an earlier timer: no DPC is queued,
the event is not set, and the timer is not armed or is set anew for the read. -/
def EntersClean (s : State) (op : Op) : Prop :=
  s.forwards op = true →
    s.readTimeoutDpc = false ∧ s.events .requestTimeout = false ∧
      (s.readTimer = false ∨ s.setsTimer op = true)

instance (s : State) (op : Op) : Decidable (EntersClean s op) :=
  inferInstanceAs (Decidable (s.forwards op = true → _))

/-! ## Expiries -/

variable {d : VendorConfig} {s s' : State} {m : Marks} {op : Op}

/-- An expiry of the timer that is still to come, with the mark of its timer: the timer is
armed, the DPC is queued, the event is set, or the thread is in the timeout case. -/
inductive Expiry (s : State) (m : Marks) : Option Nat → Prop
  | timer (h : s.readTimer = true) : Expiry s m m.timer
  | dpc (h : s.readTimeoutDpc = true) : Expiry s m m.dpc
  | event (h : s.events .requestTimeout = true) : Expiry s m m.event
  | woken (h : s.control = .timeout) : Expiry s m m.woken

/-- What holds of the marks. A read that waits entered before the timer of every expiry to come was
set, and there is no expiry to come if it waits without a timeout. -/
structure Marks.Inv (s : State) (m : Marks) : Prop where
  marked : ∀ t, Expiry s m t → ∃ n, t = some n ∧ n < m.now
  own : ∀ r ∈ s.timeoutReadQueue, ∃ e, m.entered r.seq = some e ∧ e < m.now ∧
    ∀ n, Expiry s m (some n) → e ≤ n
  untimed : ∀ r ∈ s.timeoutReadQueue, m.noTimeout r.seq = true →
    s.readTimeout.bUseReadInterval = false ∧ ∀ t, ¬ Expiry s m t
  config : s.readTimeout.bUseReadInterval = true →
    s.readTimeout.ucTimeoutType.isNoTimeout = false
  timedOut : ∀ r ∈ m.timedOut, r.Own

theorem Marks.next_dpc (hop : op ≠ .timerExpires) (hset : s'.readTimeoutDpc = true) :
    (m.next s op s').dpc = m.dpc := by
  cases op with
  | timerExpires => exact absurd rfl hop
  | _ => exact if_pos hset

theorem Marks.next_event (hop : op ≠ .timeoutDpc) (hset : s'.events .requestTimeout = true) :
    (m.next s op s').event = m.event := by
  cases op with
  | timeoutDpc => exact absurd rfl hop
  | _ => exact if_pos hset

theorem Marks.next_woken (hop : op ≠ .wake .requestTimeout) : (m.next s op s').woken = m.woken := by
  cases op with
  | wake e =>
    cases e with
    | requestTimeout => exact absurd rfl hop
    | _ => rfl
  | _ => rfl

/-- An expiry to come was to come before the step, or its timer was set in the step. -/
theorem Expiry.of_next {t : Option Nat} (hs : s.step d op = some s') (h : TimerStep s op s')
    (hx : Expiry s' (m.next s op s') t) :
    Expiry s m t ∨ (s.setsTimer op = true ∧ t = some m.now) := by
  cases hx with
  | timer hset =>
    by_cases hsets : s.setsTimer op = true
    · right
      exact ⟨hsets, if_pos hsets⟩
    · left
      have hmark : (m.next s op s').timer = m.timer := (if_neg hsets).trans (if_pos hset)
      rw [hmark]
      exact .timer ((h.timer hset).resolve_right hsets)
  | dpc hset =>
    left
    by_cases hop : op = .timerExpires
    · subst hop
      cases step_cases hs with
      | expires htimer => exact .timer htimer
    · rw [Marks.next_dpc hop hset]
      exact .dpc ((h.dpc hset).resolve_right hop)
  | event hset =>
    left
    by_cases hop : op = .timeoutDpc
    · subst hop
      cases step_cases hs with
      | dpc hdpc => exact .dpc hdpc
    · rw [Marks.next_event hop hset]
      exact .event ((h.event hset).resolve_right hop)
  | woken hc =>
    left
    by_cases hop : op = .wake .requestTimeout
    · subst hop
      cases step_cases hs with
      | wake _ he => exact .event he
    · rw [Marks.next_woken hop]
      exact .woken ((h.control hc).resolve_right hop)

/-- A read that enters the timeout queue clean is followed by expiries of its own timer only. -/
theorem Expiry.of_forwards {t : Option Nat} (h : TimerStep s op s')
    (hforwards : s.forwards op = true) (hclean : EntersClean s op)
    (hx : Expiry s' (m.next s op s') t) : s.setsTimer op = true ∧ t = some m.now := by
  obtain ⟨hdpc, hevent, htimer⟩ := hclean hforwards
  obtain ⟨hc, ok, rfl⟩ := control_of_forwards hforwards
  cases hx with
  | timer hset =>
    have hsets : s.setsTimer (.thread ok) = true := by
      rcases htimer with hoff | hsets
      · exact (h.timer hset).resolve_left (by simp [hoff])
      · exact hsets
    exact ⟨hsets, if_pos hsets⟩
  | dpc hset => exact absurd ((h.dpc hset).resolve_right Op.noConfusion) (by simp [hdpc])
  | event hset => exact absurd ((h.event hset).resolve_right Op.noConfusion) (by simp [hevent])
  | woken hset => exact absurd ((h.control hset).resolve_right Op.noConfusion) (by simp [hc])

/-! ## The marks after a step -/

theorem enters_of_subset (h : s'.timeoutReadQueue ⊆ s.timeoutReadQueue) (seq : Nat) :
    enters s s' seq = false := by
  refine List.any_eq_false.mpr fun r hr => ?_
  simp [h hr]

theorem enters_of_nil {r : ReadRequest} (h : s.timeoutReadQueue = [])
    (h' : s'.timeoutReadQueue = [r]) : enters s s' r.seq = true := by
  simp [enters, h, h']

theorem Marks.next_noTimeout {seq : Nat} (henters : enters s s' seq = false)
    (h : (m.next s op s').noTimeout seq = true) :
    m.noTimeout seq = true ∧ ∀ t, op ≠ .setTimeout t := by
  simp only [Marks.next, henters, Bool.false_eq_true, if_false] at h
  split at h
  · exact absurd h Bool.false_ne_true
  · rename_i hop
    exact ⟨h, hop⟩

namespace Marks.Inv

/-- A read that waits keeps its mark, and all expiries stay its own. -/
theorem own_kept (hinv : m.Inv s) (hs : s.step d op = some s') (h : TimerStep s op s')
    (hsub : s'.timeoutReadQueue ⊆ s.timeoutReadQueue) :
    ∀ r ∈ s'.timeoutReadQueue, ∃ e, (m.next s op s').entered r.seq = some e ∧
      e < m.now + 1 ∧ ∀ n, Expiry s' (m.next s op s') (some n) → e ≤ n := by
  intro r hr
  obtain ⟨e, he, hlt, hown⟩ := hinv.own r (hsub hr)
  have hentered : (m.next s op s').entered r.seq = m.entered r.seq :=
    if_neg (by simp [enters_of_subset hsub])
  refine ⟨e, hentered.trans he, Nat.lt_succ_of_lt hlt, fun n hx => ?_⟩
  rcases hx.of_next hs h with hold | ⟨-, hnow⟩
  · exact hown n hold
  · rw [Option.some.inj hnow]
    exact Nat.le_of_lt hlt

theorem untimed_kept (hinv : m.Inv s) (hs : s.step d op = some s') (h : TimerStep s op s')
    (hsub : s'.timeoutReadQueue ⊆ s.timeoutReadQueue) :
    ∀ r ∈ s'.timeoutReadQueue, (m.next s op s').noTimeout r.seq = true →
      s'.readTimeout.bUseReadInterval = false ∧ ∀ t, ¬ Expiry s' (m.next s op s') t := by
  intro r hr hno
  obtain ⟨hno, hop⟩ := Marks.next_noTimeout (enters_of_subset hsub r.seq) hno
  obtain ⟨hinterval, hnone⟩ := hinv.untimed r (hsub hr) hno
  have hconfig : s'.readTimeout = s.readTimeout :=
    h.config.resolve_right fun ⟨t, heq, _⟩ => hop t heq
  refine ⟨hconfig ▸ hinterval, fun t hx => ?_⟩
  rcases hx.of_next hs h with hold | ⟨hsets, -⟩
  · exact hnone t hold
  · have hon := interval_of_setsTimer hsets (List.ne_nil_of_mem (hsub hr))
    exact absurd hon (by simp [hinterval])

theorem untimed_forwarded (hinv : m.Inv s) (h : TimerStep s op s') {r : ReadRequest}
    (hforwards : s.forwards op = true) (hclean : EntersClean s op) (hnil : s.timeoutReadQueue = [])
    (hone : s'.timeoutReadQueue = [r]) (hno : (m.next s op s').noTimeout r.seq = true) :
    s'.readTimeout.bUseReadInterval = false ∧ ∀ t, ¬ Expiry s' (m.next s op s') t := by
  have htype : s.readTimeout.ucTimeoutType.isNoTimeout = true := by
    simpa [Marks.next, enters_of_nil hnil hone] using hno
  obtain ⟨-, ok, rfl⟩ := control_of_forwards hforwards
  have hconfig : s'.readTimeout = s.readTimeout :=
    h.config.resolve_right fun ⟨_, heq, _⟩ => Op.noConfusion heq
  constructor
  · rw [hconfig]
    by_contra hon
    have hnot := hinv.config (Bool.eq_true_of_not_eq_false hon)
    exact absurd htype (by simp [hnot])
  · intro t hx
    obtain ⟨hsets, -⟩ := hx.of_forwards h hforwards hclean
    exact absurd hsets (by simp [setsTimer_isNoTimeout hforwards htype])

/-- A read is timed out in the timeout case, with an expiry of its own. -/
theorem timedOut_next (hinv : m.Inv s) (h : TimerStep s op s') :
    ∀ r ∈ (m.next s op s').timedOut, r.Own := by
  intro r hr
  rcases List.mem_append.mp hr with hold | hnew
  · exact hinv.timedOut r hold
  · obtain ⟨cs, hcs, htimeout⟩ := h.completed
    rw [hcs, List.drop_left] at hnew
    obtain ⟨c, hc, rfl⟩ := List.mem_map.mp hnew
    obtain ⟨hc, hstatus⟩ := List.mem_filter.mp hc
    obtain ⟨hcontrol, hmem⟩ := htimeout c hc (of_decide_eq_true hstatus)
    have hx : Expiry s m m.woken := .woken hcontrol
    obtain ⟨n, hn, -⟩ := hinv.marked _ hx
    obtain ⟨e, he, -, hown⟩ := hinv.own _ hmem
    refine ⟨⟨e, n, he, hn, hown n (hn ▸ hx)⟩, ?_⟩
    exact Bool.eq_false_of_not_eq_true fun hno => (hinv.untimed _ hmem hno).2 _ hx

/-- A step keeps the marks in order when a read that enters the timeout queue enters it clean. -/
theorem step (hinv : m.Inv s) (hop : op ≠ .setEvent .requestTimeout) (hclean : EntersClean s op)
    (hs : s.step d op = some s') : (m.next s op s').Inv s' := by
  have h : TimerStep s op s' := .of_step hop hs
  constructor
  case marked =>
    intro t hx
    rcases hx.of_next hs h with hold | ⟨-, rfl⟩
    · obtain ⟨n, hn, hlt⟩ := hinv.marked t hold
      exact ⟨n, hn, Nat.lt_succ_of_lt hlt⟩
    · exact ⟨m.now, rfl, Nat.lt_succ_self _⟩
  case own =>
    rcases h.queue with hsub | ⟨hforwards, hnil, r, hone⟩
    · exact hinv.own_kept hs h hsub
    · intro r' hr'
      obtain rfl : r' = r := by simpa [hone] using hr'
      refine ⟨m.now, if_pos (enters_of_nil hnil hone), Nat.lt_succ_self _, fun n hx => ?_⟩
      obtain ⟨-, hnow⟩ := hx.of_forwards h hforwards hclean
      exact Nat.le_of_eq (Option.some.inj hnow).symm
  case untimed =>
    rcases h.queue with hsub | ⟨hforwards, hnil, r, hone⟩
    · exact hinv.untimed_kept hs h hsub
    · intro r' hr' hno
      obtain rfl : r' = r := by simpa [hone] using hr'
      exact hinv.untimed_forwarded h hforwards hclean hnil hone hno
  case config =>
    rcases h.config with hsame | ⟨t, -, hnew⟩
    · rw [hsame]
      exact hinv.config
    · rw [hnew]
      exact setTimeout_isNoTimeout
  case timedOut => exact hinv.timedOut_next h

theorem start (n : Nat) (buf : Nat → UInt8) (capacity : Nat) :
    Marks.start.Inv (setupState n buf capacity) where
  marked t hx := by cases hx with
    | timer h | dpc h | event h => exact absurd h Bool.false_ne_true
    | woken h => exact absurd h Control.noConfusion
  own r hr := absurd hr List.not_mem_nil
  untimed r hr := absurd hr List.not_mem_nil
  config h := absurd h Bool.false_ne_true
  timedOut r hr := absurd hr List.not_mem_nil

end Marks.Inv

/-! ## Runs -/

/-- Every read that is timed out is timed out by its own timer, in a run in which every read enters
the timeout queue clean. -/
theorem timed_out_by_own_timer (d : VendorConfig) (n : Nat) (buf : Nat → UInt8) (capacity : Nat)
    (ops : List Op)
    (hclean : ∀ p ∈ (marked d).fires (setupState n buf capacity, Marks.start) ops,
      EntersClean p.1.1 p.2) :
    ∀ p ∈ (marked d).visits (setupState n buf capacity, Marks.start) ops, OwnTimers p := by
  have hstep : ∀ (p : State × Marks) (op : Op) (p' : State × Marks) (o : Unit), p.2.Inv p.1 →
      EntersClean p.1 op → marked d p op = some (p', o) → p'.2.Inv p'.1 := by
    intro p op p' o hinv hclean hfire
    unfold marked at hfire
    split at hfire
    · cases hfire
    · rename_i hop
      obtain ⟨s', hs, heq⟩ := Option.map_eq_some_iff.mp hfire
      cases heq
      exact hinv.step hop hclean hs
  have hinv := visits_all_of_fires hstep (Marks.Inv.start n buf capacity) hclean
  exact fun p hp => (hinv p hp).timedOut

/-- A read with a timeout of 100 ms waits until the thread gets the event of its timer. -/
def expiredOps : List Op :=
  openOps ++ [.setTimeout ⟨0, 0, 100⟩, .readArrives 4, .wake .requestArrive, .thread true,
    .thread true, .timerExpires, .timeoutDpc, .wake .requestTimeout, .thread true]

/-- The first read is cancelled, and its timer expires while a read without a timeout waits. -/
def staleOps : List Op :=
  openOps ++ [.setTimeout ⟨0, 0, 100⟩, .readArrives 4, .wake .requestArrive, .thread true,
    .thread true, .readCancelled 0, .setTimeout ⟨0, 0, 0⟩, .readArrives 4, .wake .requestArrive,
    .thread true, .thread true, .timerExpires, .timeoutDpc, .wake .requestTimeout, .thread true]

theorem timed_out_by_own_timer_expired :
    (∃ p ∈ (marked ⟨3, 3, 16⟩).visits (setupState 3 (fun _ => 0) 64, Marks.start) expiredOps,
      p.2.timedOut ≠ []) ∧
    ∀ p ∈ (marked ⟨3, 3, 16⟩).visits (setupState 3 (fun _ => 0) 64, Marks.start) expiredOps,
      OwnTimers p := by
  constructor
  · refine ⟨_, List.getLast_mem (List.ne_nil_of_mem (start_mem_visits _ _)), ?_⟩
    decide +kernel
  · exact timed_out_by_own_timer _ _ _ _ _ (by decide +kernel)

/-- The second read waits without a timeout and is timed out by the timer of the first. -/
theorem timed_out_by_stale_timer :
    ¬ ∀ p ∈ (marked ⟨3, 3, 16⟩).visits (setupState 3 (fun _ => 0) 64, Marks.start) staleOps,
      OwnTimers p := by
  intro hall
  have hlast := hall _ (List.getLast_mem (List.ne_nil_of_mem (start_mem_visits _ _)))
  have huntimed := fun (r : TimedOut) hr => (hlast r hr).timeout
  revert huntimed
  decide +kernel

end WdfSerial
