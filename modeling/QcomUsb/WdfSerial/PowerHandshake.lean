-- SUMMARY: The D0 callbacks of the serial driver and the two threads they wait for, as a machine with one step for each event that is set, cleared or waited for.
import QcomUsb.Library.Transition

/-!
# The power handshake

`QCPNP_EvtDeviceD0Entry` and `QCPNP_EvtDeviceD0Exit` tell the read thread and then the
interrupt thread what to do, each by an event, and wait for an event that says it is
done. All of them are notification events: they stay set until somebody clears them.
Both threads are running, and the device has an interrupt pipe.
-/

namespace WdfSerial.Power

open Transition

/-! ## State -/

/-- The two callbacks. -/
inductive PowerOp
  | d0Entry | d0Exit
deriving DecidableEq

/-- The callback that clears the event of this one, and comes after it. -/
def PowerOp.opposite : PowerOp → PowerOp
  | .d0Entry => .d0Exit
  | .d0Exit => .d0Entry

/-- The threads, in the order in which a callback waits for them. -/
inductive Thread
  | read | int
deriving DecidableEq

/-- What a callback does next, in its part for one thread. -/
inductive Phase
  | clearOpposite | setEvent | await | clearReady
deriving DecidableEq

/-- A callback that has been called and has not returned. -/
structure Callback where
  op : PowerOp
  thread : Thread
  phase : Phase
deriving DecidableEq

/-- What the case of a D0 event does next. -/
inductive Stage
  | clearEvent | target | ready
deriving DecidableEq

/-- Where a thread is. The number of the callback whose event it answers is for the observer. The
read thread handles its other events at `wait`. -/
inductive Control
  | wait
  | d0 (op : PowerOp) (stage : Stage) (call : Nat)
  /-- `INT_COMPLETION_EVENT_INDEX`: its event is to be cleared. -/
  | completion
  | completed
  /-- `INT_START_SERVICE_EVENT`: its event is to be cleared. -/
  | start
  | started
deriving DecidableEq

/-- A callback that has returned: its number, the last callbacks for which the threads have stopped
or started their target by then, and whether the device has failed. -/
structure Return where
  op : PowerOp
  call : Nat
  ran : Thread → Nat
  failed : Bool

/-- The fields of the device context and the locals of the interrupt thread. An observer numbers
the callbacks (`calls`) and keeps which of them set an event last (`setBy`), for which one a thread
stopped or started its target last (`ran`), and the callbacks that have returned. -/
structure State where
  callback : Option Callback
  next : PowerOp
  d0Event : Thread → PowerOp → Bool
  readyEvent : Thread → PowerOp → Bool
  control : Thread → Control
  interruptCompletion : Bool
  interruptStartService : Bool
  d0ExitState : Bool
  d0EntryState : Bool
  errcnt : Nat
  sent : Bool
  deviceFailed : Bool
  calls : Nat
  setBy : Thread → PowerOp → Nat
  ran : Thread → PowerOp → Nat
  returned : List Return

/-- The answers of the system to the calls of the interrupt thread: the status of the request,
`WdfRequestReuse`, `WdfRequestSend`, whether the error is printed and so counted, and
`QCPNP_ResetUsbPipe` for each error count. -/
structure Answers where
  succeeded : Bool
  reused : Bool
  sent : Bool
  printed : Bool
  reset : Nat → Bool

/-- What can happen: the framework calls a callback, a callback or a thread goes on, a thread wakes
up, or the interrupt request comes back. -/
inductive Op
  | call
  | callback
  | wakeD0 (t : Thread) (op : PowerOp)
  | wakeCompletion
  | wakeStart
  | thread (t : Thread) (a : Answers)
  | requestCompletes

/-- Set or clear an event of a thread. -/
def update (f : Thread → PowerOp → Bool) (t : Thread) (op : PowerOp) (b : Bool) :
    Thread → PowerOp → Bool :=
  Function.update f t (Function.update (f t) op b)

/-- The observer notes a number. -/
def note (f : Thread → PowerOp → Nat) (t : Thread) (op : PowerOp) (n : Nat) :
    Thread → PowerOp → Nat :=
  Function.update f t (Function.update (f t) op n)

@[simp] theorem update_apply (f : Thread → PowerOp → Bool) (t t' : Thread) (op op' : PowerOp)
    (b : Bool) : update f t op b t' op' = if t' = t ∧ op' = op then b else f t' op' := by
  simp only [update, Function.update_apply]
  split
  · rename_i ht
    subst ht
    simp [Function.update_apply]
  · simp [*]

@[simp] theorem note_apply (f : Thread → PowerOp → Nat) (t t' : Thread) (op op' : PowerOp)
    (n : Nat) : note f t op n t' op' = if t' = t ∧ op' = op then n else f t' op' := by
  simp only [note, Function.update_apply]
  split
  · rename_i ht
    subst ht
    simp [Function.update_apply]
  · simp [*]

namespace State

/-- Continue a thread at a control point. -/
def goto (s : State) (t : Thread) (c : Control) : State :=
  { s with control := Function.update s.control t c }

/-! ## The callbacks -/

/-- The framework calls the callback whose turn it is. -/
def call (s : State) : Option State :=
  match s.callback with
  | some _ => none
  | none =>
    some { s with
      callback := some ⟨s.next, .read, .clearOpposite⟩
      next := s.next.opposite
      calls := s.calls + 1 }

/-- `QCPNP_EvtDeviceD0Entry` and `QCPNP_EvtDeviceD0Exit`, which differ in their events. -/
def callbackStep (s : State) : Option State :=
  match s.callback with
  | none => none
  | some ⟨op, t, .clearOpposite⟩ =>
    some { s with
      d0Event := update s.d0Event t op.opposite false
      callback := some ⟨op, t, .setEvent⟩ }
  | some ⟨op, t, .setEvent⟩ =>
    some { s with
      d0Event := update s.d0Event t op true
      setBy := note s.setBy t op s.calls
      callback := some ⟨op, t, .await⟩ }
  | some ⟨op, t, .await⟩ =>
    if s.readyEvent t op then some { s with callback := some ⟨op, t, .clearReady⟩ } else none
  | some ⟨op, t, .clearReady⟩ =>
    let s := { s with readyEvent := update s.readyEvent t op false }
    match t with
    | .read => some { s with callback := some ⟨op, .int, .clearOpposite⟩ }
    | .int =>
      some { s with
        callback := none
        returned := s.returned ++ [⟨op, s.calls, fun t => s.ran t op, s.deviceFailed⟩] }

/-! ## The threads -/

/-- The wait ends with the event of lowest index. -/
def d0First (s : State) (t : Thread) (op : PowerOp) : Bool :=
  match t, op with
  | .read, .d0Exit => true
  | .read, .d0Entry => !s.d0Event .read .d0Exit
  | .int, .d0Entry => !s.interruptCompletion && !s.interruptStartService
  | .int, .d0Exit =>
    !s.interruptCompletion && !s.interruptStartService && !s.d0Event .int .d0Entry

/-- A thread wakes up from a D0 event. -/
def wakeD0 (s : State) (t : Thread) (op : PowerOp) : Option State :=
  if s.control t = .wait ∧ s.d0Event t op ∧ s.d0First t op then
    some (s.goto t (.d0 op .clearEvent (s.setBy t op)))
  else none

/-- The case of a D0 event. `WdfIoTargetStop` returns when the interrupt request has come back. The
interrupt thread says that it is done with an entry when it has sent the request again. -/
def d0Step (s : State) (t : Thread) (op : PowerOp) (stage : Stage) (call : Nat) : Option State :=
  match stage, t, op with
  | .clearEvent, .read, op =>
    some ({ s with d0Event := update s.d0Event .read op false }.goto .read (.d0 op .target call))
  | .clearEvent, .int, op =>
    some ({ s with
      d0Event := update s.d0Event .int op false
      d0EntryState := op = PowerOp.d0Entry
      d0ExitState := op = PowerOp.d0Exit }.goto .int (.d0 op .target call))
  | .target, t, op =>
    if t = .int ∧ op = .d0Exit ∧ s.sent then none
    else some ({ s with ran := note s.ran t op call }.goto t (.d0 op .ready call))
  | .ready, .int, .d0Entry => some ({ s with interruptStartService := true }.goto .int .wait)
  | .ready, t, op => some ({ s with readyEvent := update s.readyEvent t op true }.goto t .wait)

/-- The completion case after its event is cleared. -/
def completedStep (s : State) (succeeded : Bool) : State :=
  if s.d0ExitState then
    { s with d0ExitState := false, readyEvent := update s.readyEvent .int .d0Exit true }.goto .int
      .wait
  else
    { s with
      errcnt := if succeeded then 0 else s.errcnt + 1
      interruptStartService := true }.goto .int .wait

/-- The loop that resets the pipe, with the rounds it may make: the error count it leaves, and
whether a reset succeeded. -/
def resetLoop (reset : Nat → Bool) : Nat → Nat → Nat × Bool
  | 0, errcnt => (errcnt, false)
  | n + 1, errcnt => if reset errcnt then (errcnt, true) else resetLoop reset n (errcnt + 1)

/-- The interrupt thread gives up. -/
def fail (s : State) : State :=
  { s with readyEvent := update s.readyEvent .int .d0Entry true, deviceFailed := true }.goto .int
    .wait

/-- The start case after its event is cleared. -/
def startedStep (numOfRetriesOnError : Nat) (s : State) (a : Answers) : State :=
  if numOfRetriesOnError ≤ s.errcnt ∨ a.reused = false then s.fail
  else if a.sent then
    let s := { s with sent := true }.goto .int .wait
    if s.d0EntryState then
      { s with d0EntryState := false, readyEvent := update s.readyEvent .int .d0Entry true }
    else s
  else
    let errcnt := if a.printed then s.errcnt + 1 else s.errcnt
    let result := resetLoop a.reset (numOfRetriesOnError - errcnt) errcnt
    let s := { s with errcnt := result.1 }
    if result.2 then { s with interruptStartService := true }.goto .int .wait else s.fail

/-- A step of a thread inside one of its cases. -/
def threadStep (numOfRetriesOnError : Nat) (s : State) (t : Thread) (a : Answers) : Option State :=
  match s.control t, t with
  | .wait, _ => none
  | .d0 op stage call, t => s.d0Step t op stage call
  | .completion, .int => some ({ s with interruptCompletion := false }.goto .int .completed)
  | .completed, .int => some (s.completedStep a.succeeded)
  | .start, .int => some ({ s with interruptStartService := false }.goto .int .started)
  | .started, .int => some (s.startedStep numOfRetriesOnError a)
  | _, .read => none

/-- One step. -/
def step (numOfRetriesOnError : Nat) (s : State) : Op → Option State
  | .call => s.call
  | .callback => s.callbackStep
  | .wakeD0 t op => s.wakeD0 t op
  | .wakeCompletion =>
    if s.control .int = .wait ∧ s.interruptCompletion then some (s.goto .int .completion) else none
  | .wakeStart =>
    if s.control .int = .wait ∧ s.interruptStartService ∧ s.interruptCompletion = false then
      some (s.goto .int .start)
    else none
  | .thread t a => s.threadStep numOfRetriesOnError t a
  | .requestCompletes =>
    -- `QCINT_InterruptPipeCompletion`
    if s.sent then some { s with sent := false, interruptCompletion := true } else none

end State

/-- The callbacks, the two threads and the interrupt request. -/
def powerHandshake (numOfRetriesOnError : Nat) : Machine State Op Unit := fun s op =>
  (s.step numOfRetriesOnError op).map fun s' => (s', ())

/-- The threads are waiting, and the first callback is still to come. -/
def startedState : State where
  callback := none
  next := .d0Entry
  d0Event := fun _ _ => false
  readyEvent := fun _ _ => false
  control := fun _ => .wait
  interruptCompletion := false
  interruptStartService := false
  d0ExitState := false
  d0EntryState := false
  errcnt := 0
  sent := false
  deviceFailed := false
  calls := 0
  setBy := fun _ _ => 0
  ran := fun _ _ => 0
  returned := []

end WdfSerial.Power
