-- SUMMARY: IOCTL_QCDEV_GET_SERVICE_FILE on a control device: the gate, the device it adds and its failing exits.
import QcomUsb.Library.Transition
import QcomUsb.Ndis.CtrlWrite

/-!
# Service files

A request for a service file takes `GetServiceFileIrp`, adds a client device to `MP_DeviceList` and
has an id granted for it. One step is what is done under one hold of `MP_CtlLock`, or between two of
them. The exit for a failed QMI initialisation gives nothing back, and the one without a client id
leaves the device on the list.
-/

namespace Ndis.ServiceFile

open Transition CtrlWrite

/-- `IOCDEV_CLIENT_FILE_NAME_LEN`. -/
def clientFileNameLen : Nat := 256

/-- `Type` of a client device. -/
inductive DevType
  | client
  | externalCtl
deriving DecidableEq

/-- An `MPIOC_DEV_INFO` that was added for a client. An observer keeps the request that added it. -/
structure IocDev where
  type : DevType
  clientFileName : List UInt8
  acquired : Bool
  clientId : UInt8
  qmiType : UInt8
  addedBy : Nat

/-- The IRP: its input buffer, how long its output buffer is, and the level it is sent at. -/
structure Irp where
  input : List UInt8
  outlen : Nat
  passive : Bool

inductive NtStatus
  | success
  | unsuccessful
  | invalidParameter
  | transactionalConflict
deriving DecidableEq

/-- The exits of the request. -/
inductive Exit
  | success
  | noInput
  | conflict
  | outOfResource
  | qmiInitFailure
  | noClientId
  | bufferTooSmall
deriving DecidableEq

def Exit.status : Exit → NtStatus
  | .success => .success
  | .noInput => .invalidParameter
  | .conflict => .transactionalConflict
  | .outOfResource | .qmiInitFailure | .noClientId | .bufferTooSmall => .unsuccessful

/-- Where a request is. `finish` is the last hold of the lock. -/
inductive Phase
  | gate (retries : Nat)
  | addDevice
  | initializeQmi (dev : Nat)
  | acquire (dev : Nat)
  | ctlAcquired (dev : Nat)
  | ctlFree (dev : Nat)
  | getClientId (dev : Nat)
  | answer (dev : Nat)
  | finish (dev : Nat) (exit : Exit)
  | done (exit : Exit)
deriving DecidableEq

/-- A request, with what it has put into the output buffer. -/
structure Request where
  irp : Irp
  phase : Phase
  output : List UInt8

/-- The control device and its adapter. -/
structure ControlDev where
  clientFileName : List UInt8
  externalQctlEnabled : Bool

/-- The requests are named by their positions, as are the devices. An observer keeps whether a
request was refused while no other was in progress. -/
structure State where
  requests : List Request
  getServiceFileIrp : Option Nat
  deviceList : List IocDev
  ctrlDevAcquired : Bool
  refusedAlone : Bool

/-- What `ExAllocatePool`, `MPMAIN_InitializeQMI` and the device answer. -/
structure Answers where
  allocated : Bool
  qmiInitialized : Bool
  granted : Option (UInt8 × UInt8)

inductive Op
  | arrive (irp : Irp)
  | go (i : Nat) (answers : Answers)

/-- `%d` of a byte. -/
def decimal (n : UInt8) : List UInt8 := (Nat.toDigits 10 n.toNat).map fun c => UInt8.ofNat c.toNat

/-- `RtlStringCchPrintfExA` with `%s\%d`. -/
def printName (name : List UInt8) (qmiType : UInt8) : List UInt8 :=
  (name ++ 0x5c :: decimal qmiType).take (clientFileNameLen - 1)

/-- The name behind the last backslash, if there is one. -/
def strrchr (name : List UInt8) : Option (List UInt8) :=
  if 0x5c ∈ name then some (name.reverse.takeWhile (· ≠ 0x5c)).reverse else none

namespace ControlDev

/-- `ClientFileName` as the request computes it for the device that it adds. -/
def deviceName (ctl : ControlDev) (qmiType : UInt8) : List UInt8 := printName ctl.clientFileName qmiType

/-- `ClientFileName` as it is copied to the output buffer. -/
def outputName (ctl : ControlDev) (qmiType : UInt8) : List UInt8 :=
  match strrchr ctl.clientFileName with
  | none => ctl.deviceName qmiType
  | some cf => printName cf qmiType

end ControlDev

def Irp.qmiType (irp : Irp) : UInt8 := irp.input.headD 0

namespace State

def initial : State where
  requests := []
  getServiceFileIrp := none
  deviceList := []
  ctrlDevAcquired := false
  refusedAlone := false

/-- Request `i` goes on to `phase`. -/
def goTo (s : State) (i : Nat) (r : Request) (phase : Phase) : State :=
  { s with requests := s.requests.set i { r with phase := phase } }

def setDev (s : State) (dev : Nat) (f : IocDev → IocDev) : State :=
  { s with deviceList := s.deviceList.modify dev f }

def clientId (s : State) (dev : Nat) : UInt8 := (s.deviceList[dev]?.map IocDev.clientId).getD 0

/-- The other requests are done. -/
def alone (s : State) (i : Nat) : Bool :=
  (List.range s.requests.length).all fun j => j == i ||
    match s.requests[j]?.map Request.phase with
    | some (.done _) => true
    | _ => false

/-- A turn of the loop that waits for `GetServiceFileIrp`. -/
def gate (s : State) (i : Nat) (r : Request) (retries : Nat) : State :=
  if s.getServiceFileIrp = none then { s with getServiceFileIrp := some i }.goTo i r .addDevice
  else if r.irp.passive ∧ retries + 1 < 10 then s.goTo i r (.gate (retries + 1))
  else { s with refusedAlone := s.refusedAlone || s.alone i }.goTo i r (.done .conflict)

/-- `MPIOC_AddDevice`. -/
def addDevice (ctl : ControlDev) (s : State) (i : Nat) (r : Request) (allocated : Bool) : State :=
  if allocated then
    let dev : IocDev :=
      { type := .client
        clientFileName := ctl.deviceName r.irp.qmiType
        acquired := false
        clientId := 0
        qmiType := 0
        addedBy := i }
    { s with deviceList := s.deviceList ++ [dev] }.goTo i r (.initializeQmi s.deviceList.length)
  else { s with getServiceFileIrp := none }.goTo i r (.done .outOfResource)

/-- One ID is granted for an external CTRL client. -/
def acquire (ctl : ControlDev) (s : State) (i : Nat) (r : Request) (dev : Nat) : State :=
  if ctl.externalQctlEnabled ∧ r.irp.qmiType = qmuxTypeCtl then
    s.goTo i r (if s.ctrlDevAcquired then .ctlAcquired dev else .ctlFree dev)
  else s.goTo i r (.getClientId dev)

/-- `MPQCTL_GetClientId` with `MPQCTL_HandleGetClientIdRsp`. -/
def getClientId (s : State) (i : Nat) (r : Request) (dev : Nat) (granted : Option (UInt8 × UInt8)) :
    State :=
  match granted with
  | none => s.goTo i r (.answer dev)
  | some (qmiType, clientId) =>
    if r.irp.qmiType = qmuxTypeCtl ∨ s.clientId dev ≠ 0 then s.goTo i r (.answer dev)
    else
      (s.setDev dev fun d => { d with qmiType := qmiType, clientId := clientId }).goTo i r (.answer dev)

/-- The name of the service file is copied, if the output buffer has room for it. -/
def answer (ctl : ControlDev) (s : State) (i : Nat) (r : Request) (dev : Nat) : State :=
  if s.clientId dev ≠ 0 then
    let name := ctl.outputName r.irp.qmiType
    if name.length ≤ r.irp.outlen ∧ 0 < name.length then
      s.goTo i { r with output := name } (.finish dev .success)
    else s.goTo i r (.finish dev .bufferTooSmall)
  else s.goTo i r (.finish dev .noClientId)

def go (ctl : ControlDev) (s : State) (i : Nat) (r : Request) (answers : Answers) : Option State :=
  match r.phase with
  | .gate retries => some (s.gate i r retries)
  | .addDevice => some (s.addDevice ctl i r answers.allocated)
  | .initializeQmi dev =>
    some (s.goTo i r (if answers.qmiInitialized then .acquire dev else .done .qmiInitFailure))
  | .acquire dev => some (s.acquire ctl i r dev)
  | .ctlAcquired dev =>
    some (({ s with getServiceFileIrp := none }.setDev dev fun d =>
      { d with clientId := 0, acquired := false }).goTo i r (.answer dev))
  | .ctlFree dev =>
    some (({ s with ctrlDevAcquired := true }.setDev dev fun d =>
      { d with type := .externalCtl, clientId := 1, qmiType := qmuxTypeCtl, acquired := true }).goTo
        i r (.answer dev))
  | .getClientId dev => some (s.getClientId i r dev answers.granted)
  | .answer dev => some (s.answer ctl i r dev)
  | .finish dev exit =>
    some (({ s with getServiceFileIrp := none }.setDev dev fun d =>
      { d with acquired := d.clientId ≠ 0 }).goTo i r (.done exit))
  | .done _ => none

def step (ctl : ControlDev) (s : State) : Op → Option State
  | .arrive irp =>
    let phase := if irp.input = [] then .done .noInput else .gate 0
    some { s with requests := s.requests ++ [⟨irp, phase, []⟩] }
  | .go i answers => s.requests[i]?.bind fun r => s.go ctl i r answers

end State

/-- Requests for service files, one or several at a time. -/
def serviceFile (ctl : ControlDev) : Machine State Op Unit := fun s op =>
  (s.step ctl op).map fun s' => (s', ())

theorem step_of_serviceFile {ctl : ControlDev} {s s' : State} {op : Op} {o : Unit}
    (h : serviceFile ctl s op = some (s', o)) : s.step ctl op = some s' := by
  obtain ⟨t, ht, heq⟩ := Option.map_eq_some_iff.mp h
  obtain rfl : t = s' := congrArg Prod.fst heq
  exact ht

namespace State

/-! ## What is left behind -/

def InProgress (s : State) (i : Nat) : Prop :=
  ∃ r, s.requests[i]? = some r ∧ ∀ exit, r.phase ≠ .done exit

def Ended (s : State) (i : Nat) (exit : Exit) : Prop :=
  ∃ r, s.requests[i]? = some r ∧ r.phase = .done exit

/-- The gate is held by a request in progress only, none was refused while it was alone, and a
request that has failed for lack of QMI or of a client id has no device on the list. -/
structure NoTrace (s : State) : Prop where
  gate : ∀ i, s.getServiceFileIrp = some i → s.InProgress i
  refused : s.refusedAlone = false
  deviceList : ∀ d ∈ s.deviceList, ¬ s.Ended d.addedBy .qmiInitFailure ∧ ¬ s.Ended d.addedBy .noClientId

/-- The step is not the failure of a QMI initialisation, and not the end of a request without a
client id. -/
def Succeeds (s : State) : Op → Prop
  | .arrive _ => True
  | .go i answers =>
    match s.requests[i]?.map Request.phase with
    | some (.initializeQmi _) => answers.qmiInitialized = true
    | some (.finish _ exit) => exit ≠ .noClientId
    | _ => True

end State

/-- The device of a request that has one. -/
def Phase.dev : Phase → Option Nat
  | .initializeQmi dev | .acquire dev | .ctlAcquired dev | .ctlFree dev | .getClientId dev
  | .answer dev | .finish dev _ => some dev
  | .gate _ | .addDevice | .done _ => none

/-- The device of a request between the start of QMI and the end. -/
def Phase.between : Phase → Option Nat
  | .acquire dev | .ctlAcquired dev | .ctlFree dev | .getClientId dev | .answer dev => some dev
  | .gate _ | .addDevice | .initializeQmi _ | .finish .. | .done _ => none

theorem Phase.dev_of_between {phase : Phase} {dev : Nat} (h : phase.between = some dev) :
    phase.dev = some dev := by
  cases phase with
  | acquire | ctlAcquired | ctlFree | getClientId | answer => exact h
  | gate | addDevice | initializeQmi | finish | done => cases h

namespace State

/-- Who has added the devices. -/
def owners (s : State) : List Nat := s.deviceList.map IocDev.addedBy

/-- The gate is held behind the wait for it, and a request has added the device it goes on with. -/
structure Sound (s : State) : Prop where
  gate : ∀ i, s.getServiceFileIrp = some i →
    ∃ r, s.requests[i]? = some r ∧ ∀ retries, r.phase ≠ .gate retries
  dev : ∀ (i : Nat) (r : Request) (dev : Nat), s.requests[i]? = some r → r.phase.dev = some dev →
    s.owners[dev]? = some i
  finish : ∀ (i : Nat) (r : Request) (dev : Nat) (exit : Exit), s.requests[i]? = some r →
    r.phase = .finish dev exit → exit ≠ .qmiInitFailure

/-! ## A turn -/

/-- Request `i` has gone on from where `r` has it to `phase`. -/
structure Turn (s s' : State) (i : Nat) (answers : Answers) (r : Request) (phase : Phase) : Prop where
  before : s.requests[i]? = some r
  after : ∃ r', s'.requests[i]? = some r' ∧ r'.phase = phase
  others : ∀ j ≠ i, s'.requests[j]? = s.requests[j]?
  gate : s'.getServiceFileIrp = s.getServiceFileIrp ∨ s'.getServiceFileIrp = none ∨
    s'.getServiceFileIrp = some i ∧ phase = .addDevice
  owners : s'.owners = s.owners ∨ s'.owners = s.owners ++ [i]
  dev : ∀ dev, phase.dev = some dev → s'.owners[dev]? = some i
  finish : ∀ dev exit, phase = .finish dev exit → exit ≠ .qmiInitFailure
  back : ∀ retries, phase = .gate retries → ∃ n, r.phase = .gate n
  refused : s'.refusedAlone = s.refusedAlone ∨
    s.getServiceFileIrp ≠ none ∧ (∃ n, r.phase = .gate n) ∧
      s'.refusedAlone = (s.refusedAlone || s.alone i)
  done : ∀ exit, phase = .done exit → s'.getServiceFileIrp = none ∨ exit = .qmiInitFailure ∨
    s'.getServiceFileIrp = s.getServiceFileIrp ∧ ∃ n, r.phase = .gate n
  exit : phase = .done .qmiInitFailure ∨ phase = .done .noClientId ↔ ¬ s.Succeeds (.go i answers)

variable {s s' u : State} {i : Nat} {r r' : Request} {phase : Phase} {answers : Answers}

@[simp] theorem goTo_owners (s : State) (i : Nat) (r : Request) (phase : Phase) :
    (s.goTo i r phase).owners = s.owners := rfl

@[simp] theorem setDev_owners (s : State) (dev : Nat) (f : IocDev → IocDev)
    (hf : ∀ d, (f d).addedBy = d.addedBy) : (s.setDev dev f).owners = s.owners := by
  apply List.ext_getElem?
  intro k
  simp only [owners, setDev, List.getElem?_map, List.getElem?_modify]
  cases s.deviceList[k]? with
  | none => rfl
  | some d =>
    rcases eq_or_ne dev k with rfl | hne
    · simp [hf]
    · simp [hne]

/-- A turn from what the rest of the step has made of the state. -/
theorem Turn.goTo (hbefore : s.requests[i]? = some r) (hrequests : u.requests = s.requests)
    (hgate : u.getServiceFileIrp = s.getServiceFileIrp ∨ u.getServiceFileIrp = none ∨
      u.getServiceFileIrp = some i ∧ phase = .addDevice)
    (howners : u.owners = s.owners ∨ u.owners = s.owners ++ [i])
    (hdev : ∀ dev, phase.dev = some dev → u.owners[dev]? = some i)
    (hfinish : ∀ dev exit, phase = .finish dev exit → exit ≠ .qmiInitFailure)
    (hback : ∀ retries, phase = .gate retries → ∃ n, r.phase = .gate n)
    (hrefused : u.refusedAlone = s.refusedAlone ∨
      s.getServiceFileIrp ≠ none ∧ (∃ n, r.phase = .gate n) ∧
        u.refusedAlone = (s.refusedAlone || s.alone i))
    (hdone : ∀ exit, phase = .done exit → u.getServiceFileIrp = none ∨ exit = .qmiInitFailure ∨
      u.getServiceFileIrp = s.getServiceFileIrp ∧ ∃ n, r.phase = .gate n)
    (hexit : phase = .done .qmiInitFailure ∨ phase = .done .noClientId ↔
      ¬ s.Succeeds (.go i answers)) :
    Turn s (u.goTo i r' phase) i answers r phase where
  before := hbefore
  after := by
    obtain ⟨hlt, -⟩ := List.getElem?_eq_some_iff.mp hbefore
    exact ⟨{ r' with phase := phase }, by simp [State.goTo, hrequests, hlt], rfl⟩
  others := by
    intro j hj
    simp [State.goTo, hrequests, List.getElem?_set_ne hj.symm]
  gate := hgate
  owners := howners
  dev := hdev
  finish := hfinish
  back := hback
  refused := hrefused
  done := hdone
  exit := hexit

/-- A turn that only goes on to another phase with the same device. -/
theorem Turn.onward (hs : s.Sound) (hbefore : s.requests[i]? = some r) {dev : Nat}
    (hrequests : u.requests = s.requests) (hphase : r.phase.dev = some dev)
    (hnext : phase.dev = some dev)
    (hfinish : ∀ dev exit, phase = .finish dev exit → exit ≠ .qmiInitFailure)
    (hgate : u.getServiceFileIrp = s.getServiceFileIrp ∨ u.getServiceFileIrp = none)
    (howners : u.owners = s.owners) (hrefused : u.refusedAlone = s.refusedAlone)
    (hsucceeds : s.Succeeds (.go i answers)) : Turn s (u.goTo i r' phase) i answers r phase := by
  have howner := hs.dev i r dev hbefore hphase
  apply Turn.goTo hbefore hrequests (hgate.imp_right .inl) (.inl howners)
  · intro dev' hdev'
    obtain rfl : dev = dev' := Option.some.inj (hnext.symm.trans hdev')
    rwa [howners]
  · exact hfinish
  · rintro retries rfl
    cases hnext
  · exact .inl hrefused
  · rintro exit rfl
    cases hnext
  · constructor
    · rintro (rfl | rfl) <;> cases hnext
    · exact fun h => absurd hsucceeds h

/-- The steps that can fail for lack of QMI or of a client id are two. -/
theorem succeeds_of_ne (hbefore : s.requests[i]? = some r)
    (hinit : ∀ dev, r.phase ≠ .initializeQmi dev)
    (hfinish : ∀ dev, r.phase ≠ .finish dev .noClientId) : s.Succeeds (.go i answers) := by
  simp only [Succeeds, hbefore, Option.map_some]
  split
  · rename_i dev heq
    exact absurd (Option.some.inj heq) (hinit dev)
  · rename_i dev exit heq
    rintro rfl
    exact hfinish dev (Option.some.inj heq)
  · trivial

theorem succeeds_of_between (hbefore : s.requests[i]? = some r) {dev : Nat}
    (hbetween : r.phase.between = some dev) : s.Succeeds (.go i answers) := by
  apply succeeds_of_ne hbefore
  · intro dev' heq
    rw [heq] at hbetween
    cases hbetween
  · intro dev' heq
    rw [heq] at hbetween
    cases hbetween

/-- Between the start of QMI and the end a request goes on with its device. -/
theorem Turn.between (hs : s.Sound) (hbefore : s.requests[i]? = some r) {dev : Nat}
    (hbetween : r.phase.between = some dev) (hnext : phase.dev = some dev)
    (hfinish : ∀ dev exit, phase = .finish dev exit → exit ≠ .qmiInitFailure)
    (hrequests : u.requests = s.requests)
    (hgate : u.getServiceFileIrp = s.getServiceFileIrp ∨ u.getServiceFileIrp = none)
    (howners : u.owners = s.owners) (hrefused : u.refusedAlone = s.refusedAlone) :
    Turn s (u.goTo i r' phase) i answers r phase :=
  Turn.onward hs hbefore hrequests (Phase.dev_of_between hbetween) hnext hfinish hgate howners
    hrefused (succeeds_of_between hbefore hbetween)

theorem turn_gate (hbefore : s.requests[i]? = some r) {retries : Nat}
    (hphase : r.phase = .gate retries) :
    ∃ phase, Turn s (s.gate i r retries) i answers r phase := by
  have hsucceeds : s.Succeeds (.go i answers) :=
    succeeds_of_ne hbefore (by simp [hphase]) (by simp [hphase])
  unfold State.gate
  split
  · refine ⟨.addDevice, Turn.goTo hbefore rfl (.inr (.inr ⟨rfl, rfl⟩)) (.inl rfl) ?_ ?_ ?_
      (.inl rfl) ?_ ?_⟩
    · simp [Phase.dev]
    · simp
    · simp
    · simp
    · simp [hsucceeds]
  · rename_i hheld
    split
    · refine ⟨.gate (retries + 1), Turn.goTo hbefore rfl (.inl rfl) (.inl rfl) ?_ ?_ ?_
        (.inl rfl) ?_ ?_⟩
      · simp [Phase.dev]
      · simp
      · exact fun _ _ => ⟨retries, hphase⟩
      · simp
      · simp [hsucceeds]
    · refine ⟨.done .conflict, Turn.goTo hbefore rfl (.inl rfl) (.inl rfl) ?_ ?_ ?_ ?_ ?_ ?_⟩
      · simp [Phase.dev]
      · simp
      · simp
      · exact .inr ⟨hheld, ⟨retries, hphase⟩, rfl⟩
      · exact fun _ _ => .inr (.inr ⟨rfl, retries, hphase⟩)
      · simp [hsucceeds]

theorem turn_addDevice (ctl : ControlDev) (hbefore : s.requests[i]? = some r)
    (hphase : r.phase = .addDevice) :
    ∃ phase, Turn s (s.addDevice ctl i r answers.allocated) i answers r phase := by
  have hsucceeds : s.Succeeds (.go i answers) :=
    succeeds_of_ne hbefore (by simp [hphase]) (by simp [hphase])
  unfold State.addDevice
  split
  · refine ⟨.initializeQmi s.deviceList.length, Turn.goTo hbefore rfl (.inl rfl) (.inr ?_) ?_ ?_ ?_
      (.inl rfl) ?_ ?_⟩
    · simp [owners]
    · rintro dev hdev
      obtain rfl := Option.some.inj hdev
      simp [owners]
    · simp
    · simp
    · simp
    · simp [hsucceeds]
  · refine ⟨.done .outOfResource, Turn.goTo hbefore rfl (.inr (.inl rfl)) (.inl rfl) ?_ ?_ ?_
      (.inl rfl) ?_ ?_⟩
    · simp [Phase.dev]
    · simp
    · simp
    · exact fun _ _ => .inl rfl
    · simp [hsucceeds]

theorem turn_initializeQmi (hs : s.Sound) (hbefore : s.requests[i]? = some r) {dev : Nat}
    (hphase : r.phase = .initializeQmi dev) :
    ∃ phase, Turn s (s.goTo i r (if answers.qmiInitialized then .acquire dev else
      .done .qmiInitFailure)) i answers r phase := by
  have hsucceeds : s.Succeeds (.go i answers) ↔ answers.qmiInitialized = true := by
    simp [Succeeds, hbefore, hphase]
  split
  · rename_i hinit
    have hdev : r.phase.dev = some dev := by rw [hphase]; rfl
    exact ⟨_, Turn.onward hs hbefore rfl hdev rfl (by simp) (.inl rfl) rfl rfl
      (hsucceeds.mpr hinit)⟩
  · rename_i hinit
    refine ⟨.done .qmiInitFailure, Turn.goTo hbefore rfl (.inl rfl) (.inl rfl) ?_ ?_ ?_
      (.inl rfl) ?_ ?_⟩
    · simp [Phase.dev]
    · simp
    · simp
    · simp
    · simp [hsucceeds, hinit]

theorem turn_finish (hs : s.Sound) (hbefore : s.requests[i]? = some r) {dev : Nat} {exit : Exit}
    (hphase : r.phase = .finish dev exit) (hrequests : u.requests = s.requests)
    (hgate : u.getServiceFileIrp = none) (howners : u.owners = s.owners)
    (hrefused : u.refusedAlone = s.refusedAlone) :
    Turn s (u.goTo i r (.done exit)) i answers r (.done exit) := by
  have hsucceeds : s.Succeeds (.go i answers) ↔ exit ≠ .noClientId := by
    simp [Succeeds, hbefore, hphase]
  have hexit : exit ≠ .qmiInitFailure := hs.finish i r dev exit hbefore hphase
  apply Turn.goTo hbefore hrequests (.inr (.inl hgate)) (.inl howners)
  · simp [Phase.dev]
  · simp
  · simp
  · exact .inl hrefused
  · exact fun _ _ => .inl hgate
  · simp [hsucceeds, hexit]

theorem go_turn {ctl : ControlDev} (hs : s.Sound) (hbefore : s.requests[i]? = some r)
    (h : s.go ctl i r answers = some s') : ∃ phase, Turn s s' i answers r phase := by
  cases hphase : r.phase with
  | gate retries =>
    simp only [State.go, hphase, Option.some.injEq] at h
    subst h
    exact turn_gate hbefore hphase
  | addDevice =>
    simp only [State.go, hphase, Option.some.injEq] at h
    subst h
    exact turn_addDevice ctl hbefore hphase
  | initializeQmi dev =>
    simp only [State.go, hphase, Option.some.injEq] at h
    subst h
    exact turn_initializeQmi hs hbefore hphase
  | finish dev exit =>
    simp only [State.go, hphase, Option.some.injEq] at h
    subst h
    refine ⟨_, turn_finish hs hbefore hphase rfl rfl ?_ rfl⟩
    exact setDev_owners _ _ _ fun _ => rfl
  | done exit => simp [State.go, hphase] at h
  | acquire dev =>
    have hbetween : r.phase.between = some dev := by rw [hphase]; rfl
    simp only [State.go, hphase, Option.some.injEq] at h
    subst h
    unfold State.acquire
    split
    · split
      · exact ⟨_, Turn.between hs hbefore hbetween rfl (by simp) rfl (.inl rfl) rfl rfl⟩
      · exact ⟨_, Turn.between hs hbefore hbetween rfl (by simp) rfl (.inl rfl) rfl rfl⟩
    · exact ⟨_, Turn.between hs hbefore hbetween rfl (by simp) rfl (.inl rfl) rfl rfl⟩
  | ctlAcquired dev =>
    have hbetween : r.phase.between = some dev := by rw [hphase]; rfl
    simp only [State.go, hphase, Option.some.injEq] at h
    subst h
    refine ⟨_, Turn.between hs hbefore hbetween rfl (by simp) rfl (.inr rfl) ?_ rfl⟩
    exact setDev_owners _ _ _ fun _ => rfl
  | ctlFree dev =>
    have hbetween : r.phase.between = some dev := by rw [hphase]; rfl
    simp only [State.go, hphase, Option.some.injEq] at h
    subst h
    refine ⟨_, Turn.between hs hbefore hbetween rfl (by simp) rfl (.inl rfl) ?_ rfl⟩
    exact setDev_owners _ _ _ fun _ => rfl
  | getClientId dev =>
    have hbetween : r.phase.between = some dev := by rw [hphase]; rfl
    simp only [State.go, hphase, Option.some.injEq] at h
    subst h
    unfold State.getClientId
    split
    · exact ⟨_, Turn.between hs hbefore hbetween rfl (by simp) rfl (.inl rfl) rfl rfl⟩
    · split
      · exact ⟨_, Turn.between hs hbefore hbetween rfl (by simp) rfl (.inl rfl) rfl rfl⟩
      · refine ⟨_, Turn.between hs hbefore hbetween rfl (by simp) rfl (.inl rfl) ?_ rfl⟩
        exact setDev_owners _ _ _ fun _ => rfl
  | answer dev =>
    have hbetween : r.phase.between = some dev := by rw [hphase]; rfl
    simp only [State.go, hphase, Option.some.injEq] at h
    subst h
    unfold State.answer
    split
    · dsimp only
      split
      · exact ⟨_, Turn.between hs hbefore hbetween rfl (by simp) rfl (.inl rfl) rfl rfl⟩
      · exact ⟨_, Turn.between hs hbefore hbetween rfl (by simp) rfl (.inl rfl) rfl rfl⟩
    · exact ⟨_, Turn.between hs hbefore hbetween rfl (by simp) rfl (.inl rfl) rfl rfl⟩

/-! ## Every step -/

theorem Turn.sound (ht : Turn s s' i answers r phase) (hs : s.Sound) : s'.Sound := by
  obtain ⟨r', hr', rfl⟩ := ht.after
  have howners : ∀ dev j : Nat, s.owners[dev]? = some j → s'.owners[dev]? = some j := by
    intro dev j hj
    obtain ⟨hlt, -⟩ := List.getElem?_eq_some_iff.mp hj
    rcases ht.owners with heq | heq
    · rw [heq, hj]
    · rw [heq, List.getElem?_append_left hlt, hj]
  refine ⟨fun j hj => ?_, fun j q dev hq hdev => ?_, fun j q dev exit hq hphase => ?_⟩
  · rcases eq_or_ne j i with rfl | hne
    · refine ⟨r', hr', fun retries hwait => ?_⟩
      obtain heq | heq | ⟨-, hadd⟩ := ht.gate
      · obtain ⟨q, hq, hpast⟩ := hs.gate j (heq.symm.trans hj)
        obtain rfl := Option.some.inj (hq.symm.trans ht.before)
        obtain ⟨n, hn⟩ := ht.back retries hwait
        exact hpast n hn
      · cases heq.symm.trans hj
      · cases hadd.symm.trans hwait
    · have hgate : s.getServiceFileIrp = some j := by
        obtain heq | heq | ⟨heq, -⟩ := ht.gate
        · exact heq.symm.trans hj
        · cases heq.symm.trans hj
        · exact absurd (Option.some.inj (heq.symm.trans hj)) hne.symm
      obtain ⟨q, hq, hpast⟩ := hs.gate j hgate
      exact ⟨q, (ht.others j hne).trans hq, hpast⟩
  · rcases eq_or_ne j i with rfl | hne
    · obtain rfl := Option.some.inj (hq.symm.trans hr')
      exact ht.dev dev hdev
    · exact howners dev j (hs.dev j q dev ((ht.others j hne).symm.trans hq) hdev)
  · rcases eq_or_ne j i with rfl | hne
    · obtain rfl := Option.some.inj (hq.symm.trans hr')
      exact ht.finish dev exit hphase
    · exact hs.finish j q dev exit ((ht.others j hne).symm.trans hq) hphase

/-- A request that is refused sees another one in progress. -/
theorem NoTrace.not_alone (hn : s.NoTrace) (hs : s.Sound) (hbefore : s.requests[i]? = some r)
    {n : Nat} (hphase : r.phase = .gate n) (hheld : s.getServiceFileIrp ≠ none) : s.alone i = false := by
  obtain ⟨j, hj⟩ := Option.ne_none_iff_exists'.mp hheld
  obtain ⟨q, hq, hrunning⟩ := hn.gate j hj
  have hne : j ≠ i := by
    rintro rfl
    obtain ⟨q', hq', hpast⟩ := hs.gate j hj
    obtain rfl := Option.some.inj (hq'.symm.trans hbefore)
    exact hpast n hphase
  obtain ⟨hlt, -⟩ := List.getElem?_eq_some_iff.mp hq
  rw [alone, List.all_eq_false]
  refine ⟨j, List.mem_range.mpr hlt, ?_⟩
  rw [hq]
  cases hphase' : q.phase <;> simp_all

/-- A request that fails for lack of QMI or of a client id has added a device. -/
theorem exists_dev (hbefore : s.requests[i]? = some r) (hfails : ¬ s.Succeeds (.go i answers)) :
    ∃ dev, r.phase.dev = some dev := by
  cases hphase : r.phase with
  | initializeQmi dev | acquire dev | ctlAcquired dev | ctlFree dev | getClientId dev | answer dev
  | finish dev exit => exact ⟨dev, rfl⟩
  | gate retries | addDevice | done exit => exact absurd (by simp [Succeeds, hbefore, hphase]) hfails

theorem mem_owners_of_turn (ht : Turn s s' i answers r phase) {j : Nat} (hj : j ∈ s'.owners)
    (hne : j ≠ i) : j ∈ s.owners := by
  rcases ht.owners with heq | heq
  · rwa [heq] at hj
  · rw [heq, List.mem_append, List.mem_singleton] at hj
    exact hj.resolve_right hne

theorem Turn.noTrace_iff (ht : Turn s s' i answers r phase) (hs : s.Sound) (hn : s.NoTrace) :
    s'.NoTrace ↔ s.Succeeds (.go i answers) := by
  obtain ⟨r', hr', rfl⟩ := ht.after
  have hexit := ht.exit
  constructor
  · intro hn'
    by_contra hfails
    obtain ⟨dev, hdev⟩ := exists_dev ht.before hfails
    have howner : i ∈ s'.owners := by
      have hmem : i ∈ s.owners := List.mem_of_getElem? (hs.dev i r dev ht.before hdev)
      rcases ht.owners with heq | heq
      · rwa [heq]
      · simp [heq]
    obtain ⟨d, hd, rfl⟩ := List.mem_map.mp howner
    obtain ⟨hqmi, hid⟩ := hn'.deviceList d hd
    rcases hexit.mpr hfails with hend | hend
    · exact hqmi ⟨r', hr', hend⟩
    · exact hid ⟨r', hr', hend⟩
  · intro hsucceeds
    obtain ⟨hqmi, hid⟩ := not_or.mp (mt hexit.mp (not_not_intro hsucceeds))
    refine ⟨fun j hj => ?_, ?_, fun d hd => ?_⟩
    · rcases eq_or_ne j i with rfl | hne
      · refine ⟨r', hr', fun exit hend => ?_⟩
        obtain hnone | rfl | ⟨heq, n, hwait⟩ := ht.done exit hend
        · cases hnone.symm.trans hj
        · exact hqmi hend
        · obtain ⟨q, hq, hpast⟩ := hs.gate j (heq.symm.trans hj)
          obtain rfl := Option.some.inj (hq.symm.trans ht.before)
          exact hpast n hwait
      · have hgate : s.getServiceFileIrp = some j := by
          obtain heq | heq | ⟨heq, -⟩ := ht.gate
          · exact heq.symm.trans hj
          · cases heq.symm.trans hj
          · exact absurd (Option.some.inj (heq.symm.trans hj)) hne.symm
        obtain ⟨q, hq, hrunning⟩ := hn.gate j hgate
        exact ⟨q, (ht.others j hne).trans hq, hrunning⟩
    · obtain heq | ⟨hheld, ⟨n, hwait⟩, heq⟩ := ht.refused
      · exact heq.trans hn.refused
      · rw [heq, hn.refused, hn.not_alone hs ht.before hwait hheld]
        rfl
    · rcases eq_or_ne d.addedBy i with heq | hne
      · have hown : ∀ exit, s'.Ended d.addedBy exit → r'.phase = .done exit := by
          rintro exit ⟨q, hq, hend⟩
          rw [heq, hr'] at hq
          obtain rfl := Option.some.inj hq
          exact hend
        exact ⟨fun h => hqmi (hown _ h), fun h => hid (hown _ h)⟩
      · have hmem := mem_owners_of_turn ht (List.mem_map_of_mem hd) hne
        obtain ⟨d', hd', howner⟩ := List.mem_map.mp hmem
        have hold : ∀ exit, s'.Ended d.addedBy exit → s.Ended d'.addedBy exit := by
          rintro exit ⟨q, hq, hend⟩
          exact ⟨q, howner ▸ (ht.others d.addedBy hne).symm.trans hq, hend⟩
        exact ⟨fun h => (hn.deviceList d' hd').1 (hold _ h),
          fun h => (hn.deviceList d' hd').2 (hold _ h)⟩

/-- A request has arrived. -/
structure Arrived (s s' : State) (q : Request) : Prop where
  phase : q.phase = .gate 0 ∨ q.phase = .done .noInput
  requests : s'.requests = s.requests ++ [q]
  gate : s'.getServiceFileIrp = s.getServiceFileIrp
  deviceList : s'.deviceList = s.deviceList
  refused : s'.refusedAlone = s.refusedAlone

theorem arrived {ctl : ControlDev} {irp : Irp} (h : s.step ctl (.arrive irp) = some s') :
    ∃ q, Arrived s s' q := by
  obtain rfl := Option.some.inj h
  refine ⟨⟨irp, if irp.input = [] then .done .noInput else .gate 0, []⟩, ?_, rfl, rfl, rfl, rfl⟩
  dsimp only
  split
  · exact .inr rfl
  · exact .inl rfl

namespace Arrived

variable {q : Request} (h : Arrived s s' q)

include h

theorem before {j : Nat} (hr : s.requests[j]? = some r) : s'.requests[j]? = some r := by
  obtain ⟨hlt, -⟩ := List.getElem?_eq_some_iff.mp hr
  rw [h.requests, List.getElem?_append_left hlt, hr]

theorem after {j : Nat} (hr : s'.requests[j]? = some r) : s.requests[j]? = some r ∨ r = q := by
  rw [h.requests] at hr
  rcases Nat.lt_or_ge j s.requests.length with hlt | hge
  · rw [List.getElem?_append_left hlt] at hr
    exact .inl hr
  · rw [List.getElem?_append_right hge] at hr
    exact .inr (List.mem_singleton.mp (List.mem_of_getElem? hr))

theorem sound (hs : s.Sound) : s'.Sound where
  gate := by
    intro j hj
    obtain ⟨r, hr, hpast⟩ := hs.gate j (h.gate.symm.trans hj)
    exact ⟨r, h.before hr, hpast⟩
  dev := by
    intro j r dev hr hdev
    rw [owners, h.deviceList]
    rcases h.after hr with hold | rfl
    · exact hs.dev j r dev hold hdev
    · rcases h.phase with heq | heq <;> simp [heq, Phase.dev] at hdev
  finish := by
    intro j r dev exit hr hphase
    rcases h.after hr with hold | rfl
    · exact hs.finish j r dev exit hold hphase
    · rcases h.phase with heq | heq <;> simp [heq] at hphase

theorem noTrace (hn : s.NoTrace) : s'.NoTrace where
  gate := by
    intro j hj
    obtain ⟨r, hr, hrunning⟩ := hn.gate j (h.gate.symm.trans hj)
    exact ⟨r, h.before hr, hrunning⟩
  refused := h.refused.trans hn.refused
  deviceList := by
    intro d hd
    rw [h.deviceList] at hd
    have hold : ∀ exit ≠ .noInput, s'.Ended d.addedBy exit → s.Ended d.addedBy exit := by
      rintro exit hne ⟨r, hr, hend⟩
      rcases h.after hr with hr | rfl
      · exact ⟨r, hr, hend⟩
      · rcases h.phase with heq | heq
        · cases heq.symm.trans hend
        · exact absurd (Phase.done.inj (heq.symm.trans hend)).symm hne
    obtain ⟨hqmi, hid⟩ := hn.deviceList d hd
    exact ⟨fun h' => hqmi (hold _ (by simp) h'), fun h' => hid (hold _ (by simp) h')⟩

end Arrived

theorem initial_sound : initial.Sound where
  gate := by simp [initial]
  dev := by simp [initial]
  finish := by simp [initial]

theorem initial_noTrace : initial.NoTrace where
  gate := by simp [initial]
  refused := rfl
  deviceList := by simp [initial]

theorem step_sound {ctl : ControlDev} {op : Op} (hs : s.Sound) (h : s.step ctl op = some s') :
    s'.Sound := by
  cases op with
  | arrive irp =>
    obtain ⟨q, hq⟩ := arrived h
    exact hq.sound hs
  | go i answers =>
    obtain ⟨r, hr, hgo⟩ := Option.bind_eq_some_iff.mp h
    obtain ⟨phase, ht⟩ := go_turn hs hr hgo
    exact ht.sound hs

theorem step_noTrace_iff {ctl : ControlDev} {op : Op} (hs : s.Sound) (hn : s.NoTrace)
    (h : s.step ctl op = some s') : s'.NoTrace ↔ s.Succeeds op := by
  cases op with
  | arrive irp =>
    obtain ⟨q, hq⟩ := arrived h
    exact iff_of_true (hq.noTrace hn) trivial
  | go i answers =>
    obtain ⟨r, hr, hgo⟩ := Option.bind_eq_some_iff.mp h
    obtain ⟨phase, ht⟩ := go_turn hs hr hgo
    exact ht.noTrace_iff hs hn

end State

/-- Requests leave no trace exactly if none fails for the initialisation of QMI, and none ends
without a client id. -/
theorem noTrace_iff_succeeds (ctl : ControlDev) (ops : List Op) :
    (∀ s ∈ (serviceFile ctl).visits .initial ops, s.NoTrace) ↔
      ∀ p ∈ (serviceFile ctl).fires .initial ops, p.1.Succeeds p.2 := by
  apply Machine.visits_all_iff_fires_of_ok _ _ State.initial_sound State.initial_noTrace
  · exact fun s op s' o hs _ _ h => State.step_sound hs (step_of_serviceFile h)
  · exact fun s op s' o hs hn h => State.step_noTrace_iff hs hn (step_of_serviceFile h)

/-! ## A failing request -/

/-- A control device without an external CTRL client. -/
def ctl0 : ControlDev := ⟨[0x71, 0x63, 0x30], false⟩

/-- A request for the DMS service. -/
def dmsIrp : Irp := ⟨[2], 64, true⟩

/-- QMI is not initialised for the first request. The second one comes later, and waits for the gate
until its retries are used up. -/
def failedRun : List Op :=
  [.arrive dmsIrp, .go 0 ⟨true, true, none⟩, .go 0 ⟨true, true, none⟩, .go 0 ⟨true, false, none⟩,
    .arrive dmsIrp] ++ List.replicate 10 (.go 1 ⟨true, true, none⟩)

theorem not_noTrace_failedRun :
    ¬ ∀ s ∈ (serviceFile ctl0).visits .initial failedRun, s.NoTrace := by
  obtain ⟨s, hs, hrefused⟩ :
      ∃ s ∈ (serviceFile ctl0).visits .initial failedRun, s.refusedAlone = true := by
    decide +kernel
  intro h
  cases (h s hs).refused.symm.trans hrefused

end Ndis.ServiceFile
