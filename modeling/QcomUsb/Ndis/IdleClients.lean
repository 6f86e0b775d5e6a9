-- SUMMARY: Client devices: how they are granted an id, opened and closed, and given up when they are idle.
import QcomUsb.Library.Transition
import QcomUsb.Ndis.ServiceFile

/-!
# Idle clients

A request for a service file adds a client device and has an id granted for it. `IRP_MJ_CREATE`
opens the device, and `IRP_MJ_CLOSE` gives the id back and takes the device off `MP_DeviceList`.
`MPIOC_CheckForAquiredDeviceIdleTime` gives back the ids of devices that nobody has opened. Each
adapter runs it over the one list, and it drops `MP_CtlLock` while `MPQCTL_ReleaseClientId` waits.
One step is what is done under one hold of the lock, or between two of them.
-/

namespace Ndis.IdleClients

open Transition ServiceFile

/-! ## Devices and file objects -/

/-- How far the request that has added a device is. -/
inductive RequestPhase
  | unborn
  | granting
  | finishing
  | done
deriving DecidableEq

/-- An `MPIOC_DEV_INFO`. `awaiting` are the releases that the device has not answered. Observers keep
the type and id that were obtained, and what was released on which adapter. -/
structure Dev where
  adapter : Nat
  controlObject : Nat
  type : DevType
  acquired : Bool
  idleTime : UInt8
  deviceOpenCount : Int
  clientId : UInt8
  qmiType : UInt8
  fsContext : UInt8
  request : RequestPhase
  awaiting : List (UInt8 × UInt8)
  obtained : Option (UInt8 × UInt8)
  released : List (Nat × UInt8 × UInt8)

def Dev.unused : Dev := ⟨0, 0, .client, false, 0, 0, 0, 0, 0, .unborn, [], none, []⟩

/-- Where the `IRP_MJ_CREATE` or `IRP_MJ_CLOSE` of a file object is, with the device it has found. -/
inductive FilePhase
  | counting (d : Nat)
  | checking (d : Nat)
  | opening (d : Nat)
  | failing (d : Nat)
  | failed
  | opened (d : Nat)
  | releasing (d : Nat)
  | clearing (d : Nat)
  | uncounting (d : Nat)
  | leaving (d : Nat)
  | deleting (d : Nat)
  | closed
deriving DecidableEq

/-- A file object, with the QMI type in its name. -/
structure File where
  controlObject : Nat
  qmiType : UInt8
  fsContext : UInt8
  phase : FilePhase

/-- A walk that has dropped the lock for a device. -/
inductive WalkPhase
  | releasing (d : Nat)
  | resuming (d : Nat)
deriving DecidableEq

/-- `MP_DeviceList`, with the devices, the file objects, and the walk of each adapter. An observer
keeps whether a walk has gone on along a device that was off the list. -/
structure State where
  dev : Nat → Dev
  nextDev : Nat
  deviceList : List Nat
  files : List File
  walk : Nat → Option WalkPhase
  strayed : Bool

/-- What a request for a service file gets. -/
inductive Grant
  | refused
  | granted (qmiType clientId : UInt8)
  | externalCtl

/-- What the steps of a file object find: whether the adapter is ready, the write thread starts and a
release can be sent. -/
structure Answers where
  ready : Bool
  started : Bool
  sent : Bool

inductive Op
  | addDevice (adapter controlObject : Nat)
  | request (d : Nat) (grant : Grant)
  | create (controlObject : Nat) (qmiType : UInt8)
  | file (f : Nat) (answers : Answers)
  | walk (a : Nat) (sent : Bool)
  | releaseRsp (d : Nat) (success : Bool)

namespace State

def initial : State := ⟨fun _ => .unused, 0, [], [], fun _ => none, false⟩

def setDev (s : State) (d : Nat) (v : Dev) : State := { s with dev := Function.update s.dev d v }

def goTo (s : State) (f : Nat) (file : File) (phase : FilePhase) : State :=
  { s with files := s.files.set f { file with phase := phase } }

def setWalk (s : State) (a : Nat) (w : Option WalkPhase) : State :=
  { s with walk := Function.update s.walk a w }

/-! ## Requests for service files -/

/-- `MPIOC_AddDevice`. -/
def addDevice (s : State) (adapter controlObject : Nat) : State :=
  { s.setDev s.nextDev
      { Dev.unused with
        adapter := adapter
        controlObject := controlObject
        request := .granting } with
    nextDev := s.nextDev + 1
    deviceList := s.deviceList ++ [s.nextDev] }

/-- The request obtains an id, and sets `Acquired` by it. -/
def request (s : State) (d : Nat) (grant : Grant) : Option State :=
  let dev := s.dev d
  match dev.request with
  | .granting =>
    match grant with
    | .refused => some (s.setDev d { dev with request := .finishing })
    | .granted qmiType clientId =>
      -- a device answers with an id that is not zero
      if clientId = 0 then none
      else
        some (s.setDev d
          { dev with
            qmiType := qmiType
            clientId := clientId
            request := .finishing
            obtained := some (qmiType, clientId) })
    | .externalCtl =>
      some (s.setDev d
        { dev with
          type := .externalCtl
          clientId := 1
          qmiType := CtrlWrite.qmuxTypeCtl
          acquired := true
          request := .finishing
          obtained := some (CtrlWrite.qmuxTypeCtl, 1) })
  | .finishing => some (s.setDev d { dev with acquired := dev.clientId ≠ 0, request := .done })
  | .unborn | .done => none

/-! ## Releases -/

/-- `MPQCTL_ReleaseClientId` up to its wait. -/
def releaseClientId (s : State) (a d : Nat) (sent : Bool) : State :=
  let dev := s.dev d
  if dev.clientId = 0 ∨ sent = false then s
  else
    s.setDev d
      { dev with
        awaiting := dev.awaiting ++ [(dev.qmiType, dev.clientId)]
        released := dev.released ++ [(a, dev.qmiType, dev.clientId)] }

/-- `MPQCTL_HandleReleaseClientIdRsp`. -/
def handleReleaseClientIdRsp (s : State) (d : Nat) (success : Bool) : Option State :=
  let dev := s.dev d
  match dev.awaiting with
  | [] => none
  | id :: rest =>
    if success ∧ (dev.qmiType, dev.clientId) = id then
      some (s.setDev d { dev with awaiting := rest, clientId := 0, qmiType := 0 })
    else some (s.setDev d { dev with awaiting := rest })

/-! ## Open and close -/

/-- `QCIOC_IsCorrectQMIRequest` for a file object whose name has a QMI type. -/
def isCorrectQmiRequest (file : File) (create : Bool) (dev : Dev) : Bool :=
  file.qmiType == dev.qmiType &&
    if create then file.fsContext == 0 && dev.fsContext == 0 && dev.clientId != 0
    else file.fsContext == dev.clientId

/-- `MPIOC_FindIoDevice` for a file object. -/
def findIoDevice (s : State) (file : File) (create : Bool) : Option Nat :=
  s.deviceList.find? fun d =>
    (s.dev d).controlObject == file.controlObject && isCorrectQmiRequest file create (s.dev d)

/-- `IRP_MJ_CREATE` finds a device. -/
def create (s : State) (controlObject : Nat) (qmiType : UInt8) : Option State :=
  let file := File.mk controlObject qmiType 0
  if qmiType = 0 then none
  else
    match s.findIoDevice (file .failed) true with
    | none => some { s with files := s.files ++ [file .failed] }
    | some d => some { s with files := s.files ++ [file (.counting d)] }

/-- `Acquired` is set, and the lock is taken again to open the device. -/
def openDevice (s : State) (f : Nat) (file : File) (d : Nat) (started : Bool) : State :=
  let dev := s.dev d
  if dev.deviceOpenCount = 1 then
    let phase := if started then .opened d else .failing d
    if dev.clientId ≠ 0 then
      (s.setDev d { dev with idleTime := 0, fsContext := dev.clientId }).goTo f
        { file with fsContext := dev.clientId } phase
    else (s.setDev d { dev with idleTime := 0 }).goTo f file phase
  else s.goTo f file (.failing d)

/-- `IRP_MJ_CLOSE` releases the id, unless it is the one of an external CTRL client. -/
def closeRelease (externalQctlEnabled : Nat → Bool) (s : State) (d : Nat) (sent : Bool) : State :=
  let dev := s.dev d
  if externalQctlEnabled dev.adapter ∧ dev.qmiType = 0 then
    if dev.clientId ≠ 0 then s.setDev d { dev with type := .client } else s
  else s.releaseClientId dev.adapter d sent

/-- The next step of the `IRP_MJ_CREATE` or `IRP_MJ_CLOSE` of a file object. -/
def fileStep (externalQctlEnabled : Nat → Bool) (s : State) (f : Nat) (file : File)
    (answers : Answers) : Option State :=
  match file.phase with
  | .counting d =>
    let dev := s.dev d
    some ((s.setDev d { dev with deviceOpenCount := dev.deviceOpenCount + 1 }).goTo f file
      (.checking d))
  | .checking d =>
    some (s.goTo f file
      (if answers.ready ∧ (s.dev d).acquired then .opening d else .failing d))
  | .opening d => some (s.openDevice f file d answers.started)
  | .failing d =>
    let dev := s.dev d
    some ((s.setDev d { dev with deviceOpenCount := dev.deviceOpenCount - 1 }).goTo f file .failed)
  | .opened _ =>
    -- IRP_MJ_CLOSE looks for the device again, by the id
    match s.findIoDevice file false with
    | none => some (s.goTo f file .closed)
    | some d => some (s.goTo f file (.releasing d))
  | .releasing d =>
    some ((s.closeRelease externalQctlEnabled d answers.sent).goTo f file (.clearing d))
  | .clearing d =>
    some ((s.setDev d { s.dev d with acquired := false, clientId := 0 }).goTo f file
      (.uncounting d))
  | .uncounting d =>
    let dev := s.dev d
    let count := if 0 < dev.deviceOpenCount then dev.deviceOpenCount - 1 else dev.deviceOpenCount
    some ((s.setDev d { dev with deviceOpenCount := count }).goTo f file (.leaving d))
  | .leaving d =>
    let dev := s.dev d
    some (s.goTo f file
      (if dev.type = .client ∧ dev.deviceOpenCount = 0 then .deleting d else .closed))
  | .deleting d =>
    some ({ s with deviceList := s.deviceList.erase d }.goTo f file .closed)
  | .failed | .closed => none

/-! ## Idle devices -/

/-- What is cleared of an idle device. -/
def clearIdle (s : State) (d : Nat) : State :=
  s.setDev d
    { s.dev d with idleTime := 0, acquired := false, qmiType := 0, clientId := 0, type := .client }

/-- The walk of adapter `a` along devices, up to one whose id is to be released. -/
def walkFrom (s : State) (a : Nat) : List Nat → State
  | [] => s.setWalk a none
  | d :: rest =>
    let dev := s.dev d
    if dev.deviceOpenCount = 0 ∧ dev.acquired then
      if dev.idleTime ≠ 0 then
        if dev.clientId ≠ 0 then s.setWalk a (some (.releasing d))
        else (s.clearIdle d).walkFrom a rest
      else (s.setDev d { dev with idleTime := dev.idleTime + 1 }).walkFrom a rest
    else s.walkFrom a rest

/-- The devices behind `d`. -/
def behind (s : State) (d : Nat) : List Nat := (s.deviceList.dropWhile (· ≠ d)).tail

/-- The next step of `MPIOC_CheckForAquiredDeviceIdleTime` for adapter `a`. -/
def walkStep (s : State) (a : Nat) (sent : Bool) : State :=
  match s.walk a with
  | none => s.walkFrom a s.deviceList
  | some (.releasing d) => (s.releaseClientId a d sent).setWalk a (some (.resuming d))
  | some (.resuming d) =>
    if d ∈ s.deviceList then (s.clearIdle d).walkFrom a (s.behind d)
    -- thisEntry->Flink of a device that is on no list, or freed
    else { (s.clearIdle d).setWalk a none with strayed := true }

def step (externalQctlEnabled : Nat → Bool) (s : State) : Op → Option State
  | .addDevice adapter controlObject => some (s.addDevice adapter controlObject)
  | .request d grant => s.request d grant
  | .create controlObject qmiType => s.create controlObject qmiType
  | .file f answers => s.files[f]?.bind fun file => s.fileStep externalQctlEnabled f file answers
  | .walk a sent => some (s.walkStep a sent)
  | .releaseRsp d success => s.handleReleaseClientIdRsp d success

end State

/-- The clients of several adapters. -/
def idleClients (externalQctlEnabled : Nat → Bool) : Machine State Op Unit := fun s op =>
  (s.step externalQctlEnabled op).map fun s' => (s', ())

theorem step_of_idleClients {externalQctlEnabled : Nat → Bool} {s s' : State} {op : Op} {o : Unit}
    (h : idleClients externalQctlEnabled s op = some (s', o)) :
    s.step externalQctlEnabled op = some s' := by
  obtain ⟨t, ht, heq⟩ := Option.map_eq_some_iff.mp h
  obtain rfl : t = s' := congrArg Prod.fst heq
  exact ht

/-! ## What is asked -/

namespace State

/-- An open client keeps what it was granted, an id is released on its own adapter, once, and before
it is forgotten, and the walks keep to the list. -/
structure KeepsIds (s : State) : Prop where
  opened : ∀ (f : Nat) (file : File) (d : Nat), s.files[f]? = some file → file.phase = .opened d →
    d ∈ s.deviceList ∧ (s.dev d).acquired = true ∧
      (s.dev d).obtained = some ((s.dev d).qmiType, (s.dev d).clientId)
  released : ∀ d, (s.dev d).released = [] ∨
    ∃ id, (s.dev d).obtained = some id ∧ (s.dev d).released = [((s.dev d).adapter, id)]
  forgotten : ∀ d, (s.dev d).obtained ≠ none → (s.dev d).clientId = 0 → (s.dev d).released ≠ []
  strayed : s.strayed = false

/-- The device at which a walk along `ds` stops. -/
def stopsAt (s : State) (ds : List Nat) : Option Nat :=
  ds.find? fun d =>
    (s.dev d).deviceOpenCount = 0 ∧ (s.dev d).acquired ∧ (s.dev d).idleTime ≠ 0 ∧
      (s.dev d).clientId ≠ 0

/-- No walk of the device's own adapter is about to clear it. -/
def notWalked (s : State) (d : Nat) : Prop :=
  s.walk (s.dev d).adapter ≠ some (.releasing d) ∧ s.walk (s.dev d).adapter ≠ some (.resuming d)

/-- No other device of the control object has the type and id of the file object. -/
def Unmistaken (s : State) (file : File) (d : Nat) : Prop :=
  ∀ d' ∈ s.deviceList, (s.dev d').controlObject = file.controlObject →
    isCorrectQmiRequest file false (s.dev d') = true → d' = d

/-- A walk of adapter `a` along `ds` stops at a device of its own adapter. -/
def KeepsToAdapter (s : State) (a : Nat) (ds : List Nat) : Prop :=
  ∀ d ∈ s.stopsAt ds, (s.dev d).adapter = a

def FileGuarded (s : State) (file : File) (answers : Answers) : Prop :=
  match file.phase with
  | .counting d => s.notWalked d
  | .opening d => (s.dev d).deviceOpenCount = 1 → (s.dev d).acquired = true
  | .opened d => s.Unmistaken file d
  | .releasing _ => answers.sent = true
  | _ => True

def WalkGuarded (s : State) (a : Nat) (sent : Bool) : Prop :=
  match s.walk a with
  | none => s.KeepsToAdapter a s.deviceList
  | some (.releasing _) => sent = true
  | some (.resuming d) => s.KeepsToAdapter a (s.behind d)

/-- A walk stops at devices of its own adapter. A device is counted as open while no walk has stopped
at it, and is still acquired when the lock is taken to open it. When it is closed no other device of
the control object has its type and id. Releases are sent. -/
def Guarded (s : State) : Op → Prop
  | .walk a sent => s.WalkGuarded a sent
  | .file f answers => ∀ file ∈ s.files[f]?, s.FileGuarded file answers
  | _ => True

instance (s : State) (d : Nat) : Decidable (s.notWalked d) := inferInstanceAs (Decidable (_ ∧ _))

instance (s : State) (file : File) (d : Nat) : Decidable (s.Unmistaken file d) :=
  inferInstanceAs (Decidable (∀ d' ∈ s.deviceList, _ → _ → d' = d))

instance (s : State) (a : Nat) (ds : List Nat) : Decidable (s.KeepsToAdapter a ds) :=
  inferInstanceAs (Decidable (∀ d ∈ s.stopsAt ds, _ = a))

instance (s : State) (file : File) (answers : Answers) : Decidable (s.FileGuarded file answers) := by
  unfold FileGuarded
  cases file.phase <;> infer_instance

instance (s : State) (a : Nat) (sent : Bool) : Decidable (s.WalkGuarded a sent) := by
  unfold WalkGuarded
  rcases s.walk a with _ | d | d <;> infer_instance

instance (s : State) : (op : Op) → Decidable (s.Guarded op)
  | .walk a sent => inferInstanceAs (Decidable (s.WalkGuarded a sent))
  | .file f answers => inferInstanceAs (Decidable (∀ file ∈ s.files[f]?, s.FileGuarded file answers))
  | .addDevice .. | .request .. | .create .. | .releaseRsp .. => inferInstanceAs (Decidable True)

end State

end Ndis.IdleClients
