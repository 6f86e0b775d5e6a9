-- SUMMARY: Open clients and their ids: devices, file objects and walks in step, through the steps of file objects.
import QcomUsb.Ndis.IdleClients

/-!
# Open clients

A device holds the id it was granted until one release of it is sent. The count of a device is that
of the file objects that have counted themselves at it, so a walk and an open device never meet, and
of two file objects at a device one fails. Off the list a device has nothing left to give up.
-/

namespace Ndis.IdleClients

open Transition ServiceFile

/-! ## The ledger of a device -/

namespace Dev

variable {v v' : Dev}

/-- Nothing has been obtained. -/
structure Fresh (v : Dev) : Prop where
  obtained : v.obtained = none
  clientId : v.clientId = 0
  acquired : v.acquired = false
  released : v.released = []
  awaiting : v.awaiting = []

/-- The device has the id that was obtained. -/
structure Held (v : Dev) : Prop where
  request : v.request ≠ .granting
  obtained : v.obtained = some (v.qmiType, v.clientId)
  clientId : v.clientId ≠ 0
  released : v.released = []
  awaiting : v.awaiting = []

/-- The release of the id has been sent. -/
structure Given (v : Dev) : Prop where
  request : v.request ≠ .granting
  released : ∃ id, v.obtained = some id ∧ v.released = [(v.adapter, id)] ∧
    (v.clientId = 0 ∨ (v.qmiType, v.clientId) = id)

inductive Ledger (v : Dev) : Prop
  | fresh (h : v.Fresh)
  | held (h : v.Held)
  | given (h : v.Given)

/-- A walk would stop at the device, or a file object find it. -/
def Alive (v : Dev) : Prop := v.acquired = true ∨ v.clientId ≠ 0

def Dead (v : Dev) : Prop := v.Given ∧ ¬ v.Alive

theorem Held.obtained_ne (h : v.Held) : v.obtained ≠ none := by
  rw [h.obtained]
  exact Option.some_ne_none _

theorem Given.obtained_ne (h : v.Given) : v.obtained ≠ none := by
  obtain ⟨id, hid, -⟩ := h.released
  rw [hid]
  exact Option.some_ne_none _

theorem Held.not_given (h : v.Held) : ¬ v.Given := by
  intro hgiven
  obtain ⟨id, -, hreleased, -⟩ := hgiven.released
  simp [h.released] at hreleased

theorem Fresh.not_alive (h : v.Fresh) : ¬ v.Alive := by
  rintro (hacquired | hid)
  · simp [h.acquired] at hacquired
  · exact hid h.clientId

theorem Ledger.held_or_given (h : v.Ledger) (hobtained : v.obtained ≠ none) : v.Held ∨ v.Given := by
  cases h with
  | fresh h => exact absurd h.obtained hobtained
  | held h => exact .inl h
  | given h => exact .inr h

/-- A device with an id of its own has that type in its ledger. -/
theorem Ledger.obtained_type (h : v.Ledger) (hid : v.clientId ≠ 0) :
    v.obtained.map Prod.fst = some v.qmiType := by
  cases h with
  | fresh h => exact absurd h.clientId hid
  | held h => simp [h.obtained]
  | given h =>
    obtain ⟨id, hobtained, -, hzero | rfl⟩ := h.released
    · exact absurd hzero hid
    · simp [hobtained]

/-- What happens to a device without a release. -/
structure Evolves (v v' : Dev) : Prop where
  ledger : v'.Ledger
  same : v.obtained ≠ none →
    v'.adapter = v.adapter ∧ v'.controlObject = v.controlObject ∧ v'.obtained = v.obtained
  held : v.Held → v'.Held ∧ (v.acquired = true → v'.acquired = true)
  given : v.Given → v'.Given ∧ (v'.Alive → v.Alive)
  back : v'.Given → v.Given

theorem Evolves.refl (h : v.Ledger) : v.Evolves v :=
  ⟨h, fun _ => ⟨rfl, rfl, rfl⟩, fun hheld => ⟨hheld, id⟩, fun hgiven => ⟨hgiven, id⟩, id⟩

/-- A device that has obtained nothing stays so, or gets an id. -/
theorem Evolves.of_fresh (h : v.Fresh) (h' : v'.Fresh ∨ v'.Held) : v.Evolves v' := by
  refine ⟨h'.elim .fresh .held, fun hobtained => absurd h.obtained hobtained,
    fun hheld => absurd h.obtained hheld.obtained_ne,
    fun hgiven => absurd h.obtained hgiven.obtained_ne, fun hgiven => ?_⟩
  rcases h' with hfresh | hheld
  · exact absurd hfresh.obtained hgiven.obtained_ne
  · exact absurd hgiven hheld.not_given

/-- The count and what is kept beside the id are free. -/
theorem Evolves.aside (h : v.Ledger) (n : Int) (idleTime fsContext : UInt8) (type : DevType) :
    v.Evolves
      { v with
        deviceOpenCount := n
        idleTime := idleTime
        fsContext := fsContext
        type := type } where
  ledger := by
    cases h with
    | fresh h => exact .fresh ⟨h.obtained, h.clientId, h.acquired, h.released, h.awaiting⟩
    | held h => exact .held ⟨h.request, h.obtained, h.clientId, h.released, h.awaiting⟩
    | given h => exact .given ⟨h.request, h.released⟩
  same _ := ⟨rfl, rfl, rfl⟩
  held hheld :=
    ⟨⟨hheld.request, hheld.obtained, hheld.clientId, hheld.released, hheld.awaiting⟩, fun h => h⟩
  given hgiven := ⟨⟨hgiven.request, hgiven.released⟩, fun h => h⟩
  back hgiven := ⟨hgiven.request, hgiven.released⟩

/-- What has been given up can be cleared. -/
theorem Evolves.clear (h : v.Given) {v' : Dev} (hrequest : v'.request = v.request)
    (hsame : v'.adapter = v.adapter ∧ v'.controlObject = v.controlObject ∧ v'.obtained = v.obtained)
    (hreleased : v'.released = v.released) (hid : v'.clientId = 0)
    (hacquired : v'.acquired = true → v.acquired = true) : v.Evolves v' := by
  have hgiven : v'.Given := by
    obtain ⟨id, hobtained, hreleases, -⟩ := h.released
    refine ⟨by rw [hrequest]; exact h.request, id, ?_, ?_, .inl hid⟩
    · rw [hsame.2.2, hobtained]
    · rw [hreleased, hsame.1, hreleases]
  refine ⟨.given hgiven, fun _ => hsame, fun hheld => absurd h hheld.not_given,
    fun _ => ⟨hgiven, ?_⟩, fun _ => h⟩
  rintro (hacq | hne)
  · exact .inl (hacquired hacq)
  · exact absurd hid hne

/-- A release is sent on the adapter of the device. -/
def give (v : Dev) : Dev :=
  { v with
    awaiting := v.awaiting ++ [(v.qmiType, v.clientId)]
    released := v.released ++ [(v.adapter, v.qmiType, v.clientId)] }

theorem Held.give (h : v.Held) : v.give.Given :=
  ⟨h.request, (v.qmiType, v.clientId), h.obtained, by simp [Dev.give, h.released], .inr rfl⟩

theorem Evolves.dead (h : v.Evolves v') (hdead : v.Dead) : v'.Dead :=
  ⟨(h.given hdead.1).1, fun halive => hdead.2 ((h.given hdead.1).2 halive)⟩

/-- A held device keeps its type and id. -/
theorem Evolves.id_eq (h : v.Evolves v') (hheld : v.Held) :
    v'.qmiType = v.qmiType ∧ v'.clientId = v.clientId := by
  have hobtained := (h.held hheld).1.obtained
  rw [(h.same hheld.obtained_ne).2.2, hheld.obtained] at hobtained
  have hpair := Option.some.inj hobtained
  exact ⟨(congrArg Prod.fst hpair).symm, (congrArg Prod.snd hpair).symm⟩

end Dev

/-! ## File objects and walks at a device -/

namespace FilePhase

def device : FilePhase → Option Nat
  | .counting d | .checking d | .opening d | .failing d | .opened d | .releasing d | .clearing d
  | .uncounting d | .leaving d | .deleting d => some d
  | .failed | .closed => none

/-- The file object is in `DeviceOpenCount`. -/
def counted : FilePhase → Bool
  | .checking _ | .opening _ | .failing _ | .opened _ | .releasing _ | .clearing _ | .uncounting _ =>
    true
  | _ => false

/-- The device is opened by the file object, and has not been cleared. -/
def owns : FilePhase → Bool
  | .opened _ | .releasing _ | .clearing _ => true
  | _ => false

/-- The device has been cleared by the file object. -/
def past : FilePhase → Bool
  | .uncounting _ | .leaving _ | .deleting _ => true
  | _ => false

def countsAt (p : FilePhase) (d : Nat) : Bool := p.counted && p.device == some d

theorem countsAt_of_device {p : FilePhase} {d : Nat} (h : p.device = some d) :
    p.countsAt d = p.counted := by
  simp [countsAt, h]

theorem device_of_counted {p : FilePhase} (h : p.counted = true) : ∃ d, p.device = some d := by
  cases p <;> first | exact ⟨_, rfl⟩ | simp [counted] at h

theorem countsAt_of_only {p : FilePhase} {d : Nat} (h : ∀ e, p.device = some e → e = d) :
    p.countsAt d = p.counted := by
  cases hcounted : p.counted with
  | false => simp [countsAt, hcounted]
  | true =>
    obtain ⟨e, he⟩ := device_of_counted hcounted
    obtain rfl := h e he
    rw [countsAt_of_device he, hcounted]

theorem device_of_owns {p : FilePhase} (h : p.owns = true) : ∃ d, p.device = some d := by
  cases p <;> first | exact ⟨_, rfl⟩ | simp [owns] at h

theorem counted_of_owns {p : FilePhase} (h : p.owns = true) : p.counted = true := by
  cases p <;> first | rfl | simp [owns] at h

end FilePhase

namespace File

variable {file : File} {v v' : Dev}

/-- The file object has found the device by its type. -/
structure Found (file : File) (v : Dev) : Prop where
  qmiType : file.qmiType ≠ 0
  controlObject : v.controlObject = file.controlObject
  obtained : v.obtained.map Prod.fst = some file.qmiType

/-- The device is in the state that the file object expects in a phase. -/
def FitsIn (file : File) (v : Dev) : FilePhase → Prop
  | .counting _ | .checking _ | .opening _ | .failing _ => file.Found v
  | .opened _ => file.Found v ∧ v.Held ∧ v.acquired = true ∧ file.fsContext = v.clientId
  | .releasing _ => file.Found v ∧ v.Held
  | .clearing _ => v.Given
  | .uncounting _ | .leaving _ | .deleting _ => v.Dead
  | .failed | .closed => True

def Fits (file : File) (v : Dev) : Prop := file.FitsIn v file.phase

theorem Found.obtained_ne (h : file.Found v) : v.obtained ≠ none := by
  intro hnone
  have hobtained := h.obtained
  rw [hnone] at hobtained
  cases hobtained

theorem Found.evolves (h : file.Found v) (he : v.Evolves v') : file.Found v' := by
  obtain ⟨-, hcontrol, hobtained⟩ := he.same h.obtained_ne
  exact ⟨h.qmiType, hcontrol.trans h.controlObject, by rw [hobtained, h.obtained]⟩

theorem FitsIn.evolves {p : FilePhase} (h : file.FitsIn v p) (he : v.Evolves v') :
    file.FitsIn v' p := by
  cases p with
  | counting | checking | opening | failing => exact Found.evolves h he
  | opened =>
    obtain ⟨hfound, hheld, hacquired, hcontext⟩ := h
    exact ⟨hfound.evolves he, (he.held hheld).1, (he.held hheld).2 hacquired,
      hcontext.trans (he.id_eq hheld).2.symm⟩
  | releasing => exact ⟨h.1.evolves he, (he.held h.2).1⟩
  | clearing => exact (he.given h).1
  | uncounting | leaving | deleting => exact he.dead h
  | failed | closed => trivial

/-- A file object that does not own the device does not see a release. -/
theorem FitsIn.give {p : FilePhase} (h : file.FitsIn v p) (hheld : v.Held) (hown : p.owns = false) :
    file.FitsIn v.give p := by
  cases p with
  | counting | checking | opening | failing => exact ⟨h.qmiType, h.controlObject, h.obtained⟩
  | opened | releasing | clearing => cases hown
  | uncounting | leaving | deleting => exact absurd h.1 hheld.not_given
  | failed | closed => trivial

/-- A device with a file object has obtained an id. -/
theorem FitsIn.obtained_ne {p : FilePhase} (h : file.FitsIn v p) {d : Nat}
    (hd : p.device = some d) :
    v.obtained ≠ none := by
  cases p with
  | counting | checking | opening | failing => exact Found.obtained_ne h
  | opened | releasing => exact h.1.obtained_ne
  | clearing => exact Dev.Given.obtained_ne h
  | uncounting | leaving | deleting => exact h.1.obtained_ne
  | failed | closed => cases hd

/-- The phase that a file object is in says nothing about another one. -/
theorem FitsIn.fits {p : FilePhase} (h : file.FitsIn v p) :
    File.Fits { file with phase := p } v := by
  cases p with
  | counting | checking | opening | failing => exact ⟨h.qmiType, h.controlObject, h.obtained⟩
  | opened =>
    obtain ⟨hfound, hheld, hacquired, hcontext⟩ := h
    exact ⟨⟨hfound.qmiType, hfound.controlObject, hfound.obtained⟩, hheld, hacquired, hcontext⟩
  | releasing => exact ⟨⟨h.1.qmiType, h.1.controlObject, h.1.obtained⟩, h.2⟩
  | clearing | uncounting | leaving | deleting | failed | closed => exact h

theorem Fits.evolves (h : file.Fits v) (he : v.Evolves v') : file.Fits v' := FitsIn.evolves h he

theorem Fits.obtained_ne (h : file.Fits v) {d : Nat} (hd : file.phase.device = some d) :
    v.obtained ≠ none :=
  FitsIn.obtained_ne h hd

end File

namespace WalkPhase

def device : WalkPhase → Nat
  | .releasing d | .resuming d => d

/-- The device is of the adapter `a`, is not counted as open, and is in the state that the walk
expects it in. -/
structure Fits (w : WalkPhase) (a : Nat) (v : Dev) : Prop where
  adapter : v.adapter = a
  deviceOpenCount : v.deviceOpenCount = 0
  phase : match w with
    | .releasing _ => v.Held
    | .resuming _ => v.Given

theorem Fits.obtained_ne {w : WalkPhase} {a : Nat} {v : Dev} (h : w.Fits a v) :
    v.obtained ≠ none := by
  cases w with
  | releasing => exact Dev.Held.obtained_ne h.phase
  | resuming => exact Dev.Given.obtained_ne h.phase

theorem Fits.evolves {w : WalkPhase} {a : Nat} {v v' : Dev} (h : w.Fits a v) (he : v.Evolves v')
    (hcount : v'.deviceOpenCount = v.deviceOpenCount) : w.Fits a v' := by
  refine ⟨(he.same h.obtained_ne).1.trans h.adapter, hcount.trans h.deviceOpenCount, ?_⟩
  cases w with
  | releasing => exact (he.held h.phase).1
  | resuming => exact (he.given h.phase).1

end WalkPhase

/-! ## The invariant -/

namespace State

variable {s s' : State} {a d f : Nat} {file file' : File} {v : Dev}

def countedAt (s : State) (d : Nat) : Nat := s.files.countP fun file => file.phase.countsAt d

/-- Devices, file objects and walks are in step. -/
structure InStep (s : State) : Prop where
  ledger : ∀ d, (s.dev d).Ledger
  counted : ∀ d, (s.dev d).deviceOpenCount = s.countedAt d
  fits : ∀ (f : Nat) (file : File) (d : Nat), s.files[f]? = some file → file.phase.device = some d →
    file.Fits (s.dev d)
  owner : ∀ (f g : Nat) (file file' : File), s.files[f]? = some file → s.files[g]? = some file' →
    file.phase.owns = true → file'.phase.owns = true → file.phase.device = file'.phase.device → f = g
  window : ∀ a w, s.walk a = some w → w.Fits a (s.dev w.device)
  past : ∀ (f : Nat) (file : File) (d : Nat), s.files[f]? = some file → file.phase.past = true →
    file.phase.device = some d → s.notWalked d
  pending : ∀ d, (s.dev d).Given → (s.dev d).Alive →
    (∃ (f : Nat) (file : File), s.files[f]? = some file ∧ file.phase = .clearing d) ∨
      s.walk (s.dev d).adapter = some (.resuming d)

/-- The list has every device that is not given up, each once, and those that walks have stopped
at. -/
structure Listed (s : State) : Prop where
  nodup : s.deviceList.Nodup
  born : ∀ d ∈ s.deviceList, d < s.nextDev
  unused : ∀ d, s.nextDev ≤ d → s.dev d = Dev.unused
  listed : ∀ d, d < s.nextDev → d ∈ s.deviceList ∨ (s.dev d).Dead
  window : ∀ a w, s.walk a = some w → w.device ∈ s.deviceList
  strayed : s.strayed = false

structure Inv (s : State) : Prop where
  inStep : s.InStep
  listed : s.Listed

theorem notWalked.of_eq (h : s.notWalked d) (hadapter : (s'.dev d).adapter = (s.dev d).adapter)
    (hwalk : s'.walk = s.walk) : s'.notWalked d := by
  unfold notWalked
  rw [hadapter, hwalk]
  exact h

theorem notWalked.device_ne (h : s.notWalked d) {w : WalkPhase} (hw : s.walk a = some w)
    (hfits : w.Fits a (s.dev w.device)) : w.device ≠ d := by
  rintro rfl
  obtain rfl := hfits.adapter
  cases w with
  | releasing => exact h.1 hw
  | resuming => exact h.2 hw

@[simp] theorem setDev_dev_self : (s.setDev d v).dev d = v := Function.update_self ..

theorem setDev_dev_ne {e : Nat} (h : e ≠ d) : (s.setDev d v).dev e = s.dev e :=
  Function.update_of_ne h ..

theorem InStep.evolves (h : s.InStep) (he : (s.dev d).Evolves v) (e : Nat) :
    (s.dev e).Evolves ((s.setDev d v).dev e) := by
  rcases eq_or_ne e d with rfl | hne
  · simpa using he
  · rw [setDev_dev_ne hne]
    exact .refl (h.ledger e)

theorem setDev_deviceOpenCount (hcount : v.deviceOpenCount = (s.dev d).deviceOpenCount) (e : Nat) :
    ((s.setDev d v).dev e).deviceOpenCount = (s.dev e).deviceOpenCount := by
  rcases eq_or_ne e d with rfl | hne
  · simpa using hcount
  · rw [setDev_dev_ne hne]

/-- A device evolves. -/
theorem InStep.setDev (h : s.InStep) (he : (s.dev d).Evolves v)
    (hcount : v.deviceOpenCount = (s.dev d).deviceOpenCount) : (s.setDev d v).InStep := by
  have hevolves := h.evolves he
  have hcounts := setDev_deviceOpenCount hcount
  constructor
  · exact fun e => (hevolves e).ledger
  · exact fun e => (hcounts e).trans (h.counted e)
  · exact fun f file e hf hdevice => (h.fits f file e hf hdevice).evolves (hevolves e)
  · exact h.owner
  · exact fun a w hw => (h.window a w hw).evolves (hevolves w.device) (hcounts w.device)
  · intro f file e hf hpast hdevice
    have hobtained := (h.fits f file e hf hdevice).obtained_ne hdevice
    exact (h.past f file e hf hpast hdevice).of_eq ((hevolves e).same hobtained).1 rfl
  · intro e hgiven halive
    have hback := (hevolves e).back hgiven
    rw [((hevolves e).same hback.obtained_ne).1]
    exact h.pending e hback (((hevolves e).given hback).2 halive)

theorem Listed.setDev (h : s.Listed) (hd : d < s.nextDev) (hdead : (s.dev d).Dead → v.Dead) :
    (s.setDev d v).Listed := by
  refine ⟨h.nodup, h.born, fun e (hle : s.nextDev ≤ e) => ?_, fun e hlt => ?_, h.window, h.strayed⟩
  · rw [setDev_dev_ne (by omega)]
    exact h.unused e hle
  · rcases eq_or_ne e d with rfl | hne
    · rw [setDev_dev_self]
      exact (h.listed e hlt).imp_right hdead
    · rw [setDev_dev_ne hne]
      exact h.listed e hlt

theorem Listed.files (h : s.Listed) (files : List File) : { s with files := files }.Listed :=
  ⟨h.nodup, h.born, h.unused, h.listed, h.window, h.strayed⟩

theorem Inv.setDev (h : s.Inv) (hd : d < s.nextDev) (he : (s.dev d).Evolves v)
    (hcount : v.deviceOpenCount = (s.dev d).deviceOpenCount) : (s.setDev d v).Inv :=
  ⟨h.inStep.setDev he hcount, h.listed.setDev hd he.dead⟩

/-- A device of which something has been obtained has been added. -/
theorem Listed.lt_nextDev (h : s.Listed) (hobtained : (s.dev d).obtained ≠ none) :
    d < s.nextDev := by
  by_contra hlt
  exact hobtained (by rw [h.unused d (by omega)]; rfl)

theorem Listed.mem_of_not_dead (h : s.Listed) (hobtained : (s.dev d).obtained ≠ none)
    (hdead : ¬ (s.dev d).Dead) : d ∈ s.deviceList :=
  (h.listed d (h.lt_nextDev hobtained)).resolve_right hdead

/-! ## Steps of a file object -/

section

variable (h : s.InStep) (hf : s.files[f]? = some file)

include hf

theorem countP_set_files (file' : File) (p : File → Bool) :
    ((s.files.set f file').countP p : Int) + (p file).toNat =
      s.files.countP p + (p file').toNat := by
  obtain ⟨hlt, hget⟩ := List.getElem?_eq_some_iff.mp hf
  have hpos : (p file).toNat ≤ s.files.countP p := by
    cases hp : p file with
    | false => exact Nat.zero_le _
    | true => exact List.countP_pos_iff.mpr ⟨file, List.mem_of_getElem? hf, hp⟩
  have hite : ∀ b : Bool, (if b = true then 1 else 0) = b.toNat := by decide
  rw [List.countP_set hlt, hget, hite, hite]
  omega

include h

theorem InStep.fitsIn {p : FilePhase} (hphase : file.phase = p) (hdevice : p.device = some d) :
    file.FitsIn (s.dev d) p := by
  subst hphase
  exact h.fits f file d hf hdevice

/-- A file object that is counted is seen in the count of its device. -/
theorem InStep.count_pos (hdevice : file.phase.device = some d)
    (hcounted : file.phase.counted = true) : 0 < (s.dev d).deviceOpenCount := by
  rw [h.counted d]
  have hcounts : file.phase.countsAt d = true := by
    rw [FilePhase.countsAt_of_device hdevice, hcounted]
  exact_mod_cast List.countP_pos_iff.mpr ⟨file, List.mem_of_getElem? hf, hcounts⟩

/-- A second one makes it two. -/
theorem InStep.two_le_count {g : Nat} {other : File} (hg : s.files[g]? = some other) (hne : g ≠ f)
    (hdevice : file.phase.device = some d) (hcounted : file.phase.counted = true)
    (hdevice' : other.phase.device = some d) (hcounted' : other.phase.counted = true) :
    2 ≤ (s.dev d).deviceOpenCount := by
  rw [h.counted d]
  have hcounts : file.phase.countsAt d = true := by
    rw [FilePhase.countsAt_of_device hdevice, hcounted]
  have hcounts' : other.phase.countsAt d = true := by
    rw [FilePhase.countsAt_of_device hdevice', hcounted']
  have hset := countP_set_files hf { file with phase := .failed } fun file => file.phase.countsAt d
  have hrest : 0 < (s.files.set f { file with phase := .failed }).countP
      fun file => file.phase.countsAt d := by
    refine List.countP_pos_iff.mpr ⟨other, ?_, hcounts'⟩
    exact List.mem_of_getElem? (by rw [List.getElem?_set_ne hne.symm, hg])
  rw [hcounts, show FilePhase.failed.countsAt d = false from rfl] at hset
  unfold countedAt
  simp only [Bool.toNat_true, Bool.toNat_false] at hset
  omega

/-- No walk has stopped at a device that is counted as open. -/
theorem InStep.notWalked_of_counted (hdevice : file.phase.device = some d)
    (hcounted : file.phase.counted = true) : s.notWalked d := by
  have hpos := h.count_pos hf hdevice hcounted
  constructor <;> intro hwalk <;> exact hpos.ne' (h.window _ _ hwalk).deviceOpenCount

omit h in
/-- A file object is the one that has moved, or was there before. -/
theorem eq_or_of_set {g : Nat} {other : File} (hg : (s.files.set f file')[g]? = some other) :
    g = f ∧ other = file' ∨ g ≠ f ∧ s.files[g]? = some other := by
  obtain ⟨hlt, -⟩ := List.getElem?_eq_some_iff.mp hf
  rcases eq_or_ne g f with rfl | hne
  · rw [List.getElem?_set_self hlt] at hg
    exact .inl ⟨rfl, (Option.some.inj hg).symm⟩
  · rw [List.getElem?_set_ne hne.symm] at hg
    exact .inr ⟨hne, hg⟩

/-- A file object that owns its device, or is the only one counted, leaves no owner beside it. -/
theorem InStep.no_other_owner (hdevice : file.phase.device = some d)
    (howns : file.phase.owns = true ∨ (s.dev d).deviceOpenCount = 1 ∧ file.phase.counted = true)
    {g : Nat} {other : File} (hne : g ≠ f) (hg : s.files[g]? = some other)
    (hother : other.phase.device = some d) : other.phase.owns = false := by
  by_contra hown
  simp only [Bool.not_eq_false] at hown
  rcases howns with howns | ⟨hone, hcounted⟩
  · exact hne (h.owner g f other file hg hf hown howns (hother.trans hdevice.symm))
  · have htwo := h.two_le_count hf hg hne hdevice hcounted hother (FilePhase.counted_of_owns hown)
    omega

/-- A file object moves on at its device. -/
theorem InStep.move (hdevice : file.phase.device = some d) {v : Dev} {file' : File}
    (hdevice' : ∀ e, file'.phase.device = some e → e = d) (hledger : v.Ledger)
    (hadapter : v.adapter = (s.dev d).adapter)
    (hcount : v.deviceOpenCount + (file.phase.counted.toNat : Int) =
      (s.dev d).deviceOpenCount + (file'.phase.countsAt d).toNat)
    (hfits : file'.phase.device = some d → file'.Fits v)
    (hothers : ∀ (g : Nat) (other : File), g ≠ f → s.files[g]? = some other →
      other.phase.device = some d → other.Fits v)
    (howns : file'.phase.owns = true →
      file.phase.owns = true ∨ (s.dev d).deviceOpenCount = 1 ∧ file.phase.counted = true)
    (hwindow : s.notWalked d ∨
      (s.dev d).Evolves v ∧ v.deviceOpenCount = (s.dev d).deviceOpenCount)
    (hpast : file'.phase.past = true → s.notWalked d)
    (hpending : v.Given → v.Alive → file'.phase = .clearing d ∨
      file.phase ≠ .clearing d ∧ (s.dev d).Given ∧ (s.dev d).Alive) :
    { s.setDev d v with files := s.files.set f file' }.InStep := by
  obtain ⟨hlt, -⟩ := List.getElem?_eq_some_iff.mp hf
  have hadapters : ∀ e, ((s.setDev d v).dev e).adapter = (s.dev e).adapter := by
    intro e
    rcases eq_or_ne e d with rfl | hne
    · simpa using hadapter
    · rw [setDev_dev_ne hne]
  constructor
  · intro e
    change ((s.setDev d v).dev e).Ledger
    rcases eq_or_ne e d with rfl | hne
    · simpa using hledger
    · rw [setDev_dev_ne hne]
      exact h.ledger e
  · intro e
    change ((s.setDev d v).dev e).deviceOpenCount = _
    have hset := countP_set_files hf file' fun file => file.phase.countsAt e
    have hcounted := h.counted e
    unfold countedAt at hcounted ⊢
    rcases eq_or_ne e d with rfl | hne
    · rw [FilePhase.countsAt_of_device hdevice] at hset
      simp only [setDev_dev_self]
      omega
    · have hold : file.phase.countsAt e = false := by
        simp [FilePhase.countsAt, hdevice, hne.symm]
      have hnew : file'.phase.countsAt e = false := by
        by_contra hcounts
        simp only [FilePhase.countsAt, Bool.not_eq_false, Bool.and_eq_true, beq_iff_eq] at hcounts
        exact hne (hdevice' e hcounts.2)
      rw [hold, hnew] at hset
      rw [setDev_dev_ne hne, hcounted]
      simpa using hset.symm
  · intro g other e hg he
    change other.Fits ((s.setDev d v).dev e)
    rcases eq_or_of_set hf hg with ⟨rfl, rfl⟩ | ⟨hne, hold⟩
    · obtain rfl := hdevice' e he
      simpa using hfits he
    · rcases eq_or_ne e d with rfl | hed
      · simpa using hothers g other hne hold he
      · rw [setDev_dev_ne hed]
        exact h.fits g other e hold he
  · -- the owner of a device is the one that has moved, or was an owner before
    have hnone : ∀ (g : Nat) (other : File), g ≠ f → s.files[g]? = some other →
        file'.phase.owns = true → other.phase.owns = true →
        file'.phase.device ≠ other.phase.device := by
      intro g other hne hg hown hown' hsame
      obtain ⟨e, he⟩ := FilePhase.device_of_owns hown
      obtain rfl := hdevice' e he
      have hfalse := h.no_other_owner hf hdevice (howns hown) hne hg (hsame.symm.trans he)
      simp [hfalse] at hown'
    intro g g' other other' hg hg' hown hown' hsame
    rcases eq_or_of_set hf hg with ⟨rfl, rfl⟩ | ⟨hne, hold⟩ <;>
      rcases eq_or_of_set hf hg' with ⟨rfl, rfl⟩ | ⟨hne', hold'⟩
    · rfl
    · exact absurd hsame (hnone g' other' hne' hold' hown hown')
    · exact absurd hsame.symm (hnone g other hne hold hown' hown)
    · exact h.owner g g' other other' hold hold' hown hown' hsame
  · intro a w hw
    change w.Fits a ((s.setDev d v).dev w.device)
    have hfit := h.window a w hw
    rcases hwindow with hnot | ⟨he, hcount⟩
    · rw [setDev_dev_ne (hnot.device_ne hw hfit)]
      exact hfit
    · exact hfit.evolves (h.evolves he w.device) (setDev_deviceOpenCount hcount w.device)
  · intro g other e hg hpast' he
    have hwalked : s.notWalked e := by
      rcases eq_or_of_set hf hg with ⟨rfl, rfl⟩ | ⟨hne, hold⟩
      · obtain rfl := hdevice' e he
        exact hpast hpast'
      · exact h.past g other e hold hpast' he
    exact hwalked.of_eq (hadapters e) rfl
  · intro e hgiven halive
    change (∃ (g : Nat) (other : File), (s.files.set f file')[g]? = some other ∧
      other.phase = .clearing e) ∨ s.walk ((s.setDev d v).dev e).adapter = _
    rw [hadapters e]
    -- one that clears the device still does, if it is not the one that has moved
    have hstays : file.phase ≠ .clearing e →
        (∃ (g : Nat) (other : File), s.files[g]? = some other ∧ other.phase = .clearing e) →
        ∃ (g : Nat) (other : File), (s.files.set f file')[g]? = some other ∧
          other.phase = .clearing e := by
      rintro hphase ⟨g, other, hg, hclears⟩
      refine ⟨g, other, ?_, hclears⟩
      rw [List.getElem?_set_ne, hg]
      rintro rfl
      obtain rfl := Option.some.inj (hf.symm.trans hg)
      exact hphase hclears
    rcases eq_or_ne e d with rfl | hne
    · change ((s.setDev e v).dev e).Given at hgiven
      change ((s.setDev e v).dev e).Alive at halive
      rw [setDev_dev_self] at hgiven halive
      rcases hpending hgiven halive with hclears | ⟨hphase, hgiven, halive⟩
      · exact .inl ⟨f, file', List.getElem?_set_self hlt, hclears⟩
      · exact (h.pending e hgiven halive).imp_left (hstays hphase)
    · change ((s.setDev d v).dev e).Given at hgiven
      change ((s.setDev d v).dev e).Alive at halive
      rw [setDev_dev_ne hne] at hgiven halive
      refine (h.pending e hgiven halive).imp_left (hstays ?_)
      intro hphase
      rw [hphase] at hdevice
      exact hne (Option.some.inj hdevice)

/-- Its device evolves by it. -/
theorem InStep.moveEvolves (hdevice : file.phase.device = some d) {v : Dev} {file' : File}
    (hdevice' : ∀ e, file'.phase.device = some e → e = d) (he : (s.dev d).Evolves v)
    (hcount : v.deviceOpenCount + (file.phase.counted.toNat : Int) =
      (s.dev d).deviceOpenCount + (file'.phase.countsAt d).toNat)
    (hfits : file'.phase.device = some d → file'.Fits v)
    (howns : file'.phase.owns = true →
      file.phase.owns = true ∨ (s.dev d).deviceOpenCount = 1 ∧ file.phase.counted = true)
    (hwindow : v.deviceOpenCount = (s.dev d).deviceOpenCount ∨ s.notWalked d)
    (hpast : file'.phase.past = true → s.notWalked d)
    (hclear : file.phase = .clearing d → v.Given → ¬ v.Alive) :
    { s.setDev d v with files := s.files.set f file' }.InStep := by
  have hobtained := (h.fits f file d hf hdevice).obtained_ne hdevice
  apply h.move hf hdevice hdevice' he.ledger (he.same hobtained).1 hcount hfits
  · exact fun g other _ hg hother => (h.fits g other d hg hother).evolves he
  · exact howns
  · exact hwindow.symm.imp_right fun hcount => ⟨he, hcount⟩
  · exact hpast
  · intro hgiven halive
    have hback := he.back hgiven
    exact .inr ⟨fun hphase => hclear hphase hgiven halive, hback, (he.given hback).2 halive⟩

/-- A file object that closes its device gives the id up. -/
theorem InStep.moveGive (hphase : file.phase = .releasing d) :
    ((s.setDev d (s.dev d).give).goTo f file (.clearing d)).InStep := by
  have hdevice : file.phase.device = some d := by rw [hphase]; rfl
  have hcounted : file.phase.counted = true := by rw [hphase]; rfl
  have howns : file.phase.owns = true := by rw [hphase]; rfl
  have hheld : (s.dev d).Held := (h.fitsIn hf hphase rfl).2
  have hgiven := hheld.give
  apply h.move hf hdevice (by simp [FilePhase.device]) (.given hgiven) rfl
  · rw [hcounted, FilePhase.countsAt_of_device rfl]
    rfl
  · exact fun _ => hgiven
  · intro g other hne hg hother
    have hnone := h.no_other_owner hf hdevice (.inl howns) hne hg hother
    exact File.FitsIn.give (h.fits g other d hg hother) hheld hnone
  · exact fun _ => .inl howns
  · exact .inl (h.notWalked_of_counted hf hdevice hcounted)
  · simp [FilePhase.past]
  · exact fun _ _ => .inl rfl

end

theorem setDev_self : s.setDev d (s.dev d) = s := by
  unfold setDev
  rw [Function.update_eq_self]

section

variable {p p' : FilePhase} (h : s.Inv) (hf : s.files[f]? = some file) (hphase : file.phase = p)

include h hf hphase

/-- A file object moves on, and its device evolves by it. -/
theorem Inv.moveEvolves (hdevice : p.device = some d) (hdevice' : ∀ e, p'.device = some e → e = d)
    (he : (s.dev d).Evolves v)
    (hcount : v.deviceOpenCount + (p.counted.toNat : Int) =
      (s.dev d).deviceOpenCount + p'.counted.toNat)
    (hfits : file'.FitsIn v p')
    (howns : p'.owns = true → p.owns = true ∨ (s.dev d).deviceOpenCount = 1 ∧ p.counted = true)
    (hwindow : v.deviceOpenCount = (s.dev d).deviceOpenCount ∨ s.notWalked d)
    (hpast : p'.past = true → s.notWalked d) (hclear : p = .clearing d → v.Given → ¬ v.Alive) :
    ((s.setDev d v).goTo f file' p').Inv := by
  subst hphase
  have hobtained := (h.inStep.fits f file d hf hdevice).obtained_ne hdevice
  rw [← FilePhase.countsAt_of_only hdevice'] at hcount
  have hin : ((s.setDev d v).goTo f file' p').InStep :=
    h.inStep.moveEvolves hf hdevice hdevice' he hcount (fun _ => hfits.fits) howns hwindow hpast
      hclear
  exact ⟨hin, (h.listed.setDev (h.listed.lt_nextDev hobtained) he.dead).files _⟩

/-- A file object moves on beside its device. -/
theorem Inv.goTo (hdevice : p.device = some d) (hdevice' : ∀ e, p'.device = some e → e = d)
    (hcount : p'.counted = p.counted) (hfits : file.FitsIn (s.dev d) p')
    (howns : p'.owns = true → p.owns = true) (hpast : p'.past = true → s.notWalked d)
    (hclear : p ≠ .clearing d) : (s.goTo f file p').Inv := by
  have hmove := h.moveEvolves hf hphase hdevice hdevice' (.refl (h.inStep.ledger d))
    (by rw [hcount]) hfits (fun hown => .inl (howns hown)) (.inl rfl) hpast
    (fun hphase => absurd hphase hclear)
  rwa [setDev_self] at hmove

end

theorem device_eq (d : Nat) : ∀ e, some d = some e → e = d := fun _ he => (Option.some.inj he).symm

/-- `IRP_MJ_CLOSE` finds the device that was opened. -/
theorem findIoDevice_opened (h : s.Inv) (hf : s.files[f]? = some file)
    (hphase : file.phase = .opened d) (hunmistaken : s.Unmistaken file d) :
    s.findIoDevice file false = some d := by
  obtain ⟨hfound, hheld, hacquired, hcontext⟩ := h.inStep.fitsIn hf hphase rfl
  have hmem : d ∈ s.deviceList :=
    h.listed.mem_of_not_dead hfound.obtained_ne fun hdead => hdead.2 (.inl hacquired)
  have htype : file.qmiType = (s.dev d).qmiType := by
    have hpair := hfound.obtained
    rw [hheld.obtained] at hpair
    exact (Option.some.inj hpair).symm
  unfold findIoDevice
  cases hfind : s.deviceList.find? _ with
  | none =>
    have hnot := List.find?_eq_none.mp hfind d hmem
    simp [hfound.controlObject, isCorrectQmiRequest, htype, hcontext] at hnot
  | some e =>
    have hcorrect := List.find?_some hfind
    simp only [Bool.and_eq_true, beq_iff_eq] at hcorrect
    rw [hunmistaken e (List.mem_of_find?_eq_some hfind) hcorrect.1 hcorrect.2]

/-- A device that is acquired, and that nobody else gives up, is held. -/
theorem InStep.held_of_acquired (h : s.InStep) (hacquired : (s.dev d).acquired = true)
    (hnone : ∀ (g : Nat) (other : File), s.files[g]? = some other → other.phase ≠ .clearing d)
    (hwalk : s.walk (s.dev d).adapter ≠ some (.resuming d)) : (s.dev d).Held := by
  cases h.ledger d with
  | fresh hfresh => exact absurd (.inl hacquired) hfresh.not_alive
  | held hheld => exact hheld
  | given hgiven =>
    rcases h.pending d hgiven (.inl hacquired) with ⟨g, other, hg, hphase⟩ | hresuming
    · exact absurd hphase (hnone g other hg)
    · exact absurd hresuming hwalk

/-- The device is opened by the one file object that is counted. -/
theorem Inv.openDevice (h : s.Inv) (hf : s.files[f]? = some file) (hphase : file.phase = .opening d)
    (hacquired : (s.dev d).deviceOpenCount = 1 → (s.dev d).acquired = true) (started : Bool) :
    (s.openDevice f file d started).Inv := by
  have hfound : file.Found (s.dev d) := h.inStep.fitsIn hf hphase rfl
  have hdevice : file.phase.device = some d := by rw [hphase]; rfl
  have hcounted : file.phase.counted = true := by rw [hphase]; rfl
  unfold State.openDevice
  by_cases hone : (s.dev d).deviceOpenCount = 1
  · have hheld : (s.dev d).Held := by
      apply h.inStep.held_of_acquired (hacquired hone)
      · rintro g other hg hclears
        have hne : g ≠ f := by
          rintro rfl
          obtain rfl := Option.some.inj (hf.symm.trans hg)
          rw [hphase] at hclears
          cases hclears
        have htwo := h.inStep.two_le_count hf hg hne hdevice hcounted (by rw [hclears]; rfl)
          (by rw [hclears]; rfl)
        omega
      · exact (h.inStep.notWalked_of_counted hf hdevice hcounted).2
    have he : (s.dev d).Evolves { s.dev d with idleTime := 0, fsContext := (s.dev d).clientId } :=
      .aside (h.inStep.ledger d) ..
    simp only [if_pos hone, ne_eq, hheld.clientId, not_false_eq_true, if_true]
    cases started with
    | true =>
      exact h.moveEvolves hf hphase rfl (device_eq d) he rfl
        ⟨⟨hfound.qmiType, hfound.controlObject, hfound.obtained⟩, (he.held hheld).1,
          hacquired hone, rfl⟩
        (fun _ => .inr ⟨hone, rfl⟩) (.inl rfl) nofun nofun
    | false =>
      exact h.moveEvolves hf hphase rfl (device_eq d) he rfl
        ⟨hfound.qmiType, hfound.controlObject, hfound.obtained⟩ nofun (.inl rfl) nofun nofun
  · simp only [if_neg hone]
    exact h.goTo hf hphase rfl (device_eq d) rfl hfound nofun nofun nofun

theorem releaseClientId_of_held (h : (s.dev d).Held) :
    s.releaseClientId (s.dev d).adapter d true = s.setDev d (s.dev d).give := by
  simp [releaseClientId, h.clientId, Dev.give]

/-- The id is given up on the adapter of the device. -/
theorem Inv.closeRelease (h : s.Inv) (hf : s.files[f]? = some file)
    (hphase : file.phase = .releasing d) (externalQctlEnabled : Nat → Bool) :
    ((s.closeRelease externalQctlEnabled d true).goTo f file (.clearing d)).Inv := by
  obtain ⟨hfound, hheld⟩ := h.inStep.fitsIn hf hphase rfl
  have htype : (s.dev d).qmiType ≠ 0 := by
    have hpair := hfound.obtained
    rw [hheld.obtained] at hpair
    rw [show (s.dev d).qmiType = file.qmiType from Option.some.inj hpair]
    exact hfound.qmiType
  have hlt := h.listed.lt_nextDev hfound.obtained_ne
  simp only [State.closeRelease, htype, and_false, if_false]
  rw [releaseClientId_of_held hheld]
  exact ⟨h.inStep.moveGive hf hphase,
    (h.listed.setDev hlt fun hdead => absurd hdead.1 hheld.not_given).files _⟩

/-- The device is cleared by the file object that has given its id up. -/
theorem Inv.closeClear (h : s.Inv) (hf : s.files[f]? = some file)
    (hphase : file.phase = .clearing d) :
    ((s.setDev d { s.dev d with acquired := false, clientId := 0 }).goTo f file
      (.uncounting d)).Inv := by
  have hgiven : (s.dev d).Given := h.inStep.fitsIn hf hphase rfl
  have he : (s.dev d).Evolves { s.dev d with acquired := false, clientId := 0 } :=
    .clear hgiven rfl ⟨rfl, rfl, rfl⟩ rfl rfl nofun
  have hdead : ¬ Dev.Alive { s.dev d with acquired := false, clientId := 0 } := by
    rintro (hacquired | hid)
    · cases hacquired
    · exact hid rfl
  have hnot : s.notWalked d :=
    h.inStep.notWalked_of_counted hf (by rw [hphase]; rfl) (by rw [hphase]; rfl)
  exact h.moveEvolves hf hphase rfl (device_eq d) he rfl ⟨(he.given hgiven).1, hdead⟩ nofun
    (.inl rfl) (fun _ => hnot) fun _ _ => hdead

/-- The device is taken off the list by a file object that has cleared it. -/
theorem Inv.deleteDevice (h : s.Inv) (hf : s.files[f]? = some file)
    (hphase : file.phase = .deleting d) :
    ({ s with deviceList := s.deviceList.erase d }.goTo f file .closed).Inv := by
  have hdead : (s.dev d).Dead := h.inStep.fitsIn hf hphase rfl
  have hnot : s.notWalked d :=
    h.inStep.past f file d hf (by rw [hphase]; rfl) (by rw [hphase]; rfl)
  have hclosed : (s.goTo f file .closed).Inv :=
    h.goTo hf hphase rfl nofun rfl trivial nofun nofun nofun
  have hin := hclosed.inStep
  refine ⟨⟨hin.ledger, hin.counted, hin.fits, hin.owner, hin.window, hin.past, hin.pending⟩,
    h.listed.nodup.erase d, fun e he => h.listed.born e (List.mem_of_mem_erase he), h.listed.unused,
    fun e hlt => ?_, fun a w hw => ?_, h.listed.strayed⟩
  · rcases eq_or_ne e d with rfl | hne
    · exact .inr hdead
    · exact (h.listed.listed e hlt).imp_left (List.mem_erase_of_ne hne).mpr
  · have hne := hnot.device_ne hw (h.inStep.window a w hw)
    exact (List.mem_erase_of_ne hne).mpr (h.listed.window a w hw)

/-- Every step of a file object that meets its condition. -/
theorem Inv.fileStep (h : s.Inv) (hf : s.files[f]? = some file) {externalQctlEnabled : Nat → Bool}
    {answers : Answers} (hguard : s.FileGuarded file answers)
    (hs : s.fileStep externalQctlEnabled f file answers = some s') : s'.Inv := by
  unfold FileGuarded at hguard
  unfold State.fileStep at hs
  cases hphase : file.phase with
  | counting d =>
    simp only [hphase, Option.some.injEq] at hs hguard
    subst hs
    have hfound : file.Found (s.dev d) := h.inStep.fitsIn hf hphase rfl
    exact h.moveEvolves hf hphase rfl (device_eq d) (.aside (h.inStep.ledger d) ..)
      (by simp [FilePhase.counted]) ⟨hfound.qmiType, hfound.controlObject, hfound.obtained⟩ nofun
      (.inr hguard) nofun nofun
  | checking d =>
    simp only [hphase, Option.some.injEq] at hs
    subst hs
    have hfound : file.Found (s.dev d) := h.inStep.fitsIn hf hphase rfl
    split_ifs
    · exact h.goTo hf hphase rfl (device_eq d) rfl hfound nofun nofun nofun
    · exact h.goTo hf hphase rfl (device_eq d) rfl hfound nofun nofun nofun
  | opening d =>
    simp only [hphase, Option.some.injEq] at hs hguard
    subst hs
    exact h.openDevice hf hphase hguard answers.started
  | failing d =>
    simp only [hphase, Option.some.injEq] at hs
    subst hs
    have hnot : s.notWalked d :=
      h.inStep.notWalked_of_counted hf (by rw [hphase]; rfl) (by rw [hphase]; rfl)
    exact h.moveEvolves hf hphase rfl nofun (.aside (h.inStep.ledger d) ..)
      (by simp [FilePhase.counted]) trivial nofun (.inr hnot) nofun nofun
  | failed => simp [hphase] at hs
  | opened d =>
    simp only [hphase] at hs hguard
    rw [findIoDevice_opened h hf hphase hguard] at hs
    obtain rfl := Option.some.inj hs
    obtain ⟨hfound, hheld, -⟩ := h.inStep.fitsIn hf hphase rfl
    exact h.goTo hf hphase rfl (device_eq d) rfl ⟨hfound, hheld⟩ (fun _ => rfl) nofun nofun
  | releasing d =>
    simp only [hphase, Option.some.injEq] at hs hguard
    subst hs
    rw [hguard]
    exact h.closeRelease hf hphase externalQctlEnabled
  | clearing d =>
    simp only [hphase, Option.some.injEq] at hs
    subst hs
    exact h.closeClear hf hphase
  | uncounting d =>
    simp only [hphase, Option.some.injEq] at hs
    subst hs
    have hdead : (s.dev d).Dead := h.inStep.fitsIn hf hphase rfl
    have hpos := h.inStep.count_pos hf (d := d) (by rw [hphase]; rfl) (by rw [hphase]; rfl)
    have hnot : s.notWalked d :=
      h.inStep.notWalked_of_counted hf (by rw [hphase]; rfl) (by rw [hphase]; rfl)
    rw [if_pos hpos]
    have he : (s.dev d).Evolves { s.dev d with deviceOpenCount := (s.dev d).deviceOpenCount - 1 } :=
      .aside (h.inStep.ledger d) ..
    exact h.moveEvolves hf hphase rfl (device_eq d) he (by simp [FilePhase.counted])
      (he.dead hdead) nofun (.inr hnot) (fun _ => hnot) nofun
  | leaving d =>
    simp only [hphase, Option.some.injEq] at hs
    subst hs
    have hdead : (s.dev d).Dead := h.inStep.fitsIn hf hphase rfl
    have hnot : s.notWalked d :=
      h.inStep.past f file d hf (by rw [hphase]; rfl) (by rw [hphase]; rfl)
    split_ifs
    · exact h.goTo hf hphase rfl (device_eq d) rfl hdead nofun (fun _ => hnot) nofun
    · exact h.goTo hf hphase rfl nofun rfl trivial nofun nofun nofun
  | deleting d =>
    simp only [hphase, Option.some.injEq] at hs
    subst hs
    exact h.deleteDevice hf hphase
  | closed => simp [hphase] at hs

end State

end Ndis.IdleClients
