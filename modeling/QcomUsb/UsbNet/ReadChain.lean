-- SUMMARY: The read chain of the QMI device: the callbacks of the interrupt URB and of the read URB, StartRead and KillRead, step by step; one URB at a time, and when KillRead frees what is still in use.
import QcomUsb.Library.Routines
import QcomUsb.Library.Transition
import QcomUsb.UsbNet.ReadDispatch

/-!
# The read chain

The interrupt URB says that a message is there. `IntCallback` then submits the read URB, and
`ReadCallback` submits the interrupt URB again. `StartRead` starts this chain and `KillRead` ends it,
from the thread that registers, suspends, resumes or removes the device.
-/

namespace UsbNet

open Transition Routines

/-! ## The code -/

inductive UrbKind
  | int
  | read
  deriving DecidableEq

/-- One of the two URBs, and the call of `StartRead` that allocated it with its buffer. -/
structure ChainUrb where
  kind : UrbKind
  start : Nat
  deriving DecidableEq

/-- The interrupt URB as it is given back, as far as `IntCallback` tells the cases apart. -/
inductive IntResult
  | failed
  | overflow
  | responseAvailable
  -- `USB_CDC_NOTIFY_SPEED_CHANGE`, or not known
  | other
  deriving DecidableEq

inductive IntPc
  | entered (result : IntResult)
  | submitRead
  | resubmit
  | returns
  deriving DecidableEq

inductive ReadPc
  | entered
  | resubmit
  | returns
  deriving DecidableEq

/-- A callback at work, with the URB it is the callback of. -/
inductive Callback
  | int (start : Nat) (pc : IntPc)
  | read (start : Nat) (pc : ReadPc)
  deriving DecidableEq

def Callback.urb : Callback → ChainUrb
  | .int start _ => ⟨.int, start⟩
  | .read start _ => ⟨.read, start⟩

/-- Where `StartRead` or `KillRead` is. -/
inductive PowerPc
  | idle
  | submitInt (start : Nat)
  | killRead
  | waitRead (start : Nat)
  | killInt
  | waitInt (start : Nat)
  | freeBuffers
  | freeUrbs
  deriving DecidableEq

structure ReadChain where
  mbQMIValid : Bool
  mpIntURB : Option Nat
  mpReadURB : Option Nat
  tables : NetDev → List SClientMemList
  power : PowerPc
  callbacks : List Callback
  -- the URBs that the USB core has, and the one that `usb_kill_urb` keeps it from taking
  submitted : List ChainUrb
  rejected : Option ChainUrb
  -- how often `StartRead` has allocated, and which of the buffers are freed
  starts : Nat
  freed : List Nat
  -- `usb_fill_control_urb` was called without an URB
  crashed : Bool

def ReadChain.initial (tables : NetDev → List SClientMemList) : ReadChain where
  mbQMIValid := false
  mpIntURB := none
  mpReadURB := none
  tables := tables
  power := .idle
  callbacks := []
  submitted := []
  rejected := none
  starts := 0
  freed := []
  crashed := false

/-- `usb_submit_urb`, with the answer of the USB core to an URB that is not in use. -/
def ReadChain.submit (s : ReadChain) (u : ChainUrb) (ok : Bool) : Bool × ReadChain :=
  if u ∈ s.submitted ∨ s.rejected = some u ∨ ok = false then (false, s)
  else (true, { s with submitted := u :: s.submitted })

/-- One step of `IntCallback`, and where it is then. -/
def ReadChain.intCallback (s : ReadChain) (start : Nat) (ok : Bool) :
    IntPc → ReadChain × Option IntPc
  | .entered result =>
    (s, some (if s.mbQMIValid = false then .returns
      else match result with
        | .failed => .returns
        | .responseAvailable => .submitRead
        | .overflow | .other => .resubmit))
  | .submitRead =>
    match s.mpReadURB with
    | none => ({ s with crashed := true }, some .returns)
    | some g =>
      let r := s.submit ⟨.read, g⟩ ok
      (r.2, some (if r.1 = true then .returns else .resubmit))
  | .resubmit => ((s.submit ⟨.int, start⟩ ok).2, some .returns)
  | .returns => (s, none)

/-- One step of `ReadCallback`. What it does with the message is `readCallback`. -/
def ReadChain.readCallback (s : ReadChain) (env : DispatchEnv) (pReadURB : ReadURB) (ok : Bool) :
    ReadPc → ReadChain × Option ReadPc
  | .entered =>
    let d := UsbNet.readCallback env s.mbQMIValid pReadURB ⟨s.tables, []⟩
    ({ s with tables := d.mClientMemList },
      some (if d.resubmissions = 0 then .returns else .resubmit))
  | .resubmit =>
    match s.mpIntURB with
    | none => (s, some .returns)
    | some g => ((s.submit ⟨.int, g⟩ ok).2, some .returns)
  | .returns => (s, none)

/-- One step of a callback. -/
def ReadChain.turn (s : ReadChain) (c : Callback) (env : DispatchEnv) (pReadURB : ReadURB)
    (ok : Bool) : ReadChain × Option Callback :=
  match c with
  | .int start pc =>
    let r := s.intCallback start ok pc
    (r.1, r.2.map (.int start))
  | .read start pc =>
    let r := s.readCallback env pReadURB ok pc
    (r.1, r.2.map (.read start))

/-- The use count of an URB is not zero. -/
def ReadChain.InUse (s : ReadChain) (u : ChainUrb) : Prop :=
  u ∈ s.submitted ∨ ∃ c ∈ s.callbacks, c.urb = u

instance (s : ReadChain) (u : ChainUrb) : Decidable (s.InUse u) :=
  inferInstanceAs (Decidable (_ ∨ _))

/-- One step of `StartRead` or `KillRead`. -/
def ReadChain.powerTurn (s : ReadChain) (ok : Bool) : Option ReadChain :=
  match s.power with
  | .idle => none
  | .submitInt start => some { (s.submit ⟨.int, start⟩ ok).2 with power := .idle }
  | .killRead =>
    match s.mpReadURB with
    | none => some { s with power := .killInt }
    | some g => some { s with rejected := some ⟨.read, g⟩, power := .waitRead g }
  -- the wait of `usb_kill_urb`
  | .waitRead g =>
    if s.InUse ⟨.read, g⟩ then none else some { s with rejected := none, power := .killInt }
  | .killInt =>
    match s.mpIntURB with
    | none => some { s with power := .freeBuffers }
    | some g => some { s with rejected := some ⟨.int, g⟩, power := .waitInt g }
  | .waitInt g =>
    if s.InUse ⟨.int, g⟩ then none else some { s with rejected := none, power := .freeBuffers }
  | .freeBuffers =>
    some { s with freed := s.mpReadURB.toList ++ s.freed, power := .freeUrbs }
  | .freeUrbs => some { s with mpIntURB := none, mpReadURB := none, power := .idle }

inductive ReadOp
  | setQMIValid (valid : Bool)
  | clients (tables : NetDev → List SClientMemList)
  | startRead (allocated : Bool)
  | killRead
  | power (ok : Bool)
  | usbCompletes (u : ChainUrb) (result : IntResult)
  | turn (c : Callback) (env : DispatchEnv) (pReadURB : ReadURB) (ok : Bool)

def ReadChain.step (s : ReadChain) : ReadOp → Option ReadChain
  | .setQMIValid valid => some { s with mbQMIValid := valid }
  | .clients tables => some { s with tables := tables }
  | .startRead allocated =>
    if s.power ≠ .idle then none
    else if s.mbQMIValid = false then some s
    else if allocated = false then some { s with mpIntURB := none, mpReadURB := none }
    else some { s with
      mpIntURB := some s.starts
      mpReadURB := some s.starts
      starts := s.starts + 1
      power := .submitInt s.starts }
  | .killRead =>
    if s.power ≠ .idle then none
    else if s.mbQMIValid = false then some s
    else some { s with power := .killRead }
  | .power ok => s.powerTurn ok
  | .usbCompletes u result =>
    if u ∈ s.submitted then
      let c : Callback := match u.kind with
        | .int => .int u.start (.entered result)
        | .read => .read u.start .entered
      some { s with submitted := s.submitted.erase u, callbacks := c :: s.callbacks }
    else none
  | .turn c env pReadURB ok =>
    if c ∈ s.callbacks then
      let r := s.turn c env pReadURB ok
      some { r.1 with callbacks := advance s.callbacks c r.2 }
    else none

def readMachine : Machine ReadChain ReadOp Unit := fun s op => (s.step op).map fun t => (t, ())

/-! ## The steps -/

variable {s t : ReadChain} {c : Callback} {u : ChainUrb} {op : ReadOp} {env : DispatchEnv}
  {pReadURB : ReadURB} {ok : Bool} {g : Nat}

theorem readMachine_eq_some {o : Unit} : readMachine s op = some (t, o) ↔ s.step op = some t := by
  simp [readMachine]

theorem visits_step (h : s.step op = some t) (ops : List ReadOp) :
    readMachine.visits s (op :: ops) = s :: readMachine.visits t ops := by
  have hstep : readMachine s op = some (t, ()) := readMachine_eq_some.mpr h
  exact Machine.visits_cons_some ops hstep

theorem submit_cases (s : ReadChain) (u : ChainUrb) (ok : Bool) :
    s.submit u ok = (false, s) ∨
      s.submit u ok = (true, { s with submitted := u :: s.submitted }) := by
  unfold ReadChain.submit
  split_ifs
  · exact .inl rfl
  · exact .inr rfl

/-- A callback that is about to submit an URB. -/
inductive ReadChain.Submits (s : ReadChain) : Callback → ChainUrb → Prop
  | read {start g : Nat} (h : s.mpReadURB = some g) : s.Submits (.int start .submitRead) ⟨.read, g⟩
  | again {start : Nat} : s.Submits (.int start .resubmit) ⟨.int, start⟩
  | int {start g : Nat} (h : s.mpIntURB = some g) : s.Submits (.read start .resubmit) ⟨.int, g⟩

/-- Who has an URB in hand that it is going to submit, or has submitted. -/
def Callback.token : Callback → Nat
  | .int _ .returns | .read _ .returns => 0
  | _ => 1

/-- What one step of a callback does: it submits an URB, or it does not and goes on. -/
theorem turn_cases (s : ReadChain) (c : Callback) (env : DispatchEnv) (pReadURB : ReadURB)
    (ok : Bool) :
    (∀ n, (s.turn c env pReadURB ok).2 = some n → n.urb = c.urb) ∧
      ((∃ tables crashed, (s.turn c env pReadURB ok).1 = { s with tables, crashed } ∧
          held Callback.token (s.turn c env pReadURB ok).2 ≤ c.token ∧
          (crashed = s.crashed ∨ s.mpReadURB = none)) ∨
        ∃ u, s.Submits c u ∧ (s.turn c env pReadURB ok).1 = { s with submitted := u :: s.submitted } ∧
          held Callback.token (s.turn c env pReadURB ok).2 = 0 ∧ c.token = 1) := by
  constructor
  · intro n hn
    cases c <;> obtain ⟨pc, -, rfl⟩ := Option.map_eq_some_iff.mp hn <;> rfl
  cases c with
  | int start pc =>
    cases pc with
    | entered result =>
      refine .inl ⟨s.tables, s.crashed, rfl, ?_, .inl rfl⟩
      unfold ReadChain.turn ReadChain.intCallback
      cases s.mbQMIValid <;> cases result <;> simp [Callback.token]
    | submitRead =>
      rcases Option.eq_none_or_eq_some s.mpReadURB with hread | ⟨g, hread⟩
      · have hturn : s.turn (.int start .submitRead) env pReadURB ok =
            ({ s with crashed := true }, some (.int start .returns)) := by
          simp [ReadChain.turn, ReadChain.intCallback, hread]
        rw [hturn]
        exact .inl ⟨s.tables, true, rfl, Nat.zero_le 1, .inr hread⟩
      · rcases submit_cases s ⟨.read, g⟩ ok with hfail | hok
        · have hturn : s.turn (.int start .submitRead) env pReadURB ok =
              (s, some (.int start .resubmit)) := by
            simp [ReadChain.turn, ReadChain.intCallback, hread, hfail]
          rw [hturn]
          exact .inl ⟨s.tables, s.crashed, rfl, Nat.le_refl 1, .inl rfl⟩
        · have hturn : s.turn (.int start .submitRead) env pReadURB ok =
              ({ s with submitted := ⟨.read, g⟩ :: s.submitted }, some (.int start .returns)) := by
            simp [ReadChain.turn, ReadChain.intCallback, hread, hok]
          rw [hturn]
          exact .inr ⟨_, .read hread, rfl, rfl, rfl⟩
    | resubmit =>
      rcases submit_cases s ⟨.int, start⟩ ok with hfail | hok
      · have hturn : s.turn (.int start .resubmit) env pReadURB ok =
            (s, some (.int start .returns)) := by
          simp [ReadChain.turn, ReadChain.intCallback, hfail]
        rw [hturn]
        exact .inl ⟨s.tables, s.crashed, rfl, Nat.zero_le 1, .inl rfl⟩
      · have hturn : s.turn (.int start .resubmit) env pReadURB ok =
            ({ s with submitted := ⟨.int, start⟩ :: s.submitted }, some (.int start .returns)) := by
          simp [ReadChain.turn, ReadChain.intCallback, hok]
        rw [hturn]
        exact .inr ⟨_, .again, rfl, rfl, rfl⟩
    | returns => exact .inl ⟨s.tables, s.crashed, rfl, Nat.le_refl 0, .inl rfl⟩
  | read start pc =>
    cases pc with
    | entered =>
      refine .inl ⟨_, s.crashed, rfl, ?_, .inl rfl⟩
      unfold ReadChain.turn ReadChain.readCallback
      dsimp only
      split_ifs <;> simp [Callback.token]
    | resubmit =>
      rcases Option.eq_none_or_eq_some s.mpIntURB with hint | ⟨g, hint⟩
      · have hturn : s.turn (.read start .resubmit) env pReadURB ok =
            (s, some (.read start .returns)) := by
          simp [ReadChain.turn, ReadChain.readCallback, hint]
        rw [hturn]
        exact .inl ⟨s.tables, s.crashed, rfl, Nat.zero_le 1, .inl rfl⟩
      · rcases submit_cases s ⟨.int, g⟩ ok with hfail | hok
        · have hturn : s.turn (.read start .resubmit) env pReadURB ok =
              (s, some (.read start .returns)) := by
            simp [ReadChain.turn, ReadChain.readCallback, hint, hfail]
          rw [hturn]
          exact .inl ⟨s.tables, s.crashed, rfl, Nat.zero_le 1, .inl rfl⟩
        · have hturn : s.turn (.read start .resubmit) env pReadURB ok =
              ({ s with submitted := ⟨.int, g⟩ :: s.submitted }, some (.read start .returns)) := by
            simp [ReadChain.turn, ReadChain.readCallback, hint, hok]
          rw [hturn]
          exact .inr ⟨_, .int hint, rfl, rfl, rfl⟩
    | returns => exact .inl ⟨s.tables, s.crashed, rfl, Nat.le_refl 0, .inl rfl⟩

/-! ## One URB at a time -/

def PowerPc.token : PowerPc → Nat
  | .submitInt _ => 1
  | _ => 0

/-- How many URBs are submitted or going to be. -/
def ReadChain.tokens (s : ReadChain) : Nat :=
  s.submitted.length + total Callback.token s.callbacks + s.power.token

/-- The URBs that `StartRead` or `KillRead` is working on. -/
def PowerPc.start : PowerPc → Option Nat
  | .submitInt g | .waitRead g | .waitInt g => some g
  | _ => none

/-- `KillRead` has killed the read URB. -/
def PowerPc.ReadKilled : PowerPc → Prop
  | .killInt | .waitInt _ | .freeBuffers | .freeUrbs => True
  | _ => False

/-- It has also killed the interrupt URB. -/
def PowerPc.IntKilled : PowerPc → Prop
  | .freeBuffers | .freeUrbs => True
  | _ => False

/-- The URB that `usb_kill_urb` waits for. -/
def PowerPc.waitsFor : PowerPc → Option ChainUrb
  | .waitRead g => some ⟨.read, g⟩
  | .waitInt g => some ⟨.int, g⟩
  | _ => none

/-- The device is started when it is not started yet, and `IntCallback` does not submit the read URB
when `KillRead` has killed it already. -/
def ReadOp.Orderly (s : ReadChain) : ReadOp → Prop
  | .startRead _ => s.mpReadURB = none
  | .turn (.int _ .submitRead) _ _ _ => ¬ s.power.ReadKilled
  | _ => True

instance : (p : PowerPc) → Decidable p.ReadKilled
  | .killInt | .waitInt _ | .freeBuffers | .freeUrbs => isTrue trivial
  | .idle | .submitInt _ | .killRead | .waitRead _ => isFalse id

instance (s : ReadChain) : (op : ReadOp) → Decidable (op.Orderly s)
  | .startRead _ => inferInstanceAs (Decidable (s.mpReadURB = none))
  | .turn (.int _ .submitRead) _ _ _ => inferInstanceAs (Decidable (¬ s.power.ReadKilled))
  | .turn (.int _ (.entered _)) _ _ _ | .turn (.int _ .resubmit) _ _ _
  | .turn (.int _ .returns) _ _ _ | .turn (.read _ _) _ _ _ => isTrue trivial
  | .setQMIValid _ | .clients _ | .killRead | .power _ | .usbCompletes _ _ => isTrue trivial

structure ReadChain.Inv (s : ReadChain) : Prop where
  one : s.tokens ≤ 1
  same : s.mpIntURB = s.mpReadURB
  current : ∀ u, s.InUse u → s.mpReadURB = some u.start
  working : ∀ g, s.power.start = some g → s.mpReadURB = some g
  allocated : ∀ g, s.mpReadURB = some g → g < s.starts
  freedBefore : ∀ g ∈ s.freed, g < s.starts
  kept : s.power ≠ .freeUrbs → ∀ g, s.mpReadURB = some g → g ∉ s.freed
  readKilled : s.power.ReadKilled → ∀ g, ¬ s.InUse ⟨.read, g⟩
  intKilled : s.power.IntKilled → ∀ g, ¬ s.InUse ⟨.int, g⟩
  rejects : s.rejected = s.power.waitsFor
  crashed : s.crashed = false

theorem PowerPc.IntKilled.readKilled {p : PowerPc} (h : p.IntKilled) : p.ReadKilled := by
  cases p <;> first | exact h | trivial

theorem ReadChain.Inv.initial (tables : NetDev → List SClientMemList) :
    (ReadChain.initial tables).Inv where
  one := Nat.zero_le 1
  same := rfl
  current := by simp [ReadChain.InUse, ReadChain.initial]
  working := by simp [ReadChain.initial, PowerPc.start]
  allocated := by simp [ReadChain.initial]
  freedBefore := List.forall_mem_nil _
  kept := fun _ _ _ => List.not_mem_nil
  readKilled := False.elim
  intKilled := False.elim
  rejects := rfl
  crashed := rfl

namespace ReadChain.Inv

/-- Without URBs nothing is in use. -/
theorem not_inUse (h : s.Inv) (hnone : s.mpReadURB = none) (u : ChainUrb) : ¬ s.InUse u :=
  fun hu => Option.some_ne_none _ ((h.current u hu).symm.trans hnone)

theorem unused (h : s.Inv) (hnone : s.mpReadURB = none) : s.submitted = [] ∧ s.callbacks = [] :=
  ⟨List.eq_nil_iff_forall_not_mem.mpr fun u hu => h.not_inUse hnone u (.inl hu),
    List.eq_nil_iff_forall_not_mem.mpr fun c hc => h.not_inUse hnone c.urb (.inr ⟨c, hc, rfl⟩)⟩

/-- When one URB of a kind is not in use, none is. -/
theorem not_inUse_of_kind (h : s.Inv) {kind : UrbKind} (hg : s.mpReadURB = some g)
    (hunused : ¬ s.InUse ⟨kind, g⟩) (g' : Nat) : ¬ s.InUse ⟨kind, g'⟩ := by
  intro huse
  obtain rfl := Option.some.inj (hg.symm.trans (h.current _ huse))
  exact hunused huse

theorem startRead (h : s.Inv) (hnone : s.mpReadURB = none) {allocated : Bool}
    (hs : s.step (.startRead allocated) = some t) : t.Inv := by
  obtain ⟨hsubmitted, hcallbacks⟩ := h.unused hnone
  rw [ReadChain.step] at hs
  split_ifs at hs with hidle hvalid hall
  · obtain rfl := Option.some.inj hs
    exact h
  · obtain rfl := Option.some.inj hs
    have hpower : s.power = .idle := not_not.mp hidle
    refine ⟨h.one, rfl, ?_, ?_, ?_, h.freedBefore, ?_, h.readKilled, h.intKilled, h.rejects,
      h.crashed⟩
    · simp [ReadChain.InUse, hsubmitted, hcallbacks]
    · simp [hpower, PowerPc.start]
    · simp
    · simp
  · obtain rfl := Option.some.inj hs
    have hpower : s.power = .idle := not_not.mp hidle
    have hrejected : s.rejected = none := by rw [h.rejects, hpower]; rfl
    refine ⟨?_, rfl, ?_, ?_, ?_, ?_, ?_, False.elim, False.elim, hrejected, h.crashed⟩
    · simp [ReadChain.tokens, hsubmitted, hcallbacks, PowerPc.token]
    · simp [ReadChain.InUse, hsubmitted, hcallbacks]
    · simp [PowerPc.start]
    · simp
    · exact fun g hg => Nat.lt_succ_of_lt (h.freedBefore g hg)
    · rintro - g hg hfreed
      obtain rfl := Option.some.inj hg
      exact Nat.lt_irrefl _ (h.freedBefore _ hfreed)

/-- Only where it is changes. -/
theorem setPower (h : s.Inv) {p : PowerPc} {rejected : Option ChainUrb}
    (htoken : p.token ≤ s.power.token) (hstart : ∀ g, p.start = some g → s.mpReadURB = some g)
    (hfreeing : s.power ≠ .freeUrbs)
    (hread : p.ReadKilled → ∀ g, ¬ s.InUse ⟨.read, g⟩)
    (hint : p.IntKilled → ∀ g, ¬ s.InUse ⟨.int, g⟩) (hrejected : rejected = p.waitsFor) :
    { s with power := p, rejected := rejected }.Inv where
  one := by
    have hone := h.one
    rw [ReadChain.tokens] at hone ⊢
    dsimp only
    omega
  same := h.same
  current := h.current
  working := hstart
  allocated := h.allocated
  freedBefore := h.freedBefore
  kept := fun _ => h.kept hfreeing
  readKilled := hread
  intKilled := hint
  rejects := hrejected
  crashed := h.crashed

theorem submitInt (h : s.Inv) {g : Nat} (hpower : s.power = .submitInt g) :
    { s with submitted := ⟨.int, g⟩ :: s.submitted, power := .idle }.Inv where
  one := by
    have hone := h.one
    rw [ReadChain.tokens, hpower] at hone
    rw [ReadChain.tokens]
    simp only [List.length_cons, PowerPc.token] at hone ⊢
    omega
  same := h.same
  current := by
    rintro u (hu | hc)
    · rcases List.mem_cons.mp hu with rfl | hu
      · exact h.working g (by rw [hpower]; rfl)
      · exact h.current u (.inl hu)
    · exact h.current u (.inr hc)
  working := by simp [PowerPc.start]
  allocated := h.allocated
  freedBefore := h.freedBefore
  kept := fun _ => h.kept (by simp [hpower])
  readKilled := False.elim
  intKilled := False.elim
  rejects := h.rejects.trans (by rw [hpower]; rfl)
  crashed := h.crashed

theorem powerTurn (h : s.Inv) (hs : s.powerTurn ok = some t) : t.Inv := by
  have hrejects := h.rejects
  have hworking := h.working
  have hread := h.readKilled
  rw [ReadChain.powerTurn] at hs
  cases hpower : s.power with
  | idle => simp [hpower] at hs
  | submitInt g =>
    simp only [hpower, Option.some.injEq] at hs
    rw [hpower] at hrejects
    rcases submit_cases s ⟨.int, g⟩ ok with hfail | hok
    · rw [hfail] at hs
      subst hs
      exact h.setPower (Nat.zero_le _) (by simp [PowerPc.start]) (by simp [hpower])
        False.elim False.elim hrejects
    · rw [hok] at hs
      subst hs
      exact h.submitInt hpower
  | killRead =>
    simp only [hpower] at hs
    rw [hpower] at hrejects
    split at hs
    · next hnone =>
      obtain rfl := Option.some.inj hs
      exact h.setPower (p := .killInt) (Nat.zero_le _) (by simp [PowerPc.start])
        (by simp [hpower]) (fun _ g => h.not_inUse hnone ⟨.read, g⟩) False.elim hrejects
    · next g hg =>
      obtain rfl := Option.some.inj hs
      apply h.setPower (p := .waitRead g) (Nat.zero_le _) _ (by simp [hpower]) False.elim
        False.elim rfl
      rintro _ ⟨⟩
      exact hg
  | waitRead g =>
    simp only [hpower] at hs
    split_ifs at hs with huse
    obtain rfl := Option.some.inj hs
    have hg := hworking g (by rw [hpower]; rfl)
    exact h.setPower (p := .killInt) (Nat.zero_le _) (by simp [PowerPc.start])
      (by simp [hpower]) (fun _ => h.not_inUse_of_kind hg huse) False.elim rfl
  | killInt =>
    simp only [hpower] at hs
    rw [hpower] at hrejects hread
    split at hs
    · next hnone =>
      obtain rfl := Option.some.inj hs
      exact h.setPower (p := .freeBuffers) (Nat.zero_le _) (by simp [PowerPc.start])
        (by simp [hpower]) (fun _ => hread trivial)
        (fun _ g => h.not_inUse (h.same.symm.trans hnone) ⟨.int, g⟩) hrejects
    · next g hg =>
      obtain rfl := Option.some.inj hs
      apply h.setPower (p := .waitInt g) (Nat.zero_le _) _ (by simp [hpower])
        (fun _ => hread trivial) False.elim rfl
      rintro _ ⟨⟩
      exact h.same.symm.trans hg
  | waitInt g =>
    simp only [hpower] at hs
    rw [hpower] at hread
    split_ifs at hs with huse
    obtain rfl := Option.some.inj hs
    have hg := hworking g (by rw [hpower]; rfl)
    exact h.setPower (p := .freeBuffers) (Nat.zero_le _) (by simp [PowerPc.start])
      (by simp [hpower]) (fun _ => hread trivial) (fun _ => h.not_inUse_of_kind hg huse) rfl
  | freeBuffers =>
    simp only [hpower, Option.some.injEq] at hs
    rw [hpower] at hrejects hread
    subst hs
    have hone := h.one
    rw [ReadChain.tokens, hpower] at hone
    refine ⟨hone, h.same, h.current, by simp [PowerPc.start], h.allocated, ?_, ?_, hread,
      fun _ => h.intKilled (by rw [hpower]; trivial), hrejects, h.crashed⟩
    · intro g hg
      rcases List.mem_append.mp hg with hnow | hbefore
      · exact h.allocated g (Option.mem_toList.mp hnow)
      · exact h.freedBefore g hbefore
    · exact fun hne => absurd rfl hne
  | freeUrbs =>
    simp only [hpower, Option.some.injEq] at hs
    rw [hpower] at hrejects hread
    subst hs
    have hone := h.one
    rw [ReadChain.tokens, hpower] at hone
    have hunused : ∀ u, ¬ s.InUse u := by
      rintro ⟨kind, g⟩
      cases kind
      · exact h.intKilled (by rw [hpower]; trivial) g
      · exact hread trivial g
    exact ⟨hone, rfl, fun u hu => absurd hu (hunused u), by simp [PowerPc.start], by simp,
      h.freedBefore, by simp, False.elim, False.elim, hrejects, h.crashed⟩

theorem usbCompletes (h : s.Inv) {result : IntResult} (hs : s.step (.usbCompletes u result) = some t) :
    t.Inv := by
  rw [ReadChain.step] at hs
  split_ifs at hs with hu
  obtain rfl := Option.some.inj hs
  obtain ⟨c, hc, hurb, htoken⟩ : ∃ c : Callback, c = (match u.kind with
      | .int => Callback.int u.start (.entered result)
      | .read => Callback.read u.start .entered) ∧ c.urb = u ∧ c.token = 1 := by
    obtain ⟨kind, g⟩ := u
    cases kind <;> exact ⟨_, rfl, rfl, rfl⟩
  rw [← hc]
  have huse : ∀ v, ReadChain.InUse { s with
      submitted := s.submitted.erase u, callbacks := c :: s.callbacks } v → s.InUse v := by
    rintro v (hv | ⟨d, hd, rfl⟩)
    · exact .inl (List.mem_of_mem_erase hv)
    · rcases List.mem_cons.mp hd with rfl | hd
      · exact .inl (hurb ▸ hu)
      · exact .inr ⟨d, hd, rfl⟩
  refine ⟨?_, h.same, fun v hv => h.current v (huse v hv), h.working, h.allocated, h.freedBefore,
    h.kept, fun hp g hg => h.readKilled hp g (huse _ hg),
    fun hp g hg => h.intKilled hp g (huse _ hg), h.rejects, h.crashed⟩
  have hone := h.one
  have hlength := List.length_erase_of_mem hu
  have hpos := List.length_pos_of_mem hu
  rw [ReadChain.tokens] at hone ⊢
  simp only [total_cons, htoken, hlength]
  omega

theorem turn (h : s.Inv) (horderly : ReadOp.Orderly s (.turn c env pReadURB ok))
    (hs : s.step (.turn c env pReadURB ok) = some t) : t.Inv := by
  rw [ReadChain.step] at hs
  split_ifs at hs with hc
  obtain rfl := Option.some.inj hs
  obtain ⟨hurb, hcases⟩ := turn_cases s c env pReadURB ok
  have hcur := h.current c.urb (.inr ⟨c, hc, rfl⟩)
  have hcallbacks : ∀ d ∈ advance s.callbacks c (s.turn c env pReadURB ok).2,
      ∃ d' ∈ s.callbacks, d'.urb = d.urb := by
    intro d hd
    rcases mem_of_mem_advance hd with hnext | hold
    · exact ⟨c, hc, (hurb d hnext).symm⟩
    · exact ⟨d, hold, rfl⟩
  have htotal := total_advance Callback.token (s.turn c env pReadURB ok).2 hc
  have hone := h.one
  rw [ReadChain.tokens] at hone
  rcases hcases with ⟨tables, crashed, hturn, htoken, hcrash⟩ | ⟨u, hsubmits, hturn, htoken, hc1⟩
  · have huse : ∀ v, ReadChain.InUse { s with
        tables := tables
        crashed := crashed
        callbacks := advance s.callbacks c (s.turn c env pReadURB ok).2 } v → s.InUse v := by
      rintro v (hv | ⟨d, hd, rfl⟩)
      · exact .inl hv
      · exact .inr (hcallbacks d hd)
    rw [hturn]
    refine ⟨?_, h.same, fun v hv => h.current v (huse v hv), h.working, h.allocated,
      h.freedBefore, h.kept, fun hp g hg => h.readKilled hp g (huse _ hg),
      fun hp g hg => h.intKilled hp g (huse _ hg), h.rejects, ?_⟩
    · rw [ReadChain.tokens]
      dsimp only
      omega
    · rcases hcrash with hsame | hnone
      · exact hsame.trans h.crashed
      · exact absurd (hcur.symm.trans hnone) (Option.some_ne_none _)
  · have huse : ∀ v, ReadChain.InUse { s with
        submitted := u :: s.submitted
        callbacks := advance s.callbacks c (s.turn c env pReadURB ok).2 } v → v = u ∨ s.InUse v := by
      rintro v (hv | ⟨d, hd, rfl⟩)
      · exact (List.mem_cons.mp hv).imp_right .inl
      · exact .inr (.inr (hcallbacks d hd))
    have hu : s.mpReadURB = some u.start := by
      cases hsubmits with
      | read hg => exact hg
      | again => exact hcur
      | int hg => exact h.same.symm.trans hg
    have hrunning : ¬ s.power.IntKilled := by
      intro hp
      cases c with
      | int start pc => exact h.intKilled hp start (.inr ⟨_, hc, rfl⟩)
      | read start pc => exact h.readKilled hp.readKilled start (.inr ⟨_, hc, rfl⟩)
    have hread : u.kind = .read → ¬ s.power.ReadKilled := by
      intro hkind
      cases hsubmits with
      | read hg => exact horderly
      | again => exact absurd hkind (by simp)
      | int hg => exact absurd hkind (by simp)
    rw [hturn]
    refine ⟨?_, h.same, fun v hv => ?_, h.working, h.allocated, h.freedBefore, h.kept,
      fun hp g hg => ?_, fun hp => absurd hp hrunning, h.rejects, h.crashed⟩
    · rw [ReadChain.tokens]
      simp only [List.length_cons]
      omega
    · rcases huse v hv with rfl | hold
      · exact hu
      · exact h.current v hold
    · rcases huse _ hg with heq | hold
      · exact hread (congrArg ChainUrb.kind heq.symm) hp
      · exact h.readKilled hp g hold

/-- Every orderly step keeps the invariant. -/
theorem step (h : s.Inv) (horderly : op.Orderly s) (hs : s.step op = some t) : t.Inv := by
  cases op with
  | setQMIValid valid =>
    obtain rfl := Option.some.inj hs
    exact ⟨h.one, h.same, h.current, h.working, h.allocated, h.freedBefore, h.kept, h.readKilled,
      h.intKilled, h.rejects, h.crashed⟩
  | clients tables =>
    obtain rfl := Option.some.inj hs
    exact ⟨h.one, h.same, h.current, h.working, h.allocated, h.freedBefore, h.kept, h.readKilled,
      h.intKilled, h.rejects, h.crashed⟩
  | startRead allocated => exact h.startRead horderly hs
  | killRead =>
    have hrejects := h.rejects
    rw [ReadChain.step] at hs
    split_ifs at hs with hidle hvalid
    · obtain rfl := Option.some.inj hs
      exact h
    · obtain rfl := Option.some.inj hs
      have hpower : s.power = .idle := not_not.mp hidle
      rw [hpower] at hrejects
      exact h.setPower (p := .killRead) (Nat.zero_le _) (by simp [PowerPc.start])
        (by simp [hpower]) False.elim False.elim hrejects
  | power ok => exact h.powerTurn hs
  | usbCompletes u result => exact h.usbCompletes hs
  | turn c env pReadURB ok => exact h.turn horderly hs

end ReadChain.Inv

theorem ReadChain.Inv.visits {ops : List ReadOp} (h : s.Inv)
    (horderly : ∀ p ∈ readMachine.fires s ops, p.2.Orderly p.1) :
    ∀ t ∈ readMachine.visits s ops, t.Inv :=
  Machine.visits_all_of_fires
    (fun _ _ _ _ h horderly hs => h.step horderly (readMachine_eq_some.mp hs)) h horderly

/-- At most one URB is submitted or going to be, nothing that is in use has its buffers freed, and no
URB is missing. -/
theorem visits_oneUrb {tables : NetDev → List SClientMemList} {ops : List ReadOp}
    (horderly : ∀ p ∈ readMachine.fires (.initial tables) ops, p.2.Orderly p.1) :
    ∀ t ∈ readMachine.visits (.initial tables) ops,
      t.tokens ≤ 1 ∧ (∀ u, t.InUse u → u.start ∉ t.freed) ∧ t.crashed = false := by
  intro t ht
  have hinv := (ReadChain.Inv.initial tables).visits horderly t ht
  refine ⟨hinv.one, fun u hu => ?_, hinv.crashed⟩
  apply hinv.kept _ u.start (hinv.current u hu)
  intro hpower
  obtain ⟨kind, g⟩ := u
  cases kind with
  | int => exact hinv.intKilled (by rw [hpower]; trivial) g hu
  | read => exact hinv.readKilled (by rw [hpower]; trivial) g hu

/-- The device has a message, and the read URB is submitted. -/
def sampleRead : List ReadOp :=
  [.setQMIValid true, .startRead true, .power true, .usbCompletes ⟨.int, 0⟩ .responseAvailable,
    .turn (.int 0 (.entered .responseAvailable)) (shortOnMux false) wdsBroadcast true,
    .turn (.int 0 .submitRead) (shortOnMux false) wdsBroadcast true]

theorem visits_oneUrb_sample : ∃ t ∈ readMachine.visits (.initial fun _ => []) sampleRead,
    t.submitted = [⟨.read, 0⟩] ∧ t.tokens ≤ 1 ∧ (∀ u, t.InUse u → u.start ∉ t.freed) ∧
      t.crashed = false := by
  have horderly : ∀ p ∈ readMachine.fires (.initial fun _ => []) sampleRead, p.2.Orderly p.1 := by
    decide
  have hne : readMachine.visits (.initial fun _ => []) sampleRead ≠ [] :=
    List.ne_nil_of_mem (Machine.start_mem_visits _ _)
  exact ⟨_, List.getLast_mem hne, rfl, visits_oneUrb horderly _ (List.getLast_mem hne)⟩

end UsbNet
