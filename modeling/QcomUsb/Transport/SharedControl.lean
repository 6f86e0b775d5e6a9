-- SUMMARY: The list of shared read control elements: its lookup and its insertion as two critical sections, and when there is one element for each device.
import QcomUsb.Library.Transition

/-!
# Shared control elements

The interfaces of one device share an element with an event and a counter for each interface.
`USBSHR_AddReadControlElement` looks for the element under the lock, gives the lock back, and takes
it again to insert one that was not found.
-/

namespace Transport.SharedControl

open Transition

/-- `DeviceReadControlEvent`, with its address for the arrays in it. -/
structure Element (δ α : Type) where
  deviceId : δ
  address : α
deriving DecidableEq

variable {δ α τ : Type} [DecidableEq δ]

/-! ## `USBSHR_GetReadCtlEventElement` -/

/-- The first loop: the element found, the rest of `ReadCtlEventList`, and `tempList` from its tail
on. -/
def takeApart (id : δ) :
    List (Element δ α) → List (Element δ α) →
      Option (Element δ α) × List (Element δ α) × List (Element δ α)
  | [], temp => (none, [], temp)
  | e :: rest, temp =>
    if e.deviceId = id then (some e, rest, e :: temp) else takeApart id rest (e :: temp)

/-- The second loop, from the tail of `tempList` to the head of `ReadCtlEventList`. -/
def restore : List (Element δ α) → List (Element δ α) → List (Element δ α)
  | [], list => list
  | e :: temp, list => restore temp (e :: list)

/-- `USBSHR_GetReadCtlEventElement`, with the list that it leaves. -/
def getReadCtlEventElement (id : δ) (list : List (Element δ α)) :
    Option (Element δ α) × List (Element δ α) :=
  let r := takeApart id list []
  (r.1, restore r.2.2 r.2.1)

omit [DecidableEq δ] in
theorem restore_eq (temp list : List (Element δ α)) : restore temp list = temp.reverse ++ list := by
  induction temp generalizing list with
  | nil => rfl
  | cons e temp ih => rw [restore, ih, List.reverse_cons, List.append_assoc, List.singleton_append]

/-- Wherever the first loop stops, the elements are all there, and in order. -/
theorem restore_takeApart (id : δ) (list temp : List (Element δ α)) :
    restore (takeApart id list temp).2.2 (takeApart id list temp).2.1 = temp.reverse ++ list := by
  induction list generalizing temp with
  | nil => exact restore_eq temp []
  | cons e rest ih =>
    have hmoved : (e :: temp).reverse ++ rest = temp.reverse ++ e :: rest := by
      rw [List.reverse_cons, List.append_assoc, List.singleton_append]
    rw [takeApart]
    split_ifs
    · exact (restore_eq _ _).trans hmoved
    · exact (ih (e :: temp)).trans hmoved

theorem takeApart_found (id : δ) (list temp : List (Element δ α)) :
    (takeApart id list temp).1 = list.find? (·.deviceId = id) := by
  induction list generalizing temp with
  | nil => rfl
  | cons e rest ih =>
    rw [takeApart]
    split_ifs with hid
    · rw [List.find?_cons_of_pos (by simpa using hid)]
    · rw [List.find?_cons_of_neg (by simpa using hid)]
      exact ih (e :: temp)

theorem getReadCtlEventElement_eq (id : δ) (list : List (Element δ α)) :
    getReadCtlEventElement id list = (list.find? (·.deviceId = id), list) :=
  Prod.ext (takeApart_found id list []) (restore_takeApart id list [])

/-! ## The event and the counter of an interface -/

/-- `MAX_INTERFACE`. -/
def maxInterface : Nat := 255

/-- An event or a counter: of the device extension, or in the array of an element. -/
inductive Slot (α : Type) where
  | extension
  | shared (element : α) (interface : UInt16)
deriving DecidableEq

structure DeviceExtension (δ α : Type) where
  deviceId : δ
  dataInterface : UInt16
  bEnableResourceSharing : Bool
  pReadControlEvent : Slot α
  pRspAvailableCount : Slot α

namespace DeviceExtension

/-- What `USBSHR_GetReadControlEvent` and `USBSHR_GetRspAvailableCount` have in common. -/
def getSlot (x : DeviceExtension δ α) (own : Slot α) (interface : UInt16)
    (list : List (Element δ α)) : Option (Slot α) × List (Element δ α) :=
  if interface.toNat ≥ maxInterface then (none, list)
  else if x.bEnableResourceSharing = false then (some own, list)
  else
    let r := getReadCtlEventElement x.deviceId list
    (r.1.map fun e => .shared e.address interface, r.2)

/-- `USBSHR_GetReadControlEvent`. -/
def getReadControlEvent (x : DeviceExtension δ α) (interface : UInt16)
    (list : List (Element δ α)) : Option (Slot α) × List (Element δ α) :=
  x.getSlot x.pReadControlEvent interface list

/-- `USBSHR_GetRspAvailableCount`. -/
def getRspAvailableCount (x : DeviceExtension δ α) (interface : UInt16)
    (list : List (Element δ α)) : Option (Slot α) × List (Element δ α) :=
  x.getSlot x.pRspAvailableCount interface list

/-- What becomes of the element that `USBSHR_AddReadControlElement` answers: the control reader waits
for its event and counts with its counter. -/
def shareElement (x : DeviceExtension δ α) (e : Element δ α) : DeviceExtension δ α :=
  { x with
    pReadControlEvent := .shared e.address x.dataInterface
    pRspAvailableCount := .shared e.address x.dataInterface
    bEnableResourceSharing := true }

end DeviceExtension

/-! ## Interleaved calls -/

structure State (δ α τ : Type) where
  readCtlEventList : List (Element δ α)
  /-- The threads in `USBSHR_AddReadControlElement` that found no element, with the device. -/
  inserting : τ → Option δ
  /-- Observers: what was answered for which device. -/
  added : List (δ × Element δ α)
  got : List (δ × Element δ α)

/-- What happens between two moments at which `ReadCtlListSpinLock` is free. -/
inductive Op (δ α τ : Type) where
  | get (id : δ)
  | lookup (t : τ) (id : δ)
  | insert (t : τ) (address : α)

/-- The state behind `USBSHR_Initialize`. -/
def State.init : State δ α τ := ⟨[], fun _ => none, [], []⟩

namespace State

/-- A call of `USBSHR_GetReadCtlEventElement`. -/
def get (s : State δ α τ) (id : δ) : State δ α τ :=
  let r := getReadCtlEventElement id s.readCtlEventList
  { s with readCtlEventList := r.2, got := s.got ++ r.1.toList.map fun e => (id, e) }

/-- `USBSHR_AddReadControlElement` up to the lookup. -/
def lookup [DecidableEq τ] (s : State δ α τ) (t : τ) (id : δ) : State δ α τ :=
  let r := getReadCtlEventElement id s.readCtlEventList
  match r.1 with
  | some e => { s with readCtlEventList := r.2, added := s.added ++ [(id, e)] }
  | none => { s with readCtlEventList := r.2, inserting := Function.update s.inserting t (some id) }

/-- `USBSHR_AddReadControlElement` from the allocation on. -/
def insert [DecidableEq τ] (s : State δ α τ) (t : τ) (id : δ) (address : α) : State δ α τ :=
  let e : Element δ α := ⟨id, address⟩
  { s with
    readCtlEventList := s.readCtlEventList ++ [e]
    inserting := Function.update s.inserting t none
    added := s.added ++ [(id, e)] }

end State

/-- A thread makes one call after the other, and the allocation finds memory that is not in use. -/
def step [DecidableEq α] [DecidableEq τ] : Machine (State δ α τ) (Op δ α τ) Unit
  | s, .get id => some (s.get id, ())
  | s, .lookup t id => if s.inserting t = none then some (s.lookup t id, ()) else none
  | s, .insert t address =>
    match s.inserting t with
    | none => none
    | some id =>
      if address ∈ s.readCtlEventList.map Element.address then none
      else some (s.insert t id address, ())

/-! ## What the sharing is for -/

namespace State

/-- There is one element for each device, every call answers that one, and the interrupt reader of
any interface signals the event and raises the counter that the control reader of it looks at. -/
structure Shared (s : State δ α τ) : Prop where
  single : (s.readCtlEventList.map Element.deviceId).Nodup
  same : ∀ p ∈ s.added ++ s.got, ∀ q ∈ s.added ++ s.got, p.1 = q.1 → p.2 = q.2
  readers : ∀ p ∈ s.added, ∀ x y : DeviceExtension δ α, x.deviceId = p.1 →
    x.bEnableResourceSharing = true → y.dataInterface.toNat < maxInterface →
      (x.getReadControlEvent y.dataInterface s.readCtlEventList).1 =
          some (y.shareElement p.2).pReadControlEvent ∧
        (x.getRspAvailableCount y.dataInterface s.readCtlEventList).1 =
          some (y.shareElement p.2).pRspAvailableCount

/-- No other thread inserted an element for the device since the lookup. -/
def Unraced (s : State δ α τ) : Op δ α τ → Prop
  | .insert t _ =>
    ∀ id, s.inserting t = some id → id ∉ s.readCtlEventList.map Element.deviceId
  | _ => True

end State

/-- `ReadCtlListSpinLock` is held for a lookup. -/
def Op.IsLookup : Op δ α τ → Prop
  | .insert _ _ => False
  | _ => True

/-- The property of a run: its states are right, and its lookups leave the list alone. -/
structure SharedRun [DecidableEq α] [DecidableEq τ] (ops : List (Op δ α τ)) : Prop where
  states : ∀ s ∈ step.visits .init ops, s.Shared
  lookups : ∀ p ∈ step.fires .init ops, p.2.IsLookup →
    (step.next p.1 p.2).readCtlEventList = p.1.readCtlEventList

/-! ## What a step does -/

variable [DecidableEq τ] {s s' : State δ α τ} {op : Op δ α τ} {u : Unit}

omit [DecidableEq τ] in
theorem State.get_eq (s : State δ α τ) (id : δ) :
    s.get id = { s with
      got := s.got ++ (s.readCtlEventList.find? (·.deviceId = id)).toList.map fun e => (id, e) } := by
  rw [State.get, getReadCtlEventElement_eq]

/-- What a step leaves, with the element that a lookup found. -/
inductive Does (s : State δ α τ) : Op δ α τ → State δ α τ → Prop
  | get (id : δ) : Does s (.get id) { s with
      got := s.got ++ (s.readCtlEventList.find? (·.deviceId = id)).toList.map fun e => (id, e) }
  | finds {t : τ} {id : δ} {e : Element δ α}
      (hfind : s.readCtlEventList.find? (·.deviceId = id) = some e) :
      Does s (.lookup t id) { s with added := s.added ++ [(id, e)] }
  | misses {t : τ} {id : δ} (hfind : s.readCtlEventList.find? (·.deviceId = id) = none) :
      Does s (.lookup t id) { s with inserting := Function.update s.inserting t (some id) }
  | inserts {t : τ} {id : δ} (address : α) (hinserting : s.inserting t = some id) :
      Does s (.insert t address) (s.insert t id address)

theorem does_of_step [DecidableEq α] (h : step s op = some (s', u)) : Does s op s' := by
  cases op with
  | get id =>
    simp only [step, Option.some.injEq, Prod.mk.injEq, and_true] at h
    rw [← h, State.get_eq]
    exact .get id
  | lookup t id =>
    simp only [step, State.lookup, getReadCtlEventElement_eq] at h
    split_ifs at h
    cases hfind : s.readCtlEventList.find? (·.deviceId = id) with
    | none =>
      simp only [hfind, Option.some.injEq, Prod.mk.injEq, and_true] at h
      exact h ▸ .misses hfind
    | some e =>
      simp only [hfind, Option.some.injEq, Prod.mk.injEq, and_true] at h
      exact h ▸ .finds hfind
  | insert t address =>
    cases hinserting : s.inserting t with
    | none => simp [step, hinserting] at h
    | some id =>
      simp only [step, hinserting] at h
      split_ifs at h
      simp only [Option.some.injEq, Prod.mk.injEq, and_true] at h
      exact h ▸ .inserts address hinserting

/-! ## Answers come from the list -/

/-- What was answered is still in the list. Nothing is ever removed from it. -/
def State.Stored (s : State δ α τ) : Prop :=
  ∀ p ∈ s.added ++ s.got, p.2 ∈ s.readCtlEventList ∧ p.2.deviceId = p.1

omit [DecidableEq τ] in
theorem find_stored {id : δ} {list : List (Element δ α)} {e : Element δ α}
    (hfind : list.find? (·.deviceId = id) = some e) : e ∈ list ∧ e.deviceId = id :=
  ⟨List.mem_of_find?_eq_some hfind, by simpa using List.find?_some hfind⟩

theorem State.Stored.of_does (hs : s.Stored) (hdoes : Does s op s') : s'.Stored := by
  cases hdoes with
  | get id =>
    intro p hp
    rw [← List.append_assoc] at hp
    rcases List.mem_append.mp hp with hold | hnew
    · exact hs p hold
    · obtain ⟨e, hfound, rfl⟩ := List.mem_map.mp hnew
      exact find_stored (Option.mem_toList.mp hfound)
  | finds hfind =>
    intro p hp
    rcases List.mem_append.mp hp with hadded | hgot
    · rcases List.mem_append.mp hadded with hold | hnew
      · exact hs p (List.mem_append_left _ hold)
      · rw [List.mem_singleton.mp hnew]
        exact find_stored hfind
    · exact hs p (List.mem_append_right _ hgot)
  | misses hfind => exact hs
  | @inserts t id address hinserting =>
    have hkept (p) (hp : p ∈ s.added ++ s.got) :
        p.2 ∈ s.readCtlEventList ++ [⟨id, address⟩] ∧ p.2.deviceId = p.1 :=
      ⟨List.mem_append_left _ (hs p hp).1, (hs p hp).2⟩
    intro p hp
    rcases List.mem_append.mp hp with hadded | hgot
    · rcases List.mem_append.mp hadded with hold | hnew
      · exact hkept p (List.mem_append_left _ hold)
      · rw [List.mem_singleton.mp hnew]
        exact ⟨List.mem_append_right _ List.mem_cons_self, rfl⟩
    · exact hkept p (List.mem_append_right _ hgot)

omit [DecidableEq τ] in
/-- Where the list has one element for a device, a lookup finds the one that was answered. -/
theorem State.Stored.find_eq (hs : s.Stored)
    (hsingle : (s.readCtlEventList.map Element.deviceId).Nodup) {p : δ × Element δ α}
    (hp : p ∈ s.added ++ s.got) : s.readCtlEventList.find? (·.deviceId = p.1) = some p.2 := by
  obtain ⟨hmem, hid⟩ := hs p hp
  cases hfind : s.readCtlEventList.find? (·.deviceId = p.1) with
  | none => exact absurd hid (by simpa using List.find?_eq_none.mp hfind p.2 hmem)
  | some e =>
    obtain ⟨hmem', hid'⟩ := find_stored hfind
    rw [List.inj_on_of_nodup_map hsingle hmem' hmem (hid'.trans hid.symm)]

omit [DecidableEq τ] in
/-- Single elements are all that is needed. -/
theorem State.Stored.shared_iff (hs : s.Stored) :
    s.Shared ↔ (s.readCtlEventList.map Element.deviceId).Nodup := by
  refine ⟨State.Shared.single, fun hsingle => ⟨hsingle, ?_, ?_⟩⟩
  · intro p hp q hq hid
    have hfind := hs.find_eq hsingle hp
    rw [hid, hs.find_eq hsingle hq] at hfind
    exact (Option.some.inj hfind).symm
  · intro p hp x y hid hsharing hin
    have hfind := hs.find_eq hsingle (List.mem_append_left _ hp)
    have hslot (slot : Slot α) : (x.getSlot slot y.dataInterface s.readCtlEventList).1 =
        some (.shared p.2.address y.dataInterface) := by
      simp [DeviceExtension.getSlot, Nat.not_le.mpr hin, hsharing, getReadCtlEventElement_eq, hid,
        hfind]
    exact ⟨hslot _, hslot _⟩

theorem State.Stored.shared_step_iff (hs : s.Stored) (hshared : s.Shared) (hdoes : Does s op s') :
    s'.Shared ↔ s.Unraced op := by
  rw [(hs.of_does hdoes).shared_iff]
  cases hdoes with
  | get id => exact iff_of_true hshared.single trivial
  | finds hfind => exact iff_of_true hshared.single trivial
  | misses hfind => exact iff_of_true hshared.single trivial
  | @inserts t id address hinserting =>
    have hunraced : s.Unraced (.insert t address) ↔
        id ∉ s.readCtlEventList.map Element.deviceId := by
      simp [State.Unraced, hinserting]
    rw [hunraced]
    simp [State.insert, List.nodup_append, hshared.single]

/-! ## Runs -/

/-- A run goes right exactly if no insertion of it was raced. -/
theorem visits_shared_iff [DecidableEq α] (ops : List (Op δ α τ)) :
    (∀ s ∈ step.visits .init ops, s.Shared) ↔ ∀ p ∈ step.fires .init ops, p.1.Unraced p.2 := by
  have hinit : (State.init : State δ α τ).Stored := fun _ hp => absurd hp List.not_mem_nil
  have haux (s : State δ α τ) (op : Op δ α τ) (s' : State δ α τ) (u : Unit) (hs : s.Stored)
      (_ : True) (hstep : step s op = some (s', u)) : s'.Stored :=
    hs.of_does (does_of_step hstep)
  have hok (s : State δ α τ) (op : Op δ α τ) (s' : State δ α τ) (u : Unit) (hs : s.Stored)
      (hshared : s.Shared) (_ : True) (hstep : step s op = some (s', u)) :
      s'.Shared ↔ s.Unraced op :=
    hs.shared_step_iff hshared (does_of_step hstep)
  have hgood : (State.init : State δ α τ).Shared := hinit.shared_iff.mpr List.nodup_nil
  exact Machine.visits_all_iff_fires haux hok hinit hgood fun _ _ => trivial

theorem Does.list_eq (hdoes : Does s op s') (hlookup : op.IsLookup) :
    s'.readCtlEventList = s.readCtlEventList := by
  cases hdoes with
  | get id => rfl
  | finds hfind => rfl
  | misses hfind => rfl
  | inserts address hinserting => exact absurd hlookup not_false

theorem fires_lookup [DecidableEq α] (ops : List (Op δ α τ)) (p : State δ α τ × Op δ α τ)
    (hp : p ∈ step.fires .init ops) (hlookup : p.2.IsLookup) :
    (step.next p.1 p.2).readCtlEventList = p.1.readCtlEventList := by
  obtain ⟨s', u, hstep⟩ := Machine.exists_of_mem_fires hp
  have hnext : step.next p.1 p.2 = s' := by simp [Machine.next, hstep]
  rw [hnext]
  exact (does_of_step hstep).list_eq hlookup

/-- A run shares its elements exactly if every insertion of it finds the list still without an element
for the device. -/
theorem sharedRun_iff_unraced [DecidableEq α] (ops : List (Op δ α τ)) :
    SharedRun ops ↔ ∀ p ∈ step.fires .init ops, p.1.Unraced p.2 := by
  refine ⟨fun h => (visits_shared_iff ops).mp h.states, fun h => ?_⟩
  exact ⟨(visits_shared_iff ops).mpr h, fires_lookup ops⟩

/-- Two threads look for the element of a device before one of them inserts it. -/
def overlappingAdds : List (Op Nat Nat Bool) :=
  [.lookup false 7, .lookup true 7, .insert false 1, .insert true 2]

/-- The list then has two elements for the device, and the two calls answer different ones. -/
theorem not_sharedRun_overlappingAdds : ¬SharedRun overlappingAdds := by
  intro h
  have hend : (step.visits .init overlappingAdds).map
      (fun s => s.readCtlEventList.map Element.deviceId) = [[], [], [], [7], [7, 7]] := by decide
  have hsingle : ∀ ids ∈ (step.visits .init overlappingAdds).map
      (fun s => s.readCtlEventList.map Element.deviceId), ids.Nodup :=
    List.forall_mem_map.mpr fun s hs => (h.states s hs).single
  rw [hend] at hsingle
  exact absurd hsingle (by decide)

/-! ## One call after the other -/

/-- No other thread is between the lookup and the insertion for the device. -/
def State.Serial (s : State δ α τ) : Op δ α τ → Prop
  | .lookup _ id => ∀ t', s.inserting t' ≠ some id
  | _ => True

/-- What a thread is about to insert is not in the list, and no other thread is about to insert it. -/
structure State.Reserved (s : State δ α τ) : Prop where
  missing : ∀ t id, s.inserting t = some id → id ∉ s.readCtlEventList.map Element.deviceId
  alone : ∀ t t' id, s.inserting t = some id → s.inserting t' = some id → t = t'

theorem State.Reserved.of_does (hs : s.Reserved) (hserial : s.Serial op) (hdoes : Does s op s') :
    s'.Reserved := by
  cases hdoes with
  | get id => exact ⟨hs.missing, hs.alone⟩
  | finds hfind => exact ⟨hs.missing, hs.alone⟩
  | @misses t id hfind =>
    refine ⟨fun t' id' h => ?_, fun t' t'' id' h h' => ?_⟩
    · simp only [Function.update_apply] at h
      split_ifs at h
      · obtain rfl := Option.some.inj h
        simpa using List.find?_eq_none.mp hfind
      · exact hs.missing t' id' h
    · simp only [Function.update_apply] at h h'
      split_ifs at h h' with ht ht' ht'
      · exact ht.trans ht'.symm
      · exact absurd (h'.trans h.symm) (hserial t'')
      · exact absurd (h.trans h'.symm) (hserial t')
      · exact hs.alone t' t'' id' h h'
  | @inserts t id address hinserting =>
    have hother (t' : τ) (id' : δ) (h : (s.insert t id address).inserting t' = some id') :
        t' ≠ t ∧ s.inserting t' = some id' := by
      simp only [State.insert, Function.update_apply] at h
      split_ifs at h with ht
      exact ⟨ht, h⟩
    refine ⟨fun t' id' h => ?_, fun t' t'' id' h h' => ?_⟩
    · obtain ⟨hne, hold⟩ := hother t' id' h
      have hid : id' ≠ id := by
        rintro rfl
        exact hne (hs.alone t' t id' hold hinserting)
      simpa [State.insert, hid] using hs.missing t' id' hold
    · exact hs.alone t' t'' id' (hother t' id' h).2 (hother t'' id' h').2

/-- Calls of `USBSHR_AddReadControlElement` for one device that do not overlap share its element. -/
theorem sharedRun_of_serial [DecidableEq α] (ops : List (Op δ α τ))
    (hserial : ∀ p ∈ step.fires .init ops, p.1.Serial p.2) : SharedRun ops := by
  have hinit : (State.init : State δ α τ).Reserved :=
    ⟨fun _ _ h => absurd h.symm (Option.some_ne_none _),
      fun _ _ _ h => absurd h.symm (Option.some_ne_none _)⟩
  have hkeeps (s : State δ α τ) (op : Op δ α τ) (s' : State δ α τ) (u : Unit) (hs : s.Reserved)
      (hop : s.Serial op) (hstep : step s op = some (s', u)) : s'.Reserved :=
    hs.of_does hop (does_of_step hstep)
  have hreserved := Machine.visits_all_of_fires hkeeps hinit hserial
  refine ⟨(visits_shared_iff ops).mpr fun p hp => ?_, fires_lookup ops⟩
  have hs : p.1.Reserved := hreserved p.1 (Machine.fst_mem_visits_of_mem_fires hp)
  obtain ⟨s, op⟩ := p
  cases op with
  | get id => trivial
  | lookup t id => trivial
  | insert t address => exact hs.missing t

end Transport.SharedControl
