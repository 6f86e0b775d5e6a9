-- SUMMARY: The table of device removal events, its registrations and closes, and exactly when it stays consistent.
import QcomUsb.Library.Transition

/-!
# Device removal events

An application registers a named event, and gets the handle by which it may close it again. The
adapter keeps the events and their handles in two arrays. Pointers and handles are 64-bit values,
and 0 is `NULL`.
-/

namespace Ndis.RemovalEvents

open Transition

abbrev Pointer := UInt64

/-- `DEVICE_REMOVAL_EVENTS_MAX`. -/
def deviceRemovalEventsMax : Nat := 512

/-- `NamedEvents`, `NamedEventsHandle` and `NamedEventsIndex`. -/
structure Table where
  namedEvents : Nat → Pointer
  namedEventsHandle : Nat → Pointer
  namedEventsIndex : Nat

/-- The table, and observers: the pairs that are registered and not closed, the handles that are
open, the references taken on events, and whether nothing was written past a buffer. -/
structure State where
  table : Table
  registered : List (Pointer × Pointer)
  openHandles : List Pointer
  references : List Pointer
  intact : Bool

/-- The status of a request, and the handle it returns. -/
structure Reply where
  success : Bool
  handle : Option Pointer
  deriving DecidableEq

/-- A request with its input, which is there if it is not empty. `created` is the event and the
handle of `IoCreateNotificationEvent`. -/
inductive Op
  | removeEvent (wide : Bool) (buffer : List UInt8) (outlen : Nat) (created : Pointer × Pointer)
  | eventClose (buffer : List UInt8)

/-! ## Names -/

/-- The characters of a wide string. An odd byte is completed by the zeros behind it. -/
def wideChars : List UInt8 → List Nat
  | low :: high :: rest => (low.toNat + 256 * high.toNat) :: wideChars rest
  | [low] => [low.toNat]
  | [] => []

/-- The length of the name. -/
def nameLength (wide : Bool) (buffer : List UInt8) : Nat :=
  if wide then ((wideChars buffer).takeWhile (· ≠ 0)).length
  else (buffer.takeWhile (· ≠ 0)).length

/-- The input fits `EventNameBuf`, and the name fits `EventNameBuf1` behind the 18 characters of
`\BaseNamedObjects\`. -/
def NameFits (wide : Bool) (buffer : List UInt8) : Prop :=
  buffer.length ≤ (if wide then 512 else 256) ∧ 18 + nameLength wide buffer < 256

instance (wide : Bool) (buffer : List UInt8) : Decidable (NameFits wide buffer) :=
  inferInstanceAs (Decidable (_ ∧ _))

/-! ## The requests -/

/-- The `ULONGLONG` at the head of the input. -/
def ulonglongAt (buffer : List UInt8) : Pointer :=
  UInt64.ofNat (Nat.ofDigits 256 ((buffer.take 8).map UInt8.toNat))

/-- A slot of the arrays is written. -/
def Table.set (t : Table) (i : Nat) (event handle : Pointer) : Table :=
  { t with
    namedEvents := Function.update t.namedEvents i event
    namedEventsHandle := Function.update t.namedEventsHandle i handle }

/-- A registration passes the checks. -/
def Accepted (t : Table) (buffer : List UInt8) (outlen : Nat) : Prop :=
  buffer ≠ [] ∧ 8 ≤ outlen ∧ t.namedEventsIndex < deviceRemovalEventsMax

instance (t : Table) (buffer : List UInt8) (outlen : Nat) : Decidable (Accepted t buffer outlen) :=
  inferInstanceAs (Decidable (_ ∧ _))

/-- `IOCTL_QCDEV_DEVICE_REMOVE_EVENTA` and `IOCTL_QCDEV_DEVICE_REMOVE_EVENTW`. -/
def State.removeEvent (s : State) (wide : Bool) (buffer : List UInt8) (outlen : Nat)
    (created : Pointer × Pointer) : State × Reply :=
  if Accepted s.table buffer outlen then
    if NameFits wide buffer then
      let table := s.table.set s.table.namedEventsIndex created.1 created.2
      if created.1 ≠ 0 then
        ({ s with
            table := { table with namedEventsIndex := table.namedEventsIndex + 1 }
            registered := s.registered ++ [created]
            openHandles := s.openHandles ++ [created.2]
            references := s.references ++ [created.1] },
          ⟨true, some created.2⟩)
      else ({ s with table := table }, ⟨false, none⟩)
    else ({ s with intact := false }, ⟨false, none⟩)
  else (s, ⟨false, none⟩)

/-- One turn of the loop of `IOCTL_QCDEV_DEVICE_EVENT_CLOSE`, with its `Move`. -/
def closeTurn (value : Pointer) (r : State × Bool) (count : Nat) : State × Bool :=
  let s := r.1
  let t := s.table
  if t.namedEvents count ≠ 0 ∧ value = t.namedEventsHandle count then
    ({ s with
        table := t.set count 0 0
        openHandles := s.openHandles.erase (t.namedEventsHandle count)
        references := s.references.erase (t.namedEvents count) },
      true)
  else if r.2 then
    -- the handle is taken from the array of the events
    ({ s with table := t.set (count - 1) (t.namedEvents count) (t.namedEvents count) }, true)
  else r

/-- `IOCTL_QCDEV_DEVICE_EVENT_CLOSE`. -/
def State.eventClose (s : State) (buffer : List UInt8) : State × Reply :=
  if buffer.length < 8 then (s, ⟨false, none⟩)
  else
    let value := ulonglongAt buffer
    let r := (List.range' 0 s.table.namedEventsIndex).foldl (closeTurn value) (s, false)
    let s := { r.1 with registered := r.1.registered.eraseP fun p => p.2 = value }
    if r.2 then
      let t := s.table
      ({ s with table := { t with namedEventsIndex := t.namedEventsIndex - 1 } }, ⟨true, none⟩)
    else (s, ⟨false, none⟩)

/-- The requests. A new handle is not one that is open. -/
def removalEvents : Machine State Op Reply := fun s op =>
  if s.intact then
    match op with
    | .removeEvent wide buffer outlen created =>
      if created.1 ≠ 0 → created.2 ∉ s.openHandles then
        some (s.removeEvent wide buffer outlen created)
      else none
    | .eventClose buffer => some (s.eventClose buffer)
  else none

/-- No event is registered. -/
def start : State := ⟨⟨fun _ => 0, fun _ => 0, 0⟩, [], [], [], true⟩

/-! ## Consistency -/

/-- The event and the handle of a slot. -/
def Table.entry (t : Table) (i : Nat) : Pointer × Pointer :=
  (t.namedEvents i, t.namedEventsHandle i)

/-- `n` slots from `c` on. -/
def Table.entriesFrom (t : Table) (c n : Nat) : List (Pointer × Pointer) :=
  (List.range' c n).map t.entry

/-- The slots in use. -/
def Table.entries (t : Table) : List (Pointer × Pointer) := t.entriesFrom 0 t.namedEventsIndex

/-- The table holds the registered pairs in order, and their handles and events are just those that
are open and referenced. -/
structure State.Consistent (s : State) : Prop where
  intact : s.intact = true
  entries : s.table.entries = s.registered
  openHandles : s.openHandles.Perm (s.registered.map Prod.snd)
  references : s.references.Perm (s.registered.map Prod.fst)

/-- The name of a new event fits, and behind a pair that is closed each handle is the address of its
event. -/
def Op.Keeps (s : State) : Op → Prop
  | .removeEvent wide buffer outlen _ => Accepted s.table buffer outlen → NameFits wide buffer
  | .eventClose buffer => 8 ≤ buffer.length →
    ∀ p ∈ (s.table.entries.dropWhile fun p => p.2 ≠ ulonglongAt buffer).tail, p.1 = p.2

/-- Handles are different, and events are not null. -/
structure Distinct (registered : List (Pointer × Pointer)) : Prop where
  handles : (registered.map Prod.snd).Nodup
  events : ∀ p ∈ registered, p.1 ≠ 0

/-! ## Slots -/

variable {s s' : State} {t : Table} {value : Pointer} {c n : Nat}

theorem entry_set (t : Table) (i : Nat) (event handle : Pointer) (j : Nat) :
    (t.set i event handle).entry j = if j = i then (event, handle) else t.entry j := by
  by_cases h : j = i <;> simp [Table.set, Table.entry, Function.update, h]

theorem entriesFrom_succ (t : Table) (c n : Nat) :
    t.entriesFrom c (n + 1) = t.entry c :: t.entriesFrom (c + 1) n := rfl

@[simp] theorem entriesFrom_length (t : Table) (c n : Nat) : (t.entriesFrom c n).length = n := by
  simp [Table.entriesFrom]

theorem entriesFrom_add (t : Table) (c m n : Nat) :
    t.entriesFrom c (m + n) = t.entriesFrom c m ++ t.entriesFrom (c + m) n := by
  simp [Table.entriesFrom, ← List.range'_append_1]

theorem entriesFrom_congr {t' : Table} (h : ∀ i, c ≤ i → i < c + n → t'.entry i = t.entry i) :
    t'.entriesFrom c n = t.entriesFrom c n := by
  refine List.map_congr_left fun i hi => ?_
  obtain ⟨hlow, hhigh⟩ := List.mem_range'_1.mp hi
  exact h i hlow hhigh

/-! ## The loop of a close -/

/-- The turns after a pair was closed: the pairs behind slot `c` are in one slot lower. -/
structure Shifted (s s' : State) (c n : Nat) : Prop where
  same : s' = { s with table := s'.table }
  index : s'.table.namedEventsIndex = s.table.namedEventsIndex
  entries : s'.table.entriesFrom c n = (s.table.entriesFrom (c + 1) n).map fun p => (p.1, p.1)
  front : ∀ i < c, s'.table.entry i = s.table.entry i

/-- Pairs with other handles are passed over. -/
theorem closeTurns_pass (h : ∀ p ∈ s.table.entriesFrom c n, p.2 ≠ value) :
    (List.range' c n).foldl (closeTurn value) (s, false) = (s, false) := by
  induction n generalizing c with
  | zero => rfl
  | succ n ih =>
    rw [entriesFrom_succ, List.forall_mem_cons] at h
    have hturn : closeTurn value (s, false) c = (s, false) := by
      have hne : value ≠ s.table.namedEventsHandle c := fun heq => h.1 heq.symm
      simp [closeTurn, hne]
    rw [List.range'_succ, List.foldl_cons, hturn]
    exact ih h.2

/-- Behind a closed pair each pair moves one slot down, with its event for a handle. -/
theorem closeTurns_shift (h : ∀ p ∈ s.table.entriesFrom (c + 1) n, p.2 ≠ value) :
    ∃ s', (List.range' (c + 1) n).foldl (closeTurn value) (s, true) = (s', true) ∧
      Shifted s s' c n := by
  induction n generalizing c s with
  | zero => exact ⟨s, rfl, rfl, rfl, rfl, fun _ _ => rfl⟩
  | succ n ih =>
    rw [entriesFrom_succ, List.forall_mem_cons] at h
    let moved : State := { s with
      table := s.table.set c (s.table.namedEvents (c + 1)) (s.table.namedEvents (c + 1)) }
    have hturn : closeTurn value (s, true) (c + 1) = (moved, true) := by
      have hne : value ≠ s.table.namedEventsHandle (c + 1) := fun heq => h.1 heq.symm
      simp [closeTurn, hne, moved]
    have hback : moved.table.entriesFrom (c + 2) n = s.table.entriesFrom (c + 2) n := by
      refine entriesFrom_congr fun i hi _ => ?_
      rw [entry_set, if_neg (by omega)]
    rw [← hback] at h
    obtain ⟨s', hrun, hshift⟩ := ih h.2
    refine ⟨s', ?_, hshift.same, hshift.index, ?_, ?_⟩
    · rw [List.range'_succ, List.foldl_cons, hturn, hrun]
    · -- slot `c` is not written again
      have hfirst : s'.table.entry c =
          (s.table.namedEvents (c + 1), s.table.namedEvents (c + 1)) := by
        rw [hshift.front c (Nat.lt_succ_self c), entry_set, if_pos rfl]
      have hrest := hshift.entries
      rw [hback] at hrest
      rw [entriesFrom_succ, hrest, hfirst, entriesFrom_succ s.table (c + 1) n]
      rfl
    · intro i hi
      rw [hshift.front i (by omega), entry_set, if_neg (by omega)]

/-- The loop closes a handle of the table. -/
theorem closeTurns_found {front back : List (Pointer × Pointer)} {event : Pointer}
    (hentries : s.table.entries = front ++ (event, value) :: back) (hevent : event ≠ 0)
    (hfront : ∀ p ∈ front, p.2 ≠ value) (hback : ∀ p ∈ back, p.2 ≠ value) :
    ∃ table : Table, (List.range' 0 s.table.namedEventsIndex).foldl (closeTurn value) (s, false) =
        ({ s with
            table := table
            openHandles := s.openHandles.erase value
            references := s.references.erase event }, true) ∧
      table.namedEventsIndex = front.length + back.length + 1 ∧
      table.entriesFrom 0 (front.length + back.length) =
        front ++ back.map fun p => (p.1, p.1) := by
  have hindex : s.table.namedEventsIndex = front.length + (back.length + 1) := by
    have hlength := congrArg List.length hentries
    simpa [Table.entries] using hlength
  rw [Table.entries, hindex, entriesFrom_add, Nat.zero_add, entriesFrom_succ] at hentries
  obtain ⟨hfirst, hlast⟩ := List.append_inj hentries (by simp)
  obtain ⟨hentry, hrest⟩ := List.cons.inj hlast
  obtain ⟨hevents, hhandle⟩ := Prod.mk.inj hentry
  let closed : State := { s with
    table := s.table.set front.length 0 0
    openHandles := s.openHandles.erase value
    references := s.references.erase event }
  have hturn : closeTurn value (s, false) front.length = (closed, true) := by
    simp [closeTurn, hevents, hhandle, hevent, closed]
  have hclosed : closed.table.entriesFrom (front.length + 1) back.length = back := by
    refine Eq.trans (entriesFrom_congr fun i hi _ => ?_) hrest
    rw [entry_set, if_neg (by omega)]
  obtain ⟨s', hrun, hshift⟩ :=
    closeTurns_shift (s := closed) (c := front.length) (n := back.length) (hclosed.symm ▸ hback)
  refine ⟨s'.table, ?_, ?_, ?_⟩
  · have hpass := closeTurns_pass (s := s) (c := 0) (hfirst.symm ▸ hfront)
    rw [hindex, ← List.range'_append_1, List.foldl_append, hpass, Nat.zero_add,
      List.range'_succ, List.foldl_cons, hturn, hrun]
    rw [hshift.same]
  · rw [hshift.index]
    exact hindex
  · have hkept : s'.table.entriesFrom 0 front.length = front := by
      refine Eq.trans (entriesFrom_congr fun i _ hi => ?_) hfirst
      rw [hshift.front i (by omega), entry_set, if_neg (by omega)]
    rw [entriesFrom_add, hkept, Nat.zero_add, hshift.entries, hclosed]

/-! ## One request -/

/-- What a request does to a consistent table. -/
inductive Effect (s : State) : Op → State → Prop
  | nothing {op : Op} (table : Table) (hentries : table.entries = s.table.entries)
      (hkeeps : op.Keeps s) : Effect s op { s with table := table }
  | overruns {op : Op} (hkeeps : ¬ op.Keeps s) : Effect s op { s with intact := false }
  | registers {op : Op} (event handle : Pointer) (table : Table) (hevent : event ≠ 0)
      (hnew : handle ∉ s.openHandles)
      (hentries : table.entries = s.table.entries ++ [(event, handle)]) (hkeeps : op.Keeps s) :
      Effect s op { s with
        table := table
        registered := s.registered ++ [(event, handle)]
        openHandles := s.openHandles ++ [handle]
        references := s.references ++ [event] }
  | closes {op : Op} (front back : List (Pointer × Pointer)) (event handle : Pointer)
      (table : Table) (hregistered : s.registered = front ++ (event, handle) :: back)
      (hentries : table.entries = front ++ back.map fun p => (p.1, p.1))
      (hkeeps : op.Keeps s ↔ ∀ p ∈ back, p.1 = p.2) :
      Effect s op { s with
        table := table
        registered := front ++ back
        openHandles := s.openHandles.erase handle
        references := s.references.erase event }

theorem removeEvent_effect (wide : Bool) (buffer : List UInt8) (outlen : Nat)
    {created : Pointer × Pointer} (hnew : created.1 ≠ 0 → created.2 ∉ s.openHandles) :
    Effect s (.removeEvent wide buffer outlen created)
      (s.removeEvent wide buffer outlen created).1 := by
  simp only [State.removeEvent]
  split
  · rename_i haccepted
    split
    · rename_i hfits
      split
      · rename_i hevent
        refine .registers created.1 created.2 _ hevent (hnew hevent) ?_ fun _ => hfits
        have hold : (s.table.set s.table.namedEventsIndex created.1 created.2).entriesFrom 0
            s.table.namedEventsIndex = s.table.entries := by
          refine entriesFrom_congr fun i _ hi => ?_
          rw [entry_set, if_neg (by omega)]
        have hlast := entry_set s.table s.table.namedEventsIndex created.1 created.2
          s.table.namedEventsIndex
        rw [if_pos rfl] at hlast
        rw [← hold, ← hlast]
        have hadd := entriesFrom_add (s.table.set s.table.namedEventsIndex created.1 created.2) 0
          s.table.namedEventsIndex 1
        rw [Nat.zero_add] at hadd
        exact hadd
      · -- the slot that was written is not in use
        refine .nothing _ ?_ fun _ => hfits
        refine entriesFrom_congr fun i _ hi => ?_
        have hne : i ≠ s.table.namedEventsIndex := by
          simp only [Table.set, Nat.zero_add] at hi
          exact hi.ne
        rw [entry_set, if_neg hne]
    · rename_i hfits
      exact .overruns fun hkeeps => hfits (hkeeps haccepted)
  · rename_i haccepted
    exact .nothing s.table rfl fun h => absurd h haccepted

theorem eventClose_effect (buffer : List UInt8) (h : s.Consistent) (hd : Distinct s.registered) :
    Effect s (.eventClose buffer) (s.eventClose buffer).1 := by
  simp only [State.eventClose]
  split
  · rename_i hshort
    exact .nothing s.table rfl fun hlong => absurd hlong (by omega)
  · rename_i hlong
    generalize hvalue : ulonglongAt buffer = value
    by_cases hmem : ∃ p ∈ s.registered, p.2 = value
    · obtain ⟨⟨event, handle⟩, hp, rfl⟩ := hmem
      obtain ⟨front, back, hsplit⟩ := List.append_of_mem hp
      have hnodup := hd.handles
      rw [hsplit, List.map_append, List.map_cons, List.nodup_middle, List.nodup_cons,
        List.mem_append] at hnodup
      have hfront : ∀ p ∈ front, p.2 ≠ handle := fun p hp heq =>
        hnodup.1 (.inl (List.mem_map.mpr ⟨p, hp, heq⟩))
      have hback : ∀ p ∈ back, p.2 ≠ handle := fun p hp heq =>
        hnodup.1 (.inr (List.mem_map.mpr ⟨p, hp, heq⟩))
      have hevent : event ≠ 0 := hd.events _ hp
      obtain ⟨table, hrun, hindex, hentries⟩ :=
        closeTurns_found (h.entries.trans hsplit) hevent hfront hback
      have herase : s.registered.eraseP (fun p => p.2 = handle) = front ++ back := by
        rw [hsplit, List.eraseP_append_right _ (by simpa using hfront), List.eraseP_cons_of_pos]
        simp
      simp only [hrun, ↓reduceIte, herase]
      refine .closes front back event handle _ hsplit ?_ ?_
      · change table.entriesFrom 0 (table.namedEventsIndex - 1) = _
        rw [hindex]
        exact hentries
      · have hdrop : (s.table.entries.dropWhile fun p => p.2 ≠ handle) =
            (event, handle) :: back := by
          rw [h.entries, hsplit, List.dropWhile_append_of_pos (by simpa using hfront)]
          simp
        simp only [Op.Keeps, hvalue, hdrop, List.tail_cons]
        exact ⟨fun hkeeps => hkeeps (by omega), fun hkeeps _ => hkeeps⟩
    · have hother : ∀ p ∈ s.registered, p.2 ≠ value := fun p hp heq => hmem ⟨p, hp, heq⟩
      have hpass : (List.range' 0 s.table.namedEventsIndex).foldl (closeTurn value) (s, false) =
          (s, false) := by
        refine closeTurns_pass ?_
        rw [← Table.entries, h.entries]
        exact hother
      have herase : s.registered.eraseP (fun p => p.2 = value) = s.registered :=
        List.eraseP_of_forall_not (by simpa using hother)
      simp only [hpass, herase, Bool.false_eq_true, ↓reduceIte]
      refine .nothing s.table rfl fun _ => ?_
      have hdrop : (s.table.entries.dropWhile fun p => p.2 ≠ value) = [] := by
        rw [h.entries, List.dropWhile_eq_nil_iff]
        simpa using hother
      simp only [hvalue, hdrop, List.tail_nil]
      exact fun p hp => absurd hp List.not_mem_nil

theorem map_fst_fst_eq_self (l : List (Pointer × Pointer)) :
    (l.map fun p => (p.1, p.1)) = l ↔ ∀ p ∈ l, p.1 = p.2 := by
  conv_lhs => rhs; rw [← List.map_id l]
  rw [List.map_inj_left]
  refine forall₂_congr fun p _ => ?_
  exact ⟨fun h => (Prod.ext_iff.mp h).2, fun h => Prod.ext rfl h⟩

/-- One occurrence of an element is erased. -/
theorem perm_erase_middle {a : Pointer} {l front back : List Pointer}
    (h : l.Perm (front ++ a :: back)) : (l.erase a).Perm (front ++ back) := by
  have herase := (h.trans List.perm_middle).erase a
  rwa [List.erase_cons_head] at herase

variable {op : Op}

theorem Effect.consistent_iff (he : Effect s op s') (h : s.Consistent) :
    s'.Consistent ↔ op.Keeps s := by
  cases he with
  | nothing table hentries hkeeps =>
    exact iff_of_true ⟨h.intact, hentries.trans h.entries, h.openHandles, h.references⟩ hkeeps
  | overruns hkeeps => exact iff_of_false (fun h' => Bool.noConfusion h'.intact) hkeeps
  | registers event handle table hevent hnew hentries hkeeps =>
    refine iff_of_true ⟨h.intact, ?_, ?_, ?_⟩ hkeeps
    · rw [hentries, h.entries]
    · simpa using h.openHandles.append_right [handle]
    · simpa using h.references.append_right [event]
  | closes front back event handle table hregistered hentries hkeeps =>
    rw [hkeeps, ← map_fst_fst_eq_self]
    constructor
    · intro h'
      exact List.append_cancel_left (hentries.symm.trans h'.entries)
    · intro hback
      refine ⟨h.intact, by rw [hentries, hback], ?_, ?_⟩
      · have hperm := h.openHandles
        rw [hregistered, List.map_append, List.map_cons] at hperm
        rw [List.map_append]
        exact perm_erase_middle hperm
      · have hperm := h.references
        rw [hregistered, List.map_append, List.map_cons] at hperm
        rw [List.map_append]
        exact perm_erase_middle hperm

theorem Effect.distinct (he : Effect s op s') (h : s.Consistent) (hd : Distinct s.registered) :
    Distinct s'.registered := by
  cases he with
  | nothing table hentries hkeeps => exact hd
  | overruns hkeeps => exact hd
  | registers event handle table hevent hnew hentries hkeeps =>
    have hnotMem : handle ∉ s.registered.map Prod.snd := fun hmem =>
      hnew (h.openHandles.mem_iff.mpr hmem)
    refine ⟨?_, ?_⟩
    · rw [List.map_append]
      exact List.Nodup.append hd.handles (List.nodup_singleton _)
        (List.disjoint_singleton.mpr hnotMem)
    · intro p hp
      rcases List.mem_append.mp hp with hold | hlast
      · exact hd.events p hold
      · rw [List.mem_singleton.mp hlast]
        exact hevent
  | closes front back event handle table hregistered hentries hkeeps =>
    have hsub : (front ++ back).Sublist s.registered := by
      rw [hregistered]
      exact (List.Sublist.refl front).append (List.sublist_cons_self _ back)
    exact ⟨hd.handles.sublist (hsub.map Prod.snd), fun p hp => hd.events p (hsub.subset hp)⟩

theorem removalEvents_effect {reply : Reply} (h : s.Consistent) (hd : Distinct s.registered)
    (hstep : removalEvents s op = some (s', reply)) : Effect s op s' := by
  cases op with
  | removeEvent wide buffer outlen created =>
    simp only [removalEvents, h.intact, ↓reduceIte, Option.ite_none_right_eq_some,
      Option.some.injEq] at hstep
    have heffect := removeEvent_effect wide buffer outlen hstep.1
    rwa [hstep.2] at heffect
  | eventClose buffer =>
    simp only [removalEvents, h.intact, ↓reduceIte, Option.some.injEq] at hstep
    have heffect := eventClose_effect buffer h hd
    rwa [hstep] at heffect

/-! ## Runs -/

theorem start_consistent : start.Consistent := ⟨rfl, rfl, .refl _, .refl _⟩

theorem start_distinct : Distinct start.registered :=
  ⟨List.nodup_nil, fun _ hp => absurd hp List.not_mem_nil⟩

/-- The table stays consistent over a run exactly if every request keeps it so. -/
theorem removalEvents_consistent (ops : List Op) :
    (∀ s ∈ removalEvents.visits start ops, s.Consistent) ↔
      ∀ p ∈ removalEvents.fires start ops, p.2.Keeps p.1 := by
  have hdistinct : ∀ s op s' reply, Distinct s.registered → s.Consistent → op.Keeps s →
      removalEvents s op = some (s', reply) → Distinct s'.registered :=
    fun s op s' reply hd h _ hstep => (removalEvents_effect h hd hstep).distinct h hd
  have hiff : ∀ s op s' reply, Distinct s.registered → s.Consistent →
      removalEvents s op = some (s', reply) → (s'.Consistent ↔ op.Keeps s) :=
    fun s op s' reply hd h hstep => (removalEvents_effect h hd hstep).consistent_iff h
  exact Machine.visits_all_iff_fires_of_ok hdistinct hiff start_distinct start_consistent

/-- Two events are registered, and the first is closed. -/
theorem removalEvents_close_first :
    ¬ ∀ s ∈ removalEvents.visits start
        [.removeEvent false [0x41] 8 (0x1000, 4), .removeEvent false [0x42] 8 (0x2000, 8),
          .eventClose [4, 0, 0, 0, 0, 0, 0, 0]],
      s.Consistent := by
  intro hall
  have hlast := hall _ (List.getLast_mem (List.ne_nil_of_mem (Machine.start_mem_visits _ _)))
  have hentries := hlast.entries
  revert hentries
  decide +kernel

end Ndis.RemovalEvents
