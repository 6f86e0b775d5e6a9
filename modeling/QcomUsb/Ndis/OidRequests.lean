-- SUMMARY: The OID requests of the miniport, which QMI responses, resets and clean-ups complete or take back.
import QcomUsb.Library.Transition
import QcomUsb.Library.Places

/-!
# OID requests

An OID request takes an `MP_OID_WRITE` off `OIDFreeList`, and waits on `OIDWaitingList` for the
response to its QMI request. `MPQMI_FindRequest` looks the OID of a response up, and
`MPQMI_FillOID` unlinks, completes and recycles it later. Resets and clean-ups empty
`OIDWaitingList` under `OIDLock`. Nothing is ever put on `OIDPendingList` and `OIDAsyncList`.
-/

namespace Ndis.OidRequest

open Transition Places

/-- The services whose responses are matched: CTL, WDS, DMS, WMS, NAS and UIM. -/
def matchedTypes : List UInt8 := [0x00, 0x01, 0x02, 0x05, 0x03, 0x0B]

/-- The fields of a QMI message that responses are matched by. -/
structure Qmi where
  qmiType : UInt8
  clientId : UInt8
  transactionId : UInt16
deriving DecidableEq

/-- The comparison in `MPQMI_FindQMIRequest`. -/
def Qmi.answers (clientId : UInt8 → UInt8) (qmi current : Qmi) : Bool :=
  current.qmiType == qmi.qmiType &&
    (current.clientId == 0x00 && qmi.clientId == clientId qmi.qmiType ||
      current.clientId == qmi.clientId) &&
    matchedTypes.contains qmi.qmiType && current.transactionId == qmi.transactionId

/-- How far the handler of a response has got with its OID. -/
inductive Phase
  | found
  | unlinked
  | completed
deriving DecidableEq

structure Responder (n : Nat) where
  oid : Fin n
  phase : Phase
deriving DecidableEq

/-- The OID of a handler in the phase. -/
def Responder.holds {n : Nat} (phase : Phase) (r : Responder n) : Option (Fin n) :=
  if r.phase = phase then some r.oid else none

/-- The fields of the adapter, the OIDs that a request has taken off `OIDFreeList` and not yet
queued, and the decrements of `nBusyOID` that failed requests still owe. An observer counts how
often an OID was completed since it was put on `OIDWaitingList`, and notes the count when it is
recycled. -/
structure State (n : Nat) where
  oidFreeList : List (Fin n)
  oidWaitingList : List (Fin n)
  qmiQueue : Fin n → List Qmi
  clientId : UInt8 → UInt8
  nBusyOID : Int
  requested : List (Fin n)
  owed : Nat
  responders : List (Responder n)
  completions : Fin n → Nat
  recycled : List (Fin n × Nat)

/-- What can happen between two lock boundaries. The QMI requests of an OID are sent one by one, and
sending stops at the first that fails. -/
inductive Op (n : Nat)
  | take
  | queue (oid : Fin n) (requests : List Qmi) (sent : Nat)
  | uncount
  | setClientId (service id : UInt8)
  | findRequest (qmi : Qmi)
  | fillOID (k : Nat)
  | resetOIDWaitingQueue
  | cleanupOIDWaitingQueue
  | cleanupQueues

namespace State

variable {n : Nat}

/-- A request gets a blank OID. -/
def take (s : State n) : Option (State n) :=
  match s.oidFreeList with
  | [] => none
  | oid :: rest =>
    some { s with
      oidFreeList := rest
      requested := s.requested ++ [oid]
      nBusyOID := s.nBusyOID + 1 }

/-- `MP_USBRequest` for each element of the `QMIQueue`. It puts the OID on `OIDWaitingList` each
time. If one fails, or there is none, the OID goes back to `OIDFreeList`. -/
def queue (s : State n) (oid : Fin n) (requests : List Qmi) (sent : Nat) : Option (State n) :=
  let qmiQueue := s.qmiQueue oid ++ requests
  if oid ∈ s.requested ∧ sent ≤ qmiQueue.length then
    let s := { s with
      requested := s.requested.erase oid
      oidWaitingList := s.oidWaitingList ++ List.replicate sent oid
      completions := Function.update s.completions oid 0 }
    if qmiQueue ≠ [] ∧ sent = qmiQueue.length then
      some { s with qmiQueue := Function.update s.qmiQueue oid qmiQueue }
    else
      some { s with
        qmiQueue := Function.update s.qmiQueue oid []
        oidFreeList := s.oidFreeList ++ [oid]
        recycled := if 0 < sent then (oid, 0) :: s.recycled else s.recycled
        owed := s.owed + 1 }
  else none

/-- A failed request takes the lock once more to decrement `nBusyOID`. -/
def uncount (s : State n) : Option (State n) :=
  if 0 < s.owed then some { s with owed := s.owed - 1, nBusyOID := s.nBusyOID - 1 } else none

/-- `MPQMI_FindRequest`. The element that matches is taken off the `QMIQueue` of its OID. -/
def findRequest (s : State n) (qmi : Qmi) : State n :=
  match s.oidWaitingList.find? fun oid => (s.qmiQueue oid).any (qmi.answers s.clientId) with
  | none => s
  | some oid =>
    { s with
      qmiQueue :=
        Function.update s.qmiQueue oid ((s.qmiQueue oid).eraseP (qmi.answers s.clientId))
      responders := s.responders ++ [⟨oid, .found⟩] }

/-- `MPOID_CompleteOid`. -/
def completeOid (s : State n) (oid : Fin n) : State n :=
  { s with completions := Function.update s.completions oid (s.completions oid + 1) }

/-- `MPOID_CleanupOidCopy` and what follows it. -/
def recycle (s : State n) (oid : Fin n) : State n :=
  { s with
    oidFreeList := s.oidFreeList ++ [oid]
    nBusyOID := s.nBusyOID - 1
    recycled := (oid, s.completions oid) :: s.recycled }

/-- `MPQMI_FillOID` to its next lock boundary. `RemoveEntryList` does not ask which list the entry
is on. -/
def fillOID (s : State n) (k : Nat) : Option (State n) :=
  match s.responders[k]? with
  | none => none
  | some ⟨oid, .found⟩ =>
    some { s with
      oidWaitingList := s.oidWaitingList.erase oid
      oidFreeList := s.oidFreeList.erase oid
      responders := s.responders.set k ⟨oid, .unlinked⟩ }
  | some ⟨oid, .unlinked⟩ =>
    some { s.completeOid oid with responders := s.responders.set k ⟨oid, .completed⟩ }
  | some ⟨oid, .completed⟩ =>
    some { s.recycle oid with responders := s.responders.eraseIdx k }

/-- `MPQMI_FreeQMIRequestQueue`. -/
def freeQMIRequestQueue (s : State n) (oid : Fin n) : State n :=
  { s with qmiQueue := Function.update s.qmiQueue oid [] }

/-- The loop that takes the entries of `OIDWaitingList` off its head. -/
def drain (handle : State n → Fin n → State n) : List (Fin n) → State n → State n
  | [], s => s
  | oid :: rest, s => drain handle rest (handle { s with oidWaitingList := rest } oid)

/-- `MPMAIN_ResetOIDWaitingQueue`. -/
def resetOIDWaitingQueue (s : State n) : State n :=
  if s.nBusyOID > 0 then
    s.drain (fun s oid => ((s.freeQMIRequestQueue oid).completeOid oid).recycle oid)
      s.oidWaitingList
  else s

/-- `MPMAIN_CleanupOIDWaitingQueue`. -/
def cleanupOIDWaitingQueue (s : State n) : State n :=
  s.drain (fun s oid => (s.freeQMIRequestQueue oid).recycle oid) s.oidWaitingList

/-- The part of `MPMAIN_CleanupQueues` about OIDs. -/
def cleanupQueues (s : State n) : State n :=
  if s.nBusyOID > 0 then { s.cleanupOIDWaitingQueue with nBusyOID := 0 } else s

def step (s : State n) : Op n → Option (State n)
  | .take => s.take
  | .queue oid requests sent => s.queue oid requests sent
  | .uncount => s.uncount
  | .setClientId service id => some { s with clientId := Function.update s.clientId service id }
  | .findRequest qmi => some (s.findRequest qmi)
  | .fillOID k => s.fillOID k
  | .resetOIDWaitingQueue => some s.resetOIDWaitingQueue
  | .cleanupOIDWaitingQueue => some s.cleanupOIDWaitingQueue
  | .cleanupQueues => some s.cleanupQueues

end State

def oidRequests (n : Nat) : Machine (State n) (Op n) Unit :=
  fun s op => (s.step op).map fun s' => (s', ())

/-- The adapter after its `n` OIDs were put on `OIDFreeList`. -/
def start (n : Nat) : State n :=
  ⟨List.finRange n, [], fun _ => [], fun _ => 0, 0, [], 0, [], fun _ => 0, []⟩

/-! ## What the lists are for -/

/-- Every OID that was recycled had been completed once, none is on a list twice, and `nBusyOID`
counts the ones that are not free. -/
structure State.Accounted {n : Nat} (s : State n) : Prop where
  completed : ∀ r ∈ s.recycled, r.2 = 1
  once : ∀ oid, s.completions oid ≤ 1
  nodup : (s.oidFreeList ++ s.oidWaitingList).Nodup
  count : s.nBusyOID = (Finset.univ.filter fun oid => oid ∉ s.oidFreeList).card

/-- Each OID waits for one QMI request that was sent, no reset comes between the two parts of a
response, and the clean-ups find no OID to take back. -/
def Op.Orderly {n : Nat} (s : State n) : Op n → Prop
  | .queue oid requests sent => (s.qmiQueue oid ++ requests).length = 1 ∧ sent = 1
  | .resetOIDWaitingQueue => ∀ r ∈ s.responders, r.phase ≠ .found
  | .cleanupOIDWaitingQueue => s.oidWaitingList = []
  | .cleanupQueues => s.nBusyOID ≤ 0
  | _ => True

instance {n : Nat} (s : State n) : (op : Op n) → Decidable (op.Orderly s)
  | .queue .. => inferInstanceAs (Decidable (_ = 1 ∧ _ = 1))
  | .resetOIDWaitingQueue => inferInstanceAs (Decidable (∀ r ∈ s.responders, r.phase ≠ .found))
  | .cleanupOIDWaitingQueue => inferInstanceAs (Decidable (_ = []))
  | .cleanupQueues => inferInstanceAs (Decidable (_ ≤ 0))
  | .take | .uncount | .setClientId .. | .findRequest _ | .fillOID _ =>
    inferInstanceAs (Decidable True)

/-! ## Each OID in one place -/

section

variable {n : Nat} {s s' : State n}

/-- Where an OID is. -/
inductive Place
  | free
  | waiting
  | requested
  | unlinked
  | completed
deriving DecidableEq

/-- The OIDs in each place. -/
def State.oidsAt (s : State n) : Place → List (Fin n)
  | .free => s.oidFreeList
  | .waiting => s.oidWaitingList
  | .requested => s.requested
  | .unlinked => s.responders.filterMap (·.holds .unlinked)
  | .completed => s.responders.filterMap (·.holds .completed)

/-- The OIDs that a response was found for and that are not unlinked yet. -/
def State.foundOids (s : State n) : List (Fin n) := s.responders.filterMap (·.holds .found)

@[simp] theorem Responder.holds_self (oid : Fin n) (phase : Phase) :
    (⟨oid, phase⟩ : Responder n).holds phase = some oid := if_pos rfl

def State.Tracked (s : State n) : Prop :=
  ∃ place, Tracks s.oidsAt place ∧ ∀ oid, (place oid).isSome

theorem State.Tracked.of_perm (h : s.Tracked) (hperm : ∀ p, (s'.oidsAt p).Perm (s.oidsAt p)) :
    s'.Tracked := by
  obtain ⟨place, htracks, hplaced⟩ := h
  exact ⟨place, htracks.of_perm hperm, hplaced⟩

theorem State.Tracked.move {p q : Place} {oid : Fin n} {rest : List (Fin n)} (h : s.Tracked)
    (hne : p ≠ q) (hp : (s.oidsAt p).Perm (oid :: rest)) (hp' : (s'.oidsAt p).Perm rest)
    (hq : (s'.oidsAt q).Perm (oid :: s.oidsAt q))
    (hother : ∀ r, r ≠ p → r ≠ q → (s'.oidsAt r).Perm (s.oidsAt r)) : s'.Tracked := by
  obtain ⟨place, htracks, hplaced⟩ := h
  refine ⟨_, htracks.move hne hp hp' hq hother, fun o => ?_⟩
  rcases eq_or_ne o oid with rfl | ho
  · simp
  · simpa [Function.update_of_ne ho] using hplaced o

/-- An OID that is in one place is in no other. -/
theorem State.Tracked.not_mem {p q : Place} {oid : Fin n} (h : s.Tracked) (hp : oid ∈ s.oidsAt p)
    (hne : p ≠ q) : oid ∉ s.oidsAt q := by
  obtain ⟨place, htracks, -⟩ := h
  exact fun hq => hne (htracks.eq_of_mem hp hq)

theorem State.Tracked.nodup (h : s.Tracked) (p : Place) : (s.oidsAt p).Nodup := by
  obtain ⟨place, htracks, -⟩ := h
  exact htracks.nodup p

/-! ## The invariant -/

/-- An OID on `OIDWaitingList` waits for one QMI request, unless a response to it was found. -/
structure State.Inv (s : State n) : Prop where
  tracked : s.Tracked
  count : s.nBusyOID + s.oidFreeList.length = n
  owed : s.owed = 0
  found : ∀ oid, oid ∈ s.foundOids ↔ oid ∈ s.oidWaitingList ∧ s.qmiQueue oid = []
  foundNodup : s.foundOids.Nodup
  idle : ∀ oid, oid ∉ s.oidWaitingList → s.qmiQueue oid = []
  short : ∀ oid, (s.qmiQueue oid).length ≤ 1
  pending : ∀ oid, oid ∈ s.oidWaitingList ∨ oid ∈ s.oidsAt .unlinked → s.completions oid = 0
  done : ∀ oid, oid ∈ s.oidsAt .completed → s.completions oid = 1
  once : ∀ oid, s.completions oid ≤ 1
  recycled : ∀ r ∈ s.recycled, r.2 = 1

theorem State.Inv.accounted (h : s.Inv) : s.Accounted := by
  have hfree : s.oidFreeList.Nodup := h.tracked.nodup .free
  refine ⟨h.recycled, h.once, ?_, ?_⟩
  · refine List.nodup_append'.mpr ⟨hfree, h.tracked.nodup .waiting, fun oid hf => ?_⟩
    exact h.tracked.not_mem (p := .free) (q := .waiting) hf (by simp)
  · have hall := Finset.card_filter_add_card_filter_not (s := Finset.univ)
      fun oid : Fin n => oid ∈ s.oidFreeList
    have hcard : (Finset.univ.filter fun oid => oid ∈ s.oidFreeList).card
        = s.oidFreeList.length := by
      rw [← List.toFinset_card_of_nodup hfree]
      congr 1
      ext oid
      simp
    have hcount := h.count
    simp only [Finset.card_univ, Fintype.card_fin] at hall
    omega

theorem start_inv : (start n).Inv := by
  have htracks : Tracks (start n).oidsAt fun _ => some Place.free := by
    constructor
    · intro p
      cases p with
      | free => exact List.nodup_finRange n
      | waiting | requested | unlinked | completed => exact List.nodup_nil
    · intro p oid
      cases p <;> simp [State.oidsAt, start]
  refine ⟨⟨_, htracks, fun oid => rfl⟩, ?_, rfl, ?_, List.nodup_nil, ?_, ?_, ?_, ?_, ?_, ?_⟩ <;>
    simp [start, State.foundOids, State.oidsAt]

/-! ## One step -/

theorem State.Inv.take (h : s.Inv) (hstep : s.take = some s') : s'.Inv := by
  unfold State.take at hstep
  cases hfree : s.oidFreeList with
  | nil => simp [hfree] at hstep
  | cons oid rest =>
    simp only [hfree, Option.some.injEq] at hstep
    subst hstep
    have hcount := h.count
    refine { h with tracked := ?_, count := ?_ }
    · have htaken : (s.oidsAt .free).Perm (oid :: rest) := by simp [State.oidsAt, hfree]
      refine h.tracked.move (q := .requested) (by simp) htaken (.refl _) ?_ fun r hp hq => ?_
      · simp [State.oidsAt]
      · cases r with
        | free => exact absurd rfl hp
        | requested => exact absurd rfl hq
        | waiting | unlinked | completed => exact .refl _
    · simp only [hfree, List.length_cons] at hcount
      simp only
      omega

/-- The one QMI request of an OID is sent. -/
theorem queue_orderly {oid : Fin n} {requests : List Qmi} {sent : Nat}
    (horderly : (s.qmiQueue oid ++ requests).length = 1 ∧ sent = 1)
    (hstep : s.queue oid requests sent = some s') :
    oid ∈ s.requested ∧ s' = { s with
      requested := s.requested.erase oid
      oidWaitingList := s.oidWaitingList ++ [oid]
      completions := Function.update s.completions oid 0
      qmiQueue := Function.update s.qmiQueue oid (s.qmiQueue oid ++ requests) } := by
  obtain ⟨hlen, rfl⟩ := horderly
  have hne : s.qmiQueue oid ++ requests ≠ [] := by
    intro hnil
    simp [hnil] at hlen
  unfold State.queue at hstep
  by_cases hmem : oid ∈ s.requested
  · rw [if_pos ⟨hmem, hlen.ge⟩, if_pos ⟨hne, hlen.symm⟩] at hstep
    exact ⟨hmem, (Option.some.inj hstep).symm⟩
  · rw [if_neg fun hguard => hmem hguard.1] at hstep
    cases hstep

theorem State.Inv.queue {oid : Fin n} {requests : List Qmi} {sent : Nat} (h : s.Inv)
    (horderly : (s.qmiQueue oid ++ requests).length = 1 ∧ sent = 1)
    (hstep : s.queue oid requests sent = some s') : s'.Inv := by
  obtain ⟨hmem, rfl⟩ := queue_orderly horderly hstep
  have hnot {q : Place} (hq : Place.requested ≠ q) : oid ∉ s.oidsAt q :=
    h.tracked.not_mem (p := .requested) hmem hq
  have hwaiting : oid ∉ s.oidWaitingList := hnot (q := .waiting) (by simp)
  have hother {o : Fin n} (ho : o ≠ oid) :
      o ∈ s.oidWaitingList ++ [oid] ↔ o ∈ s.oidWaitingList := by simp [ho]
  refine { h with tracked := ?_, found := fun o => ?_, idle := fun o ho => ?_
                  short := fun o => ?_, pending := fun o ho => ?_, done := fun o ho => ?_
                  once := fun o => ?_ }
  · refine h.tracked.move (p := .requested) (q := .waiting) (by simp)
      (List.perm_cons_erase hmem) (.refl _) ?_ fun r hp hq => ?_
    · simp [State.oidsAt]
    · cases r with
      | requested => exact absurd rfl hp
      | waiting => exact absurd rfl hq
      | free | unlinked | completed => exact .refl _
  · rcases eq_or_ne o oid with rfl | ho
    · have hfound : o ∉ s.foundOids := fun hf => hwaiting ((h.found o).mp hf).1
      have hsent : s.qmiQueue o ++ requests ≠ [] := by
        intro hnil
        simp [hnil] at horderly
      simpa only [Function.update_self, hsent, and_false, iff_false, State.foundOids] using hfound
    · simpa only [hother ho, Function.update_of_ne ho, State.foundOids] using h.found o
  · have hne : o ≠ oid := fun heq => ho (by simp [heq])
    simpa only [Function.update_of_ne hne] using h.idle o fun hmem => ho ((hother hne).mpr hmem)
  · rcases eq_or_ne o oid with rfl | ho
    · simpa only [Function.update_self] using horderly.1.le
    · simpa only [Function.update_of_ne ho] using h.short o
  · rcases eq_or_ne o oid with rfl | hne
    · exact Function.update_self ..
    · simpa only [Function.update_of_ne hne] using h.pending o (ho.imp_left (hother hne).mp)
  · have hne : o ≠ oid := fun heq => hnot (q := .completed) (by simp) (heq ▸ ho)
    simpa only [Function.update_of_ne hne] using h.done o ho
  · rcases eq_or_ne o oid with rfl | hne
    · simp
    · simpa only [Function.update_of_ne hne] using h.once o

/-- The response to a QMI request empties the `QMIQueue` of its OID, so that no other response finds
it. -/
theorem State.Inv.findRequest (h : s.Inv) (qmi : Qmi) : (s.findRequest qmi).Inv := by
  unfold State.findRequest
  split
  next => exact h
  next oid hfind =>
    have hmem : oid ∈ s.oidWaitingList := List.mem_of_find?_eq_some hfind
    have hany : (s.qmiQueue oid).any (qmi.answers s.clientId) = true := by
      simpa using List.find?_some hfind
    obtain ⟨current, hqueue, hanswers⟩ : ∃ current, s.qmiQueue oid = [current] ∧
        qmi.answers s.clientId current = true := by
      have hshort := h.short oid
      cases hq : s.qmiQueue oid with
      | nil => simp [hq] at hany
      | cons current rest =>
        obtain rfl : rest = [] := by simpa [hq] using hshort
        exact ⟨current, rfl, by simpa [hq] using hany⟩
    have hnew : oid ∉ s.foundOids := by
      intro hf
      simpa [hqueue] using ((h.found oid).mp hf).2
    have hempty : (s.qmiQueue oid).eraseP (qmi.answers s.clientId) = [] := by
      simp [hqueue, hanswers]
    rw [hempty]
    have hfoundOids : (s.responders ++ [(⟨oid, .found⟩ : Responder n)]).filterMap (·.holds .found)
        = s.foundOids ++ [oid] := by simp [State.foundOids]
    have hheld (p : Place) : ({ s with
        qmiQueue := Function.update s.qmiQueue oid []
        responders := s.responders ++ [⟨oid, .found⟩] } : State n).oidsAt p = s.oidsAt p := by
      cases p <;> simp [State.oidsAt, Responder.holds]
    refine { h with tracked := h.tracked.of_perm fun p => by rw [hheld]
                    found := fun o => ?_, foundNodup := ?_, idle := fun o ho => ?_
                    short := fun o => ?_, pending := fun o ho => ?_, done := fun o ho => ?_ }
    · rw [State.foundOids, hfoundOids]
      rcases eq_or_ne o oid with rfl | ho
      · simpa using hmem
      · simpa [ho, Function.update_of_ne ho] using h.found o
    · rw [State.foundOids, hfoundOids]
      exact h.foundNodup.append (List.nodup_singleton oid) (by simpa using hnew)
    · have hne : o ≠ oid := fun heq => ho (heq ▸ hmem)
      simpa only [Function.update_of_ne hne] using h.idle o ho
    · rcases eq_or_ne o oid with rfl | ho
      · simp
      · simpa only [Function.update_of_ne ho] using h.short o
    · rw [hheld] at ho
      exact h.pending o ho
    · rw [hheld] at ho
      exact h.done o ho

/-- A responder goes on to its next phase. -/
theorem responders_set {k : Nat} {oid : Fin n} {before : Phase} (after : Phase)
    (hk : s.responders[k]? = some ⟨oid, before⟩) (phase : Phase) :
    ((s.responders.set k ⟨oid, after⟩).filterMap (·.holds phase)).Perm
      ((if after = phase then [oid] else []) ++
        (s.responders.eraseIdx k).filterMap (·.holds phase)) ∧
    (s.responders.filterMap (·.holds phase)).Perm
      ((if before = phase then [oid] else []) ++
        (s.responders.eraseIdx k).filterMap (·.holds phase)) := by
  have hset := filterMap_set_perm (g := Responder.holds phase) hk ⟨oid, after⟩
  have herase := filterMap_perm_eraseIdx (g := Responder.holds phase) hk
  constructor
  · refine hset.trans (.of_eq ?_)
    unfold Responder.holds
    split <;> rfl
  · refine herase.trans (.of_eq ?_)
    unfold Responder.holds
    split <;> rfl

/-- `MPQMI_FillOID` unlinks the OID that was found. -/
theorem State.Inv.unlink {k : Nat} {oid : Fin n} (h : s.Inv)
    (hk : s.responders[k]? = some ⟨oid, .found⟩) :
    ({ s with
      oidWaitingList := s.oidWaitingList.erase oid
      oidFreeList := s.oidFreeList.erase oid
      responders := s.responders.set k ⟨oid, .unlinked⟩ } : State n).Inv := by
  have hheld (phase : Phase) := responders_set .unlinked hk phase
  have hfound : s.foundOids.Perm (oid :: (s.responders.eraseIdx k).filterMap (·.holds .found)) :=
    (hheld .found).2
  have hfound' : ((s.responders.set k ⟨oid, .unlinked⟩).filterMap (·.holds .found)).Perm
      ((s.responders.eraseIdx k).filterMap (·.holds .found)) := (hheld .found).1
  obtain ⟨hwaiting, hempty⟩ := (h.found oid).mp (hfound.mem_iff.mpr List.mem_cons_self)
  have hfree : s.oidFreeList.erase oid = s.oidFreeList :=
    List.erase_of_not_mem (h.tracked.not_mem (p := .waiting) (q := .free) hwaiting (by simp))
  obtain ⟨hout, hrest⟩ := List.nodup_cons.mp (hfound.nodup_iff.mp h.foundNodup)
  have hunlinked : ((s.responders.set k ⟨oid, .unlinked⟩).filterMap (·.holds .unlinked)).Perm
      (oid :: s.oidsAt .unlinked) := (hheld .unlinked).1.trans ((hheld .unlinked).2.symm.cons oid)
  have hcompleted : ((s.responders.set k ⟨oid, .unlinked⟩).filterMap (·.holds .completed)).Perm
      (s.oidsAt .completed) := (hheld .completed).1.trans (hheld .completed).2.symm
  rw [hfree]
  refine { h with tracked := ?_, found := fun o => ?_, foundNodup := ?_, idle := fun o ho => ?_
                  pending := fun o ho => ?_, done := fun o ho => ?_ }
  · refine h.tracked.move (p := .waiting) (q := .unlinked) (by simp)
      (List.perm_cons_erase hwaiting) (.refl _) hunlinked fun r hp hq => ?_
    cases r with
    | waiting => exact absurd rfl hp
    | unlinked => exact absurd rfl hq
    | completed => exact hcompleted
    | free | requested => exact .refl _
  · refine hfound'.mem_iff.trans ?_
    have hold := h.found o
    rw [hfound.mem_iff, List.mem_cons] at hold
    have herase := (h.tracked.nodup .waiting).mem_erase_iff (a := o) (b := oid)
    rcases eq_or_ne o oid with rfl | ho
    · exact iff_of_false hout fun hmem => (herase.mp hmem.1).1 rfl
    · simpa [ho, List.mem_erase_of_ne ho] using hold
  · exact hfound'.nodup_iff.mpr hrest
  · rcases eq_or_ne o oid with rfl | hne
    · exact hempty
    · exact h.idle o fun hmem => ho ((List.mem_erase_of_ne hne).mpr hmem)
  · rcases ho with hmem | hmem
    · exact h.pending o (.inl (List.mem_of_mem_erase hmem))
    · rcases List.mem_cons.mp (hunlinked.mem_iff.mp hmem) with rfl | hold
      · exact h.pending o (.inl hwaiting)
      · exact h.pending o (.inr hold)
  · exact h.done o (hcompleted.mem_iff.mp ho)

/-- `MPQMI_FillOID` completes the OID. -/
theorem State.Inv.complete {k : Nat} {oid : Fin n} (h : s.Inv)
    (hk : s.responders[k]? = some ⟨oid, .unlinked⟩) :
    ({ s.completeOid oid with
      responders := s.responders.set k ⟨oid, .completed⟩ } : State n).Inv := by
  have hheld (phase : Phase) := responders_set .completed hk phase
  have hunlinked : (s.oidsAt .unlinked).Perm
      (oid :: (s.responders.eraseIdx k).filterMap (·.holds .unlinked)) := (hheld .unlinked).2
  have hunlinked' : ((s.responders.set k ⟨oid, .completed⟩).filterMap (·.holds .unlinked)).Perm
      ((s.responders.eraseIdx k).filterMap (·.holds .unlinked)) := (hheld .unlinked).1
  have hcompleted : ((s.responders.set k ⟨oid, .completed⟩).filterMap (·.holds .completed)).Perm
      (oid :: s.oidsAt .completed) := (hheld .completed).1.trans ((hheld .completed).2.symm.cons oid)
  have hfound : ((s.responders.set k ⟨oid, .completed⟩).filterMap (·.holds .found)).Perm
      s.foundOids := (hheld .found).1.trans (hheld .found).2.symm
  have hmem : oid ∈ s.oidsAt .unlinked := hunlinked.mem_iff.mpr List.mem_cons_self
  have hzero : s.completions oid = 0 := h.pending oid (.inr hmem)
  have hwaiting : oid ∉ s.oidWaitingList :=
    h.tracked.not_mem (p := .unlinked) (q := .waiting) hmem (by simp)
  obtain ⟨hout, -⟩ := List.nodup_cons.mp (hunlinked.nodup_iff.mp (h.tracked.nodup .unlinked))
  refine { h with tracked := ?_, found := fun o => ?_, foundNodup := ?_
                  pending := fun o ho => ?_, done := fun o ho => ?_, once := fun o => ?_ }
  · refine h.tracked.move (p := .unlinked) (q := .completed) (by simp) hunlinked hunlinked'
      hcompleted fun r hp hq => ?_
    cases r with
    | unlinked => exact absurd rfl hp
    | completed => exact absurd rfl hq
    | free | waiting | requested => exact .refl _
  · exact hfound.mem_iff.trans (h.found o)
  · exact hfound.nodup_iff.mpr h.foundNodup
  · have hne : o ≠ oid := by
      rintro rfl
      rcases ho with hw | hu
      · exact hwaiting hw
      · exact hout (hunlinked'.mem_iff.mp hu)
    simp only [State.completeOid, Function.update_of_ne hne]
    refine h.pending o (ho.imp_right fun hu => ?_)
    exact hunlinked.mem_iff.mpr (List.mem_cons_of_mem _ (hunlinked'.mem_iff.mp hu))
  · rcases List.mem_cons.mp (hcompleted.mem_iff.mp ho) with rfl | hold
    · simp [State.completeOid, hzero]
    · have hne : o ≠ oid := by
        rintro rfl
        exact h.tracked.not_mem (p := .unlinked) (q := .completed) hmem (by simp) hold
      simpa only [State.completeOid, Function.update_of_ne hne] using h.done o hold
  · rcases eq_or_ne o oid with rfl | hne
    · simp [State.completeOid, hzero]
    · simpa only [State.completeOid, Function.update_of_ne hne] using h.once o

/-- `MPQMI_FillOID` recycles the OID. -/
theorem State.Inv.recycle {k : Nat} {oid : Fin n} (h : s.Inv)
    (hk : s.responders[k]? = some ⟨oid, .completed⟩) :
    ({ s.recycle oid with responders := s.responders.eraseIdx k } : State n).Inv := by
  have hheld (phase : Phase) := (responders_set .completed hk phase).2
  have hcompleted : (s.oidsAt .completed).Perm
      (oid :: (s.responders.eraseIdx k).filterMap (·.holds .completed)) := hheld .completed
  have hunlinked : (s.oidsAt .unlinked).Perm
      ((s.responders.eraseIdx k).filterMap (·.holds .unlinked)) := hheld .unlinked
  have hfound : s.foundOids.Perm
      ((s.responders.eraseIdx k).filterMap (·.holds .found)) := hheld .found
  have hmem : oid ∈ s.oidsAt .completed := hcompleted.mem_iff.mpr List.mem_cons_self
  have hcount := h.count
  refine { h with tracked := ?_, count := ?_, found := fun o => ?_, foundNodup := ?_
                  pending := fun o ho => ?_, done := fun o ho => ?_, recycled := ?_ }
  · refine h.tracked.move (p := .completed) (q := .free) (by simp) hcompleted (.refl _)
      (List.perm_append_singleton oid _) fun r hp hq => ?_
    cases r with
    | completed => exact absurd rfl hp
    | free => exact absurd rfl hq
    | unlinked => exact hunlinked.symm
    | waiting | requested => exact .refl _
  · simp only [State.recycle, List.length_append, List.length_singleton]
    omega
  · exact hfound.mem_iff.symm.trans (h.found o)
  · exact hfound.nodup_iff.mp h.foundNodup
  · exact h.pending o (ho.imp_right hunlinked.mem_iff.mpr)
  · exact h.done o (hcompleted.mem_iff.mpr (List.mem_cons_of_mem _ ho))
  · exact List.forall_mem_cons.mpr ⟨h.done oid hmem, h.recycled⟩

/-- A reset completes and recycles the head of `OIDWaitingList`. -/
theorem State.Inv.resetHead {oid : Fin n} {rest : List (Fin n)} (h : s.Inv)
    (hnone : s.foundOids = []) (hwaiting : s.oidWaitingList = oid :: rest) :
    ((({ s with oidWaitingList := rest } : State n).freeQMIRequestQueue oid).completeOid
      oid |>.recycle oid).Inv := by
  have hnodup := h.tracked.nodup .waiting
  have hcount := h.count
  simp only [State.oidsAt, hwaiting] at hnodup
  obtain ⟨hout, -⟩ := List.nodup_cons.mp hnodup
  have hmem : oid ∈ s.oidsAt .waiting := by simp [State.oidsAt, hwaiting]
  have hzero : s.completions oid = 0 := h.pending oid (.inl hmem)
  have hqueue (o : Fin n) : Function.update s.qmiQueue oid [] o = [] ∨
      o ≠ oid ∧ Function.update s.qmiQueue oid [] o = s.qmiQueue o := by
    rcases eq_or_ne o oid with rfl | ho
    · exact .inl (by simp)
    · exact .inr ⟨ho, Function.update_of_ne ho ..⟩
  refine { h with tracked := ?_, count := ?_, found := fun o => ?_, idle := fun o ho => ?_
                  short := fun o => ?_, pending := fun o ho => ?_, done := fun o ho => ?_
                  once := fun o => ?_, recycled := ?_ }
  · refine h.tracked.move (p := .waiting) (q := .free) (by simp) (.of_eq hwaiting) (.refl _)
      (List.perm_append_singleton oid _) fun r hp hq => ?_
    cases r with
    | waiting => exact absurd rfl hp
    | free => exact absurd rfl hq
    | requested | unlinked | completed => exact .refl _
  · simp only [State.recycle, State.completeOid, State.freeQMIRequestQueue, List.length_append,
      List.length_singleton]
    omega
  · have hold := h.found o
    simp only [hnone, hwaiting, List.not_mem_nil, false_iff, not_and, List.mem_cons] at hold
    have hnot : o ∉ s.foundOids := by simp [hnone]
    refine iff_of_false hnot ?_
    rintro ⟨hrest, hempty⟩
    have ho : o ≠ oid := fun heq => hout (heq ▸ hrest)
    refine hold (.inr hrest) ?_
    simpa [State.recycle, State.completeOid, State.freeQMIRequestQueue,
      Function.update_of_ne ho] using hempty
  · rcases hqueue o with hnil | ⟨hne, heq⟩
    · exact hnil
    · refine heq.trans (h.idle o fun hmem => ?_)
      rw [hwaiting] at hmem
      exact ho ((List.mem_cons.mp hmem).resolve_left hne)
  · rcases hqueue o with hnil | ⟨-, heq⟩
    · simp [State.recycle, State.completeOid, State.freeQMIRequestQueue, hnil]
    · exact (congrArg List.length heq).le.trans (h.short o)
  · have hpending : o ∈ s.oidWaitingList ∨ o ∈ s.oidsAt .unlinked :=
      ho.imp_left fun hrest => hwaiting ▸ List.mem_cons_of_mem _ hrest
    have hne : o ≠ oid := by
      rintro rfl
      rcases ho with hrest | hu
      · exact hout hrest
      · exact h.tracked.not_mem (p := .waiting) (q := .unlinked) hmem (by simp) hu
    simpa [State.recycle, State.completeOid, State.freeQMIRequestQueue,
      Function.update_of_ne hne] using h.pending o hpending
  · have hne : o ≠ oid := by
      rintro rfl
      exact h.tracked.not_mem (p := .waiting) (q := .completed) hmem (by simp) ho
    simpa [State.recycle, State.completeOid, State.freeQMIRequestQueue,
      Function.update_of_ne hne] using h.done o ho
  · rcases eq_or_ne o oid with rfl | hne
    · simp [State.recycle, State.completeOid, State.freeQMIRequestQueue, hzero]
    · simpa [State.recycle, State.completeOid, State.freeQMIRequestQueue,
        Function.update_of_ne hne] using h.once o
  · refine List.forall_mem_cons.mpr ⟨?_, h.recycled⟩
    simp [State.completeOid, State.freeQMIRequestQueue, hzero]

/-- A reset keeps the invariant while no response has been found for a waiting OID. -/
theorem State.Inv.drain (h : s.Inv) (hnone : s.foundOids = []) :
    (s.drain (fun s oid => ((s.freeQMIRequestQueue oid).completeOid oid).recycle oid)
      s.oidWaitingList).Inv := by
  generalize hwaiting : s.oidWaitingList = waiting
  induction waiting generalizing s with
  | nil => exact h
  | cons oid rest ih => exact ih (h.resetHead hnone hwaiting) hnone rfl

theorem State.Inv.step {op : Op n} (h : s.Inv) (horderly : op.Orderly s)
    (hstep : s.step op = some s') : s'.Inv := by
  cases op with
  | take => exact h.take hstep
  | queue oid requests sent => exact h.queue horderly hstep
  | uncount => simp [State.step, State.uncount, h.owed] at hstep
  | setClientId service id =>
    obtain rfl := Option.some.inj hstep
    exact { h with }
  | findRequest qmi =>
    obtain rfl := Option.some.inj hstep
    exact h.findRequest qmi
  | fillOID k =>
    simp only [State.step, State.fillOID] at hstep
    split at hstep
    next => cases hstep
    next hk =>
      obtain rfl := Option.some.inj hstep
      exact h.unlink hk
    next hk =>
      obtain rfl := Option.some.inj hstep
      exact h.complete hk
    next hk =>
      obtain rfl := Option.some.inj hstep
      exact h.recycle hk
  | resetOIDWaitingQueue =>
    obtain rfl := Option.some.inj hstep
    have hnone : s.foundOids = [] := by
      refine List.filterMap_eq_nil_iff.mpr fun r hr => ?_
      exact if_neg (horderly r hr)
    unfold State.resetOIDWaitingQueue
    split
    · exact h.drain hnone
    · exact h
  | cleanupOIDWaitingQueue =>
    obtain rfl := Option.some.inj hstep
    have hempty : s.oidWaitingList = [] := horderly
    simpa [State.cleanupOIDWaitingQueue, hempty, State.drain] using h
  | cleanupQueues =>
    obtain rfl := Option.some.inj hstep
    have hidle : ¬ s.nBusyOID > 0 := not_lt.mpr horderly
    simpa [State.cleanupQueues, hidle] using h

/-- While requests, resets and clean-ups are orderly, every OID is completed once before it is
recycled, and the lists and `nBusyOID` stay in step. -/
theorem oidRequests_accounted (n : Nat) (ops : List (Op n))
    (horderly : ∀ p ∈ (oidRequests n).fires (start n) ops, p.2.Orderly p.1) :
    ∀ s ∈ (oidRequests n).visits (start n) ops, s.Accounted := by
  have hstep : ∀ s op s' (o : Unit), State.Inv s → op.Orderly s →
      oidRequests n s op = some (s', o) → State.Inv s' := by
    intro s op s' o h hop hstep
    obtain ⟨t, ht, heq⟩ := Option.map_eq_some_iff.mp hstep
    obtain rfl : t = s' := congrArg Prod.fst heq
    exact h.step hop ht
  intro s hs
  exact (Machine.visits_all_of_fires hstep start_inv horderly s hs).accounted

end

/-- The request of one OID and the response to it. -/
def requestAndResponse : List (Op 2) :=
  [.take, .queue 0 [⟨1, 0, 5⟩] 1, .findRequest ⟨1, 0, 5⟩, .fillOID 0, .fillOID 0, .fillOID 0,
    .resetOIDWaitingQueue]

theorem oidRequests_accounted_response :
    (∀ p ∈ (oidRequests 2).fires (start 2) requestAndResponse, p.2.Orderly p.1) ∧
      ∀ s ∈ (oidRequests 2).visits (start 2) requestAndResponse, s.Accounted := by
  have horderly : ∀ p ∈ (oidRequests 2).fires (start 2) requestAndResponse, p.2.Orderly p.1 := by
    decide
  exact ⟨horderly, oidRequests_accounted 2 requestAndResponse horderly⟩

/-- A reset between the two parts of a response completes the OID, which the response then completes
a second time. -/
theorem oidRequests_accounted_reset :
    ¬ ∀ s ∈ (oidRequests 1).visits (start 1)
        [.take, .queue 0 [⟨1, 0, 5⟩] 1, .findRequest ⟨1, 0, 5⟩, .resetOIDWaitingQueue, .fillOID 0,
          .fillOID 0],
      s.Accounted := by
  intro hall
  have hlast := List.getLast_mem (List.ne_nil_of_mem (Machine.start_mem_visits
    (M := oidRequests 1) (start 1)
    [.take, .queue 0 [⟨1, 0, 5⟩] 1, .findRequest ⟨1, 0, 5⟩, .resetOIDWaitingQueue, .fillOID 0,
      .fillOID 0]))
  have honce := (hall _ hlast).once 0
  revert honce
  decide +kernel

end Ndis.OidRequest
