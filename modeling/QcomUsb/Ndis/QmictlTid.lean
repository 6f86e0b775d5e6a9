-- SUMMARY: The QMICTL transaction ids of the miniport: one counter for each physical device, and when an id can repeat.
import QcomUsb.Library.LabelledCounter
import QcomUsb.Library.Transition

/-!
# QMICTL transaction ids

The adapters of one physical device share the counter of one of them.
`GetPhysicalAdapterQCTLTransactionId` looks that adapter up on the adapter list, and
`GetQCTLTransactionId` takes the low bits of its counter. A call whose lookup fails
answers the counter of its own adapter as it stands.
-/

namespace Ndis

open Transition

/-- `MUX_INTERFACE_INFO`, as the filter driver answers it. -/
structure MuxInterfaceInfo where
  interfaceNumber : UInt8
  physicalInterfaceNumber : UInt8
  muxEnabled : UInt32
  filterDeviceObj : Nat
deriving DecidableEq, Repr

namespace QmictlTid

open LabelledCounter

/-- `QCMP_QCTL_INTERNAL_MAX_TID`. -/
def internalMaxTid : Nat := 0x7F

section

variable {α : Type} [DecidableEq α]

/-- The fields of an adapter that the ids depend on and that do not change. -/
structure Settings (α : Type) where
  muxInterface : α → MuxInterfaceInfo
  externalQCTLEnabled : α → Bool

/-- The condition in the loop over the adapter list. -/
def Settings.isPhysicalOf (c : Settings α) (pAdapter pTempAdapter : α) : Bool :=
  let mux := c.muxInterface pAdapter
  let tempMux := c.muxInterface pTempAdapter
  mux.muxEnabled == 0x01 && mux.physicalInterfaceNumber == tempMux.interfaceNumber &&
    mux.filterDeviceObj == tempMux.filterDeviceObj

/-- The adapter whose counter `GetPhysicalAdapterQCTLTransactionId` goes on to increment. -/
def Settings.physicalAdapter (c : Settings α) (adapterList : List α) (pAdapter : α) : Option α :=
  if (c.muxInterface pAdapter).muxEnabled = 0 then some pAdapter
  else adapterList.find? (c.isPhysicalOf pAdapter)

/-- The transaction id that `GetQCTLTransactionId` takes from a value of the counter. With `none`
it increments the counter once more. -/
def tidOf (externalQCTLEnabled : Bool) (counter : UInt32) : Option UInt32 :=
  let tid := counter.toUInt8
  if externalQCTLEnabled then
    if tid &&& 0x7F = 0 then none else some (tid &&& 0x7F).toUInt32
  else
    if tid = 0 then none else some tid.toUInt32

/-- A call of `GetPhysicalAdapterQCTLTransactionId` after its lookup. -/
structure Call (α : Type) where
  pAdapter : α
  physical : Option α
deriving DecidableEq

/-- A call that has returned. -/
structure Return (α : Type) extends Call α where
  tid : UInt32
deriving DecidableEq

/-- The adapter list and the counters. An observer keeps the calls that are under way and those
that have returned, the last one first. -/
structure State (α : Type) where
  adapterList : List α
  qmictlTransactionId : α → UInt32
  calls : List (Call α)
  returned : List (Return α)

/-- What can happen: an adapter joins or leaves the adapter list, a call looks its physical adapter
up, or one of the calls under way accesses its counter. -/
inductive Op (α : Type)
  | attach (a : α)
  | detach (a : α)
  | lookup (a : α)
  | access (k : Nat)

/-- `MPINI_Attach` and `MPINI_Detach`. -/
def State.attach (s : State α) (a : α) : Option (State α) :=
  if a ∈ s.adapterList then none else some { s with adapterList := s.adapterList ++ [a] }

def State.detach (s : State α) (a : α) : Option (State α) :=
  if a ∈ s.adapterList then some { s with adapterList := s.adapterList.erase a } else none

/-- The part of `GetPhysicalAdapterQCTLTransactionId` under `GlobalData.Lock`. -/
def State.lookup (c : Settings α) (s : State α) (a : α) : State α :=
  { s with calls := s.calls ++ [⟨a, c.physicalAdapter s.adapterList a⟩] }

/-- `InterlockedIncrement`. -/
def State.increment (s : State α) (b : α) : State α :=
  { s with
    qmictlTransactionId :=
      Function.update s.qmictlTransactionId b (s.qmictlTransactionId b + 1) }

def State.complete (s : State α) (k : Nat) (call : Call α) (tid : UInt32) : State α :=
  { s with calls := s.calls.eraseIdx k, returned := ⟨call, tid⟩ :: s.returned }

/-- One access of a call to its counter: an increment, and with it the end of the call unless the id
is skipped. A call without a physical adapter reads the counter of its own. -/
def State.access (c : Settings α) (s : State α) (k : Nat) : Option (State α) :=
  match s.calls[k]? with
  | none => none
  | some call =>
    match call.physical with
    | none => some (s.complete k call (s.qmictlTransactionId call.pAdapter))
    | some b =>
      match tidOf (c.externalQCTLEnabled b) ((s.increment b).qmictlTransactionId b) with
      | none => some (s.increment b)
      | some tid => some ((s.increment b).complete k call tid)

def State.step (c : Settings α) (s : State α) : Op α → Option (State α)
  | .attach a => s.attach a
  | .detach a => s.detach a
  | .lookup a => some (s.lookup c a)
  | .access k => s.access c k

/-- The miniport as far as its transaction ids go. -/
def tidMachine (c : Settings α) : Machine (State α) (Op α) Unit :=
  fun s op => (s.step c op).map fun s' => (s', ())

/-- Before the first call. -/
def start (adapterList : List α) (counter : α → UInt32) : State α := ⟨adapterList, counter, [], []⟩

/-- The physical device a call is for: the adapter that numbers it, or what the call looked for if
it found none. -/
def Settings.device (c : Settings α) (call : Call α) : α ⊕ (UInt8 × Nat) :=
  match call.physical with
  | some b => .inl b
  | none =>
    let mux := c.muxInterface call.pAdapter
    .inr (mux.physicalInterfaceNumber, mux.filterDeviceObj)

/-- The ids returned for one physical device, the last one first. -/
def State.tidsFor (c : Settings α) (s : State α) (d : α ⊕ (UInt8 × Nat)) : List UInt32 :=
  (s.returned.filter fun r => c.device r.toCall = d).map Return.tid

/-- No id is 0 or one that is routed to the external client, and no id is one of the 126 before it. -/
structure State.NoCollision (c : Settings α) (s : State α) : Prop where
  ne_zero : ∀ r ∈ s.returned, r.tid ≠ 0
  internal : ∀ r ∈ s.returned, c.externalQCTLEnabled r.pAdapter = true → r.tid.toNat ≤ internalMaxTid
  distinct : ∀ d, DistinctWithin 126 (s.tidsFor c d)

/-- A call that is looked up finds its physical adapter. -/
def FindsPhysical (c : Settings α) (s : State α) : Op α → Prop
  | .lookup a => (c.physicalAdapter s.adapterList a).isSome
  | _ => True

instance (c : Settings α) (s : State α) (op : Op α) : Decidable (FindsPhysical c s op) :=
  match op with
  | .lookup a => inferInstanceAs (Decidable ((c.physicalAdapter s.adapterList a).isSome = true))
  | .attach _ | .detach _ | .access _ => .isTrue trivial

/-- The adapters of one physical device have the same `ExternalQCTLEnabled`. -/
def Settings.Shared (c : Settings α) : Prop :=
  ∀ a b, c.isPhysicalOf a b = true → c.externalQCTLEnabled a = c.externalQCTLEnabled b

end

/-! ## The ids of one counter -/

/-- The number of values of the counter after which the ids repeat. -/
def modulus (externalQCTLEnabled : Bool) : Nat := if externalQCTLEnabled then 128 else 256

theorem tidOf_ofNat (e : Bool) (v : Nat) :
    tidOf e (.ofNat v) = if v % modulus e = 0 then none else some (.ofNat (v % modulus e)) := by
  have hlow : (UInt32.ofNat v).toUInt8.toNat = v % 256 := by
    rw [UInt32.toNat_toUInt8, UInt32.toNat_ofNat']
    omega
  cases e with
  | false =>
    have hzero : (UInt32.ofNat v).toUInt8 = 0 ↔ v % 256 = 0 := by
      rw [← UInt8.toNat_inj, hlow, UInt8.toNat_zero]
    have hsame : (UInt32.ofNat v).toUInt8.toUInt32 = .ofNat (v % 256) := by
      rw [← UInt32.toNat_inj, UInt8.toNat_toUInt32, hlow, UInt32.toNat_ofNat']
      omega
    simp only [tidOf, modulus, hzero, hsame, Bool.false_eq_true, if_false]
  | true =>
    have hmask : ((UInt32.ofNat v).toUInt8 &&& 0x7F).toNat = v % 128 := by
      have hand := Nat.and_two_pow_sub_one_eq_mod (v % 256) 7
      rw [UInt8.toNat_and, hlow]
      calc v % 256 &&& (0x7F : UInt8).toNat = v % 256 % 128 := hand
        _ = v % 128 := by omega
    have hzero : (UInt32.ofNat v).toUInt8 &&& 0x7F = 0 ↔ v % 128 = 0 := by
      rw [← UInt8.toNat_inj, hmask, UInt8.toNat_zero]
    have hsame : ((UInt32.ofNat v).toUInt8 &&& 0x7F).toUInt32 = .ofNat (v % 128) := by
      rw [← UInt32.toNat_inj, UInt8.toNat_toUInt32, hmask, UInt32.toNat_ofNat']
      omega
    simp only [tidOf, modulus, hzero, hsame, if_true]

/-- The ids a counter gives, by its values. -/
def tidAt (externalQCTLEnabled : Bool) (v : Nat) : Option UInt32 := tidOf externalQCTLEnabled (.ofNat v)

theorem tidAt_eq_some {e : Bool} {v : Nat} {t : UInt32} (h : tidAt e v = some t) :
    t.toNat = v % modulus e ∧ t.toNat ≠ 0 := by
  have hmod : v % modulus e < 2 ^ 32 := by
    cases e <;> simp only [modulus, if_true, Bool.false_eq_true, if_false] <;> omega
  rw [tidAt, tidOf_ofNat] at h
  split at h
  · cases h
  · rename_i hv
    obtain rfl := Option.some.inj h
    rw [UInt32.toNat_ofNat', Nat.mod_eq_of_lt hmod]
    exact ⟨rfl, hv⟩

theorem length_labels_tidAt (e : Bool) (lo k : Nat) :
    (labels (tidAt e) lo k).length + (lo + k) / modulus e = k + lo / modulus e := by
  induction k with
  | zero => simp
  | succ k ih =>
    have hlabel : (tidAt e (lo + k + 1)).toList.length =
        if (lo + k + 1) % modulus e = 0 then 0 else 1 := by
      rw [tidAt, tidOf_ofNat]
      split <;> rfl
    rw [labels_succ, List.length_append, hlabel]
    cases e <;> simp only [modulus, if_true, Bool.false_eq_true, if_false] at * <;> split <;> omega

/-- A counter never repeats one of its last 126 ids. -/
theorem distinctWithin_tidAt (e : Bool) (lo k : Nat) :
    DistinctWithin 126 (labels (tidAt e) lo k) := by
  have hapart : ∀ v w t, tidAt e v = some t → tidAt e w = some t → v < w → v + 127 < w := by
    intro v w t hv hw hlt
    have hsame : v % modulus e = w % modulus e :=
      (tidAt_eq_some hv).1.symm.trans (tidAt_eq_some hw).1
    cases e <;> simp only [modulus, if_true, Bool.false_eq_true, if_false] at hsame <;> omega
  have hdense : ∀ lo, 126 ≤ (labels (tidAt e) lo 127).length := by
    intro lo
    have hlength := length_labels_tidAt e lo 127
    cases e <;> simp only [modulus, if_true, Bool.false_eq_true, if_false] at hlength <;> omega
  exact distinctWithin_labels hapart hdense lo k

/-! ## Runs -/

section

variable {α : Type} [DecidableEq α] {c : Settings α} {counter : α → UInt32} {s s' : State α}

/-- The call counts on its own adapter or on the physical adapter it found. -/
def Settings.Counts (c : Settings α) (call : Call α) : Prop :=
  ∃ b, call.physical = some b ∧ (b = call.pAdapter ∨ c.isPhysicalOf call.pAdapter b = true)

/-- Every counter has given its ids in order, since it was `counter`. -/
structure Numbered (c : Settings α) (counter : α → UInt32) (s : State α) : Prop where
  calls : ∀ call ∈ s.calls, c.Counts call
  returned : ∀ r ∈ s.returned, c.Counts r.toCall
  labels : ∀ b, ∃ k, s.qmictlTransactionId b = .ofNat ((counter b).toNat + k) ∧
    s.tidsFor c (.inl b) = labels (tidAt (c.externalQCTLEnabled b)) (counter b).toNat k

omit [DecidableEq α] in
theorem counts_lookup {a : α} (h : (c.physicalAdapter s.adapterList a).isSome) :
    c.Counts ⟨a, c.physicalAdapter s.adapterList a⟩ := by
  obtain ⟨b, hb⟩ := Option.isSome_iff_exists.mp h
  refine ⟨b, hb, ?_⟩
  unfold Settings.physicalAdapter at hb
  split at hb
  · exact .inl (Option.some.inj hb).symm
  · exact .inr (List.find?_some hb)

theorem Numbered.start (adapterList : List α) (counter : α → UInt32) :
    Numbered c counter (start adapterList counter) := by
  refine ⟨by simp [QmictlTid.start], by simp [QmictlTid.start], fun b => ⟨0, ?_, rfl⟩⟩
  simp [QmictlTid.start]

/-- An increment without an id moves the counter past a skipped value. -/
theorem Numbered.increment {b : α} (h : Numbered c counter s)
    (hskip : tidOf (c.externalQCTLEnabled b) ((s.increment b).qmictlTransactionId b) = none) :
    Numbered c counter (s.increment b) := by
  refine ⟨h.calls, h.returned, fun d => ?_⟩
  obtain ⟨k, hcounter, htids⟩ := h.labels d
  rcases eq_or_ne d b with rfl | hd
  · have hnext : (s.increment d).qmictlTransactionId d = .ofNat ((counter d).toNat + k + 1) := by
      simp [State.increment, hcounter, UInt32.ofNat_add]
    rw [hnext] at hskip
    refine ⟨k + 1, by rw [hnext, Nat.add_assoc], ?_⟩
    rw [labels_succ, tidAt, hskip]
    exact htids
  · refine ⟨k, ?_, htids⟩
    simpa [State.increment, Function.update_of_ne hd] using hcounter

theorem Numbered.complete {b : α} {k : Nat} {call : Call α} {tid : UInt32}
    (h : Numbered c counter s) (hcall : s.calls[k]? = some call) (hb : call.physical = some b)
    (htid : tidOf (c.externalQCTLEnabled b) ((s.increment b).qmictlTransactionId b) = some tid) :
    Numbered c counter ((s.increment b).complete k call tid) := by
  have hcounts : c.Counts call := h.calls call (List.mem_of_getElem? hcall)
  have hdevice : c.device call = .inl b := by simp [Settings.device, hb]
  refine ⟨fun call' hmem => h.calls call' (List.mem_of_mem_eraseIdx hmem), fun r hr => ?_,
    fun d => ?_⟩
  · rcases List.mem_cons.mp hr with rfl | hold
    · exact hcounts
    · exact h.returned r hold
  · obtain ⟨n, hcounter, htids⟩ := h.labels d
    rcases eq_or_ne d b with rfl | hd
    · have hnext : (s.increment d).qmictlTransactionId d = .ofNat ((counter d).toNat + n + 1) := by
        simp [State.increment, hcounter, UInt32.ofNat_add]
      refine ⟨n + 1, by rw [← Nat.add_assoc]; exact hnext, ?_⟩
      rw [hnext] at htid
      rw [labels_succ, tidAt, htid, ← htids]
      simp [State.tidsFor, State.complete, State.increment, hdevice]
    · refine ⟨n, ?_, ?_⟩
      · simpa [State.complete, State.increment, Function.update_of_ne hd] using hcounter
      · have hother : c.device call ≠ .inl d := by
          rw [hdevice]
          exact fun heq => hd (Sum.inl.inj heq).symm
        rw [← htids]
        simp [State.tidsFor, State.complete, State.increment, hother]

theorem Numbered.step {op : Op α} (h : Numbered c counter s) (hop : FindsPhysical c s op)
    (hstep : s.step c op = some s') : Numbered c counter s' := by
  cases op with
  | attach a =>
    simp only [State.step, State.attach] at hstep
    split at hstep
    · cases hstep
    · obtain rfl := Option.some.inj hstep
      exact ⟨h.calls, h.returned, h.labels⟩
  | detach a =>
    simp only [State.step, State.detach] at hstep
    split at hstep
    · obtain rfl := Option.some.inj hstep
      exact ⟨h.calls, h.returned, h.labels⟩
    · cases hstep
  | lookup a =>
    obtain rfl := Option.some.inj hstep
    refine ⟨fun call hcall => ?_, h.returned, h.labels⟩
    rcases List.mem_append.mp hcall with hold | hnew
    · exact h.calls call hold
    · obtain rfl := List.mem_singleton.mp hnew
      exact counts_lookup hop
  | access k =>
    simp only [State.step, State.access] at hstep
    cases hcall : s.calls[k]? with
    | none => simp [hcall] at hstep
    | some call =>
      obtain ⟨b, hb, -⟩ := h.calls call (List.mem_of_getElem? hcall)
      simp only [hcall, hb] at hstep
      cases htid : tidOf (c.externalQCTLEnabled b) ((s.increment b).qmictlTransactionId b) with
      | none =>
        simp only [htid, Option.some.injEq] at hstep
        exact hstep ▸ h.increment htid
      | some tid =>
        simp only [htid, Option.some.injEq] at hstep
        exact hstep ▸ h.complete hcall hb htid

/-- Every id that was returned is one that its counter gives. -/
theorem Numbered.tid_eq {r : Return α} (h : Numbered c counter s) (hr : r ∈ s.returned) :
    ∃ b v, r.physical = some b ∧ tidAt (c.externalQCTLEnabled b) v = some r.tid := by
  obtain ⟨b, hb, -⟩ := h.returned r hr
  obtain ⟨k, -, htids⟩ := h.labels b
  have hmem : r.tid ∈ s.tidsFor c (.inl b) := by
    refine List.mem_map_of_mem (List.mem_filter.mpr ⟨hr, ?_⟩)
    simp [Settings.device, hb]
  rw [htids] at hmem
  obtain ⟨v, -, -, hv⟩ := mem_labels.mp hmem
  exact ⟨b, v, hb, hv⟩

theorem Numbered.noCollision (h : Numbered c counter s) (hshared : c.Shared) : s.NoCollision c := by
  refine ⟨fun r hr h0 => ?_, fun r hr hexternal => ?_, fun d => ?_⟩
  · obtain ⟨b, v, -, hv⟩ := h.tid_eq hr
    exact (tidAt_eq_some hv).2 (by rw [h0]; rfl)
  · obtain ⟨b, v, hb, hv⟩ := h.tid_eq hr
    obtain ⟨b', hb', hcounts⟩ := h.returned r hr
    obtain rfl : b = b' := Option.some.inj (hb.symm.trans hb')
    have hsetting : c.externalQCTLEnabled b = true := by
      rcases hcounts with rfl | hphysical
      · exact hexternal
      · exact (hshared _ _ hphysical).symm.trans hexternal
    have htid := (tidAt_eq_some hv).1
    simp only [hsetting, modulus, if_true] at htid
    simp only [internalMaxTid]
    omega
  · cases d with
    | inl b =>
      obtain ⟨k, -, htids⟩ := h.labels b
      rw [htids]
      exact distinctWithin_tidAt _ _ _
    | inr key =>
      have hnone : s.tidsFor c (.inr key) = [] := by
        simp only [State.tidsFor, List.map_eq_nil_iff, List.filter_eq_nil_iff]
        intro r hr hdevice
        obtain ⟨b, hb, -⟩ := h.returned r hr
        simp [Settings.device, hb] at hdevice
      rw [hnone]
      trivial

/-- While every call finds its physical adapter, no id collides. -/
theorem tidMachine_noCollision (c : Settings α) (hshared : c.Shared) (adapterList : List α)
    (counter : α → UInt32) (ops : List (Op α))
    (hfinds : ∀ p ∈ (tidMachine c).fires (start adapterList counter) ops, FindsPhysical c p.1 p.2) :
    ∀ s ∈ (tidMachine c).visits (start adapterList counter) ops, s.NoCollision c := by
  have hstep : ∀ s op s' (o : Unit), Numbered c counter s → FindsPhysical c s op →
      tidMachine c s op = some (s', o) → Numbered c counter s' := by
    intro s op s' o h hop hs
    simp only [tidMachine, Option.map_eq_some_iff, Prod.mk.injEq] at hs
    obtain ⟨t, ht, rfl, -⟩ := hs
    exact h.step hop ht
  intro s hs
  exact (Machine.visits_all_of_fires hstep (Numbered.start _ _) hfinds s hs).noCollision hshared

end

/-- A physical adapter and a mux adapter on it. -/
def muxed (externalQCTLEnabled : Bool) : Settings Bool where
  muxInterface a := ⟨if a then 0x80 else 5, 5, 1, 0⟩
  externalQCTLEnabled _ := externalQCTLEnabled

/-- The two adapters share the counter, and the second call goes past a value that gives no id. -/
theorem tidMachine_noCollision_wrap :
    ∃ s ∈ (tidMachine (muxed true)).visits (start [false, true] fun _ => 126)
        [.lookup false, .lookup true, .access 0, .access 0, .access 0],
      s.NoCollision (muxed true) ∧ s.returned.map Return.tid = [1, 127] := by
  have hlast := List.getLast_mem (List.ne_nil_of_mem (Machine.start_mem_visits
    (M := tidMachine (muxed true)) (start [false, true] fun _ => 126)
    [.lookup false, .lookup true, .access 0, .access 0, .access 0]))
  exact ⟨_, hlast, tidMachine_noCollision (muxed true) (fun _ _ _ => rfl) [false, true] _ _
    (by decide +kernel) _ hlast, by decide +kernel⟩

/-- Without its physical adapter a mux adapter gets the id 0. -/
theorem tidMachine_noCollision_fallback :
    ¬ ∀ s ∈ (tidMachine (muxed true)).visits (start [true] fun _ => 0) [.lookup true, .access 0],
      s.NoCollision (muxed true) := by
  intro hall
  have hlast := List.getLast_mem (List.ne_nil_of_mem (Machine.start_mem_visits
    (M := tidMachine (muxed true)) (start [true] fun _ => 0) [.lookup true, .access 0]))
  have hzero := (hall _ hlast).ne_zero
  revert hzero
  decide +kernel

end QmictlTid

end Ndis
