-- SUMMARY: The parser of the GET_VERSION response, and exactly when it ends and stays inside the message.
import QcomUsb.Ndis.NextTlv

/-!
# The GET_VERSION response

`MPQCTL_HandleGetVersionRsp` stores the versions of the QMI services and then walks the optional TLVs.
To leave that walk it makes the signed rest of the message negative, but the guard of the loop
compares it with an unsigned size.
-/

namespace Ndis.GetVersionRsp

open Memory Tlv NextTlv

/-- A `USHORT` at `p`. -/
def ushortAt (mem : Nat → UInt8) (p : Nat) : Nat := lengthField (mem p) (mem (p + 1))

/-- `QMI_SERVICE_VERSION`. -/
structure ServiceVersion where
  major : Nat
  minor : Nat
  addendumMajor : Nat
  addendumMinor : Nat

/-- The fields of the adapter. An entry of `qmuxVersion` goes by its index. -/
structure Adapter where
  qmuxVersion : Nat → ServiceVersion
  addendumVersionLabel : Nat → UInt8
  mpDisableQoS : Nat
  mpDisableIPMode : Bool
  isQosPresent : Bool
  isWdsAdminPresent : Bool
  isLinkProtocolSupported : Bool
  isDLTLPSupported : Bool
  isNASSysInfoPresent : Bool
  wdsEnableUlParams : Bool
  mpEnableQMAPV1 : Nat
  mpEnableQMAPV2 : Nat
  mpEnableQMAPV3 : Nat
  mpEnableQMAPV4 : Nat
  qmictlVersionReceivedEvent : Bool

/-- What a turn of the walk finds. -/
inductive OptionalTlv
  | addendum
  | overLong
  | unknown
deriving DecidableEq

/-- Observers keep the bytes that were read, the indices into `QMUXVersion`, the lengths of the labels
and the optional TLVs. -/
structure State where
  adapter : Adapter
  reads : List (Nat × Nat)
  indices : List Nat
  labels : List Nat
  tlvs : List OptionalTlv

/-- The size of `QMUXVersion`, `QMUX_TYPE_ALL + 1`, and of `AddendumVersionLabel`. -/
def arraySize : Nat := 256

namespace State

/-- `k` bytes are read at `p`. -/
def read (s : State) (p k : Nat) : State := { s with reads := s.reads ++ [(p, k)] }

def found (s : State) (tlv : OptionalTlv) : State := { s with tlvs := s.tlvs ++ [tlv] }

/-- The entry of `QMUXVersion` for the `QMUX_TYPE_VERSION_STRUCT` at `p` is written. -/
def setVersion (mem : Nat → UInt8) (s : State) (p : Nat)
    (store : ServiceVersion → Nat → Nat → ServiceVersion) : State :=
  let type := (mem p).toNat
  let version := store (s.adapter.qmuxVersion type) (ushortAt mem (p + 1)) (ushortAt mem (p + 3))
  { s.read p 5 with
    adapter := { s.adapter with
      qmuxVersion := Function.update s.adapter.qmuxVersion type version }
    indices := s.indices ++ [type] }

/-- A version of the mandatory TLV. -/
def storeVersion (mem : Nat → UInt8) (s : State) (p : Nat) : State :=
  let s := s.setVersion mem p fun version major minor =>
    { version with major := major, minor := minor }
  let a := s.adapter
  { s with adapter := { a with
      isQosPresent := a.isQosPresent || (mem p = 4 && a.mpDisableQoS < 2)
      isWdsAdminPresent := a.isWdsAdminPresent || mem p = 0x1A } }

/-- A version of an addendum. -/
def storeAddendum (mem : Nat → UInt8) (s : State) (p : Nat) : State :=
  s.setVersion mem p fun version major minor =>
    { version with addendumMajor := major, addendumMinor := minor }

/-- A loop over versions that follow each other. -/
def forVersions (store : State → Nat → State) (s : State) (p : Nat) : Nat → State
  | 0 => s
  | k + 1 => forVersions store (store s p) (p + 5) k

/-- The label of the addendum TLV at `p`. -/
def copyLabel (mem : Nat → UInt8) (s : State) (p : Nat) : State :=
  let labelLength := (mem (p + 3)).toNat
  let a := s.adapter
  { (s.read (p + 3) 1).read (p + 4) labelLength with
    adapter := { a with
      addendumVersionLabel := copyIn a.addendumVersionLabel 0 (slice mem (p + 4) labelLength) }
    labels := s.labels ++ [labelLength] }

/-- The label and the versions of the addendum TLV at `p`. -/
def storeAddenda (mem : Nat → UInt8) (s : State) (p : Nat) : State :=
  let instances := p + 4 + (mem (p + 3)).toNat
  forVersions (storeAddendum mem) ((s.copyLabel mem p).read instances 1) (instances + 1)
    (mem instances).toNat

/-- A turn of the walk over the optional TLVs, with `msgLen` and `pMsg`. -/
def optionalTurn (mem : Nat → UInt8) (t : State × Int × Nat) : State ⊕ (State × Int × Nat) :=
  let (s, msgLen, pMsg) := t
  if 3 ≤ sizeT msgLen then
    let s := s.read pMsg 3
    let tlvLength := sizeAt mem pMsg
    -- QMICTL_GET_VERSION_RSP_TLV_TYPE_ADD_VERSION
    if mem pMsg = 0x10 then
      let msgLen := (msgLen - 3 - tlvLength).bmod (2 ^ 32)
      if msgLen < 0 then .inr (s.found .overLong, msgLen, pMsg)
      else .inr ((s.storeAddenda mem pMsg).found .addendum, msgLen, pMsg + 3 + tlvLength)
    else .inr (s.found .unknown, -1, pMsg + 3 + tlvLength)
  else .inl s

/-- What the versions say about the device. -/
def conclude (s : State) : State :=
  let a := s.adapter
  let ctl := a.qmuxVersion 0
  let admin := a.qmuxVersion 0x1A
  let nas := a.qmuxVersion 3
  let noQmap := 1 ≤ admin.major ∧ admin.minor < 11
  { s with adapter := { a with
      isLinkProtocolSupported :=
        if 1 ≤ ctl.major ∧ 3 ≤ ctl.minor then
          a.isLinkProtocolSupported || !a.mpDisableIPMode
        else false
      isDLTLPSupported := 1 ≤ ctl.major ∧ 6 ≤ ctl.minor
      mpEnableQMAPV1 := if noQmap then 0 else a.mpEnableQMAPV1
      mpEnableQMAPV2 := if noQmap then 0 else a.mpEnableQMAPV2
      mpEnableQMAPV3 := if noQmap then 0 else a.mpEnableQMAPV3
      mpEnableQMAPV4 := if noQmap then 0 else a.mpEnableQMAPV4
      wdsEnableUlParams := a.wdsEnableUlParams || (1 ≤ admin.major ∧ 19 ≤ admin.minor)
      isNASSysInfoPresent := a.isNASSysInfoPresent || (1 ≤ nas.major ∧ 8 ≤ nas.minor)
      qmictlVersionReceivedEvent := true } }

end State

open State

/-- `QMIResult`. -/
def qmiResult (mem : Nat → UInt8) : Nat := ushortAt mem 9

/-- `NumElements`. -/
def numElements (mem : Nat → UInt8) : Nat := (mem 16).toNat

/-- `msgLen` behind the two mandatory TLVs. -/
def optionalLength (mem : Nat → UInt8) : Int :=
  ushortAt mem 4 - 3 - ushortAt mem 7 - 3 - ushortAt mem 14

/-- `pMsg` behind the two mandatory TLVs. -/
def optionalStart (mem : Nat → UInt8) : Nat := 6 + 3 + ushortAt mem 7 + 3 + ushortAt mem 14

/-- The header and the versions of the mandatory TLV have been read. -/
def mandatory (mem : Nat → UInt8) (a : Adapter) : State :=
  let s : State := ((⟨a, [], [], [], []⟩ : State).read 4 2).read 9 2
  if qmiResult mem = 0 then
    forVersions (storeVersion mem) (((s.read 7 2).read 14 2).read 16 1) 17 (numElements mem)
  else s

/-- `MPQCTL_HandleGetVersionRsp` for the message at 0, with a walk given up after some turns. -/
def handleGetVersionRsp (mem : Nat → UInt8) (turns : Nat) (a : Adapter) : Option State :=
  let s := mandatory mem a
  if qmiResult mem = 0 then
    (Loop.run (optionalTurn mem) turns (s, optionalLength mem, optionalStart mem)).map conclude
  else some s.conclude

/-! ## What is wanted -/

/-- Every byte that was read is one of the `n`. -/
def State.Inside (n : Nat) (s : State) : Prop := ∀ r ∈ s.reads, r.1 + r.2 ≤ n

/-- What was indexed and copied lies in the arrays. -/
structure State.Bounded (s : State) : Prop where
  indices : ∀ i ∈ s.indices, i < arraySize
  labels : ∀ k ∈ s.labels, k ≤ arraySize

/-- The walk did not go on behind an unknown or over-long TLV. -/
def State.Stopped (s : State) : Prop := ∀ tlv ∈ s.tlvs.dropLast, tlv = .addendum

/-- The parser ends, and stays inside the `n` bytes of the message and inside its arrays. -/
def Contained (mem : Nat → UInt8) (n : Nat) (a : Adapter) : Prop :=
  ∃ turns s, handleGetVersionRsp mem turns a = some s ∧ s.Inside n ∧ s.Bounded ∧ s.Stopped

/-- Where the addendum at `p` ends, by its own counts. -/
def addendumEnd (mem : Nat → UInt8) (p : Nat) : Nat :=
  let instances := p + 4 + (mem (p + 3)).toNat
  instances + 1 + 5 * (mem instances).toNat

/-- In the `left` bytes from `p` there are addenda only, up to less than a TLV header, and each ends
inside the `n` bytes. -/
structure AddendaOnly (mem : Nat → UInt8) (n p left : Nat) : Prop where
  short : left < ((parse (slice mem p left)).map Item.size).sum + 3
  addenda : ∀ item ∈ parse (slice mem p left), item.type = 0x10
  inside : ∀ q ∈ starts p (parse (slice mem p left)), addendumEnd mem q ≤ n

/-- A message whose counts fit together. -/
structure InMessage (mem : Nat → UInt8) (n : Nat) : Prop where
  header : 11 ≤ n
  versions : qmiResult mem = 0 → 17 + 5 * numElements mem ≤ n
  optional : qmiResult mem = 0 → 0 ≤ optionalLength mem ∧
    AddendaOnly mem n (optionalStart mem) (optionalLength mem).toNat

/-! ## Reads -/

variable {mem : Nat → UInt8} {n p left : Nat} {s s' r : State} {m : Int} {a : Adapter}

theorem inside_read {k : Nat} : (s.read p k).Inside n ↔ s.Inside n ∧ p + k ≤ n := by
  unfold State.Inside State.read
  rw [List.forall_mem_append, List.forall_mem_singleton]

theorem State.Bounded.read (hs : s.Bounded) (p k : Nat) : (s.read p k).Bounded :=
  ⟨hs.indices, hs.labels⟩

/-- What a store does besides its write. -/
structure Stores (mem : Nat → UInt8) (store : State → Nat → State) : Prop where
  reads : ∀ s p, (store s p).reads = s.reads ++ [(p, 5)]
  indices : ∀ s p, (store s p).indices = s.indices ++ [(mem p).toNat]
  labels : ∀ s p, (store s p).labels = s.labels
  tlvs : ∀ s p, (store s p).tlvs = s.tlvs

theorem storeVersion_stores (mem : Nat → UInt8) : Stores mem (storeVersion mem) :=
  ⟨fun _ _ => rfl, fun _ _ => rfl, fun _ _ => rfl, fun _ _ => rfl⟩

theorem storeAddendum_stores (mem : Nat → UInt8) : Stores mem (storeAddendum mem) :=
  ⟨fun _ _ => rfl, fun _ _ => rfl, fun _ _ => rfl, fun _ _ => rfl⟩

theorem inside_forVersions {store : State → Nat → State} (h : Stores mem store) (s : State)
    (p k : Nat) :
    (forVersions store s p k).Inside n ↔ s.Inside n ∧ (k = 0 ∨ p + 5 * k ≤ n) := by
  induction k generalizing s p with
  | zero => simp [forVersions]
  | succ k ih =>
    have hfirst : (store s p).Inside n ↔ s.Inside n ∧ p + 5 ≤ n := by
      rw [← inside_read, State.Inside, State.Inside, h.reads]
      rfl
    rw [forVersions, ih, hfirst, and_assoc]
    refine and_congr_right fun _ => ?_
    omega

theorem bounded_forVersions {store : State → Nat → State} (h : Stores mem store) (hs : s.Bounded)
    (p k : Nat) : (forVersions store s p k).Bounded := by
  induction k generalizing s p with
  | zero => exact hs
  | succ k ih =>
    refine ih ⟨?_, ?_⟩ (p + 5)
    · rw [h.indices]
      refine List.forall_mem_append.mpr ⟨hs.indices, ?_⟩
      exact List.forall_mem_singleton.mpr (mem p).toNat_lt
    · rw [h.labels]
      exact hs.labels

theorem tlvs_forVersions {store : State → Nat → State} (h : Stores mem store) (s : State)
    (p k : Nat) : (forVersions store s p k).tlvs = s.tlvs := by
  induction k generalizing s p with
  | zero => rfl
  | succ k ih => rw [forVersions, ih, h.tlvs]

theorem inside_copyLabel :
    (s.copyLabel mem p).Inside n ↔
      (s.Inside n ∧ p + 3 + 1 ≤ n) ∧ p + 4 + (mem (p + 3)).toNat ≤ n := by
  rw [← inside_read, ← inside_read]
  rfl

/-- An addendum is read to the end that its counts give. -/
theorem inside_storeAddenda :
    (s.storeAddenda mem p).Inside n ↔ s.Inside n ∧ addendumEnd mem p ≤ n := by
  simp only [storeAddenda, inside_forVersions (storeAddendum_stores mem), inside_read,
    inside_copyLabel, addendumEnd, and_assoc]
  refine and_congr_right fun _ => ?_
  omega

theorem bounded_storeAddenda (hs : s.Bounded) (p : Nat) : (s.storeAddenda mem p).Bounded := by
  have hlabel : (s.copyLabel mem p).Bounded := by
    refine ⟨hs.indices, ?_⟩
    refine List.forall_mem_append.mpr ⟨hs.labels, List.forall_mem_singleton.mpr ?_⟩
    exact (mem (p + 3)).toNat_lt.le
  exact bounded_forVersions (storeAddendum_stores mem) (hlabel.read _ 1) _ _

theorem tlvs_storeAddenda (s : State) (p : Nat) : (s.storeAddenda mem p).tlvs = s.tlvs :=
  tlvs_forVersions (storeAddendum_stores mem) _ _ _

/-! ## The walk -/

/-- What was read before stays read, the arrays are kept, and the TLVs follow those found before. -/
structure Goes (n : Nat) (s s' : State) : Prop where
  inside : s'.Inside n → s.Inside n
  bounded : s.Bounded → s'.Bounded
  tlvs : s.tlvs <+: s'.tlvs

theorem Goes.refl (n : Nat) (s : State) : Goes n s s := ⟨id, id, List.prefix_rfl⟩

theorem Goes.trans (h : Goes n s s') (h' : Goes n s' r) : Goes n s r :=
  ⟨h.inside ∘ h'.inside, h'.bounded ∘ h.bounded, h.tlvs.trans h'.tlvs⟩

theorem optionalTurn_goes (n : Nat) {p' : Nat} {m' : Int}
    (h : optionalTurn mem (s, m, p) = .inr (s', m', p')) :
    Goes n s s' ∧ ∃ tlv, s'.tlvs = s.tlvs ++ [tlv] := by
  simp only [optionalTurn] at h
  split_ifs at h
  · cases h
    exact ⟨⟨fun hin => (inside_read.mp hin).1, fun hb => ⟨hb.indices, hb.labels⟩,
      List.prefix_append ..⟩, _, rfl⟩
  · cases h
    have htlvs : ((s.read p 3).storeAddenda mem p |>.found .addendum).tlvs = s.tlvs ++ [.addendum] :=
      congrArg (· ++ [OptionalTlv.addendum]) (tlvs_storeAddenda _ p)
    refine ⟨⟨fun hin => ?_, fun hb => ?_, ?_⟩, _, htlvs⟩
    · exact (inside_read.mp (inside_storeAddenda.mp hin).1).1
    · have hstored : ((s.read p 3).storeAddenda mem p).Bounded :=
        bounded_storeAddenda (hb.read p 3) p
      exact ⟨hstored.indices, hstored.labels⟩
    · rw [htlvs]
      exact List.prefix_append ..
  · cases h
    exact ⟨⟨fun hin => (inside_read.mp hin).1, fun hb => ⟨hb.indices, hb.labels⟩,
      List.prefix_append ..⟩, _, rfl⟩

theorem optionalTurn_inl (h : optionalTurn mem (s, m, p) = .inl r) : r = s := by
  simp only [optionalTurn] at h
  split_ifs at h
  cases h
  rfl

theorem returns_goes (n : Nat) (h : Loop.Returns (optionalTurn mem) (s, m, p) r) : Goes n s r := by
  obtain ⟨k, ⟨t, m', p'⟩, ht, hr⟩ := Loop.returns_iff_turn.mp h
  rw [optionalTurn_inl hr]
  refine Loop.turn_inv (P := fun u => Goes n s u.1) ?_ (Goes.refl n s) ht
  intro u u' hu hturn
  exact hu.trans (optionalTurn_goes n hturn).1

/-- A negative rest is a large unsigned one. -/
theorem optionalTurn_of_neg (mem : Nat → UInt8) (s : State) (p : Nat) (hneg : m < 0)
    (hmin : -2 ^ 31 ≤ m) : ∃ t, optionalTurn mem (s, m, p) = .inr t := by
  have hguard : 3 ≤ sizeT m := by
    unfold sizeT
    omega
  simp only [optionalTurn, if_pos hguard]
  split_ifs <;> exact ⟨_, rfl⟩

/-- With a negative rest the walk goes on behind the TLV that made it negative. -/
theorem not_stopped_of_neg (hneg : m < 0) (hmin : -2 ^ 31 ≤ m)
    (hbad : ∃ tlv ∈ s.tlvs, tlv ≠ .addendum)
    (h : Loop.Returns (optionalTurn mem) (s, m, p) r) : ¬ r.Stopped := by
  obtain ⟨⟨s', m', p'⟩, hturn⟩ := optionalTurn_of_neg mem s p hneg hmin
  obtain ⟨-, tlv, htlv⟩ := optionalTurn_goes 0 hturn
  obtain ⟨rest, hrest⟩ := (returns_goes 0 ((Loop.returns_iff_of_inr hturn).mp h)).tlvs
  obtain ⟨bad, hmem, hne⟩ := hbad
  intro hstopped
  refine hne (hstopped bad ?_)
  rw [← hrest, htlv, List.append_assoc, List.dropLast_append_of_ne_nil (by simp)]
  exact List.mem_append_left _ hmem

/-- A walk that starts with a negative rest does not stop where it should. -/
theorem not_stopped_start (hneg : m < 0) (hmin : -2 ^ 30 ≤ m)
    (h : Loop.Returns (optionalTurn mem) (s, m, p) r) : ¬ r.Stopped := by
  have hlen := lengthField_lt (mem (p + 1)) (mem (p + 2))
  have hguard : 3 ≤ sizeT m := by
    unfold sizeT
    omega
  by_cases htype : mem p = 0x10
  · have hbmod : (m - 3 - sizeAt mem p).bmod (2 ^ 32) = m - 3 - sizeAt mem p := by
      rw [Int.bmod_eq_of_le] <;> unfold sizeAt <;> omega
    have hless : m - 3 - sizeAt mem p < 0 := by omega
    have hturn : optionalTurn mem (s, m, p) =
        .inr ((s.read p 3).found .overLong, m - 3 - sizeAt mem p, p) := by
      simp only [optionalTurn, if_pos hguard, if_pos htype, hbmod, if_pos hless]
    refine not_stopped_of_neg hless ?_ ?_ ((Loop.returns_iff_of_inr hturn).mp h)
    · unfold sizeAt
      omega
    · exact ⟨.overLong, List.mem_append_right _ (List.mem_singleton_self _), by decide⟩
  · have hturn : optionalTurn mem (s, m, p) =
        .inr ((s.read p 3).found .unknown, -1, p + 3 + sizeAt mem p) := by
      simp only [optionalTurn, if_pos hguard, if_neg htype]
    refine not_stopped_of_neg (by decide) (by decide) ?_ ((Loop.returns_iff_of_inr hturn).mp h)
    exact ⟨.unknown, List.mem_append_right _ (List.mem_singleton_self _), by decide⟩

/-! ## Addenda -/

theorem addendaOnly_of_short (h : left < 3) : AddendaOnly mem n p left := by
  have hnil : parse (slice mem p left) = [] := parse_slice_malformed (by omega)
  constructor
  · simpa [hnil] using h
  · simp [hnil]
  · simp [hnil, starts]

/-- A TLV that does not fit is longer than what may be left. -/
theorem not_addendaOnly_of_malformed (h : 3 ≤ left) (hlong : left < 3 + sizeAt mem p) :
    ¬ AddendaOnly mem n p left := by
  intro haddenda
  have hshort := haddenda.short
  rw [parse_slice_malformed hlong] at hshort
  simp only [List.map_nil, List.sum_nil] at hshort
  omega

theorem addendaOnly_complete (h : 3 + sizeAt mem p ≤ left) :
    AddendaOnly mem n p left ↔ mem p = 0x10 ∧ addendumEnd mem p ≤ n ∧
      AddendaOnly mem n (p + 3 + sizeAt mem p) (left - (3 + sizeAt mem p)) := by
  have hparse := parse_slice_complete h
  rw [← Nat.add_assoc p] at hparse
  have hsize : (⟨mem p, slice mem (p + 3) (sizeAt mem p)⟩ : Item).size = 3 + sizeAt mem p := by
    rw [Item.size, slice_length]
  constructor
  · rintro ⟨hshort, haddenda, hinside⟩
    rw [hparse] at hshort haddenda hinside
    rw [List.map_cons, List.sum_cons, hsize] at hshort
    rw [starts, hsize, ← Nat.add_assoc p] at hinside
    obtain ⟨htype, hrest⟩ := List.forall_mem_cons.mp haddenda
    obtain ⟨hend, hinside⟩ := List.forall_mem_cons.mp hinside
    exact ⟨htype, hend, by omega, hrest, hinside⟩
  · rintro ⟨htype, hend, hshort, hrest, hinside⟩
    constructor
    · rw [hparse, List.map_cons, List.sum_cons, hsize]
      omega
    · rw [hparse]
      exact List.forall_mem_cons.mpr ⟨htype, hrest⟩
    · rw [hparse, starts, hsize, ← Nat.add_assoc p]
      exact List.forall_mem_cons.mpr ⟨hend, hinside⟩

/-- The walk ends well exactly over addenda that lie inside the message. -/
theorem walk_iff (hleft : left < 2 ^ 16) (hinside : s.Inside n) (hbounded : s.Bounded)
    (htlvs : ∀ tlv ∈ s.tlvs, tlv = .addendum) :
    (∃ r, Loop.Returns (optionalTurn mem) (s, left, p) r ∧ r.Inside n ∧ r.Bounded ∧ r.Stopped) ↔
      AddendaOnly mem n p left := by
  induction left using Nat.strong_induction_on generalizing s p with
  | h left ih =>
    have hsizeT : sizeT left = left := sizeT_natCast (by omega)
    by_cases hshort : left < 3
    · have hturn : optionalTurn mem (s, left, p) = .inl s := by
        simp only [optionalTurn, hsizeT, if_neg (Nat.not_le.mpr hshort)]
      refine iff_of_true ⟨s, Loop.returns_of_inl hturn, hinside, hbounded, ?_⟩
        (addendaOnly_of_short hshort)
      exact fun tlv hmem => htlvs tlv (List.mem_of_mem_dropLast hmem)
    have hguard : 3 ≤ sizeT left := by omega
    by_cases htype : mem p = 0x10
    · have hlen := lengthField_lt (mem (p + 1)) (mem (p + 2))
      have hbmod : ((left : Int) - 3 - sizeAt mem p).bmod (2 ^ 32) = left - 3 - sizeAt mem p := by
        rw [Int.bmod_eq_of_le] <;> unfold sizeAt <;> omega
      rcases Nat.lt_or_ge left (3 + sizeAt mem p) with hlong | hfits
      · -- an over-long addendum
        have hless : (left : Int) - 3 - sizeAt mem p < 0 := by omega
        have hturn : optionalTurn mem (s, left, p) =
            .inr ((s.read p 3).found .overLong, left - 3 - sizeAt mem p, p) := by
          simp only [optionalTurn, if_pos hguard, if_pos htype, hbmod, if_pos hless]
        refine iff_of_false ?_ (not_addendaOnly_of_malformed (by omega) hlong)
        rintro ⟨r, hr, -, -, hstopped⟩
        refine not_stopped_of_neg hless ?_ ?_ ((Loop.returns_iff_of_inr hturn).mp hr) hstopped
        · unfold sizeAt
          omega
        · exact ⟨.overLong, List.mem_append_right _ (List.mem_singleton_self _), by decide⟩
      · have hrest : (left : Int) - 3 - sizeAt mem p = (left - (3 + sizeAt mem p) : Nat) := by
          omega
        have hnonneg : ¬ ((left - (3 + sizeAt mem p) : Nat) : Int) < 0 := by omega
        have hturn : optionalTurn mem (s, left, p) =
            .inr (((s.read p 3).storeAddenda mem p).found .addendum,
              (left - (3 + sizeAt mem p) : Nat), p + 3 + sizeAt mem p) := by
          rw [hrest] at hbmod
          simp only [optionalTurn, if_pos hguard, if_pos htype, hrest, hbmod, if_neg hnonneg]
        obtain ⟨hgoes, -⟩ := optionalTurn_goes n hturn
        rw [addendaOnly_complete hfits]
        simp only [Loop.returns_iff_of_inr hturn, htype, true_and]
        by_cases hend : addendumEnd mem p ≤ n
        · have hheader : p + 3 ≤ n := by
            simp only [addendumEnd] at hend
            omega
          have hinside' : (((s.read p 3).storeAddenda mem p).found .addendum).Inside n :=
            inside_storeAddenda.mpr ⟨inside_read.mpr ⟨hinside, hheader⟩, hend⟩
          have htlvs' : ∀ tlv ∈ (((s.read p 3).storeAddenda mem p).found .addendum).tlvs,
              tlv = .addendum := by
            have heq : (((s.read p 3).storeAddenda mem p).found .addendum).tlvs =
                s.tlvs ++ [.addendum] := congrArg (· ++ _) (tlvs_storeAddenda _ p)
            rw [heq]
            exact List.forall_mem_append.mpr ⟨htlvs, List.forall_mem_singleton.mpr rfl⟩
          rw [and_iff_right hend]
          exact ih _ (by omega) (by omega) hinside' (hgoes.bounded hbounded) htlvs'
        · refine iff_of_false ?_ fun hall => hend hall.1
          rintro ⟨r, hr, hin, -, -⟩
          have hstored := (returns_goes n hr).inside hin
          exact hend (inside_storeAddenda.mp hstored).2
    · -- an unknown TLV
      have hturn : optionalTurn mem (s, left, p) =
          .inr ((s.read p 3).found .unknown, -1, p + 3 + sizeAt mem p) := by
        simp only [optionalTurn, if_pos hguard, if_neg htype]
      refine iff_of_false ?_ fun haddenda => ?_
      · rintro ⟨r, hr, -, -, hstopped⟩
        refine not_stopped_of_neg (by decide) (by decide) ?_
          ((Loop.returns_iff_of_inr hturn).mp hr) hstopped
        exact ⟨.unknown, List.mem_append_right _ (List.mem_singleton_self _), by decide⟩
      · rcases Nat.lt_or_ge left (3 + sizeAt mem p) with hlong | hfits
        · exact not_addendaOnly_of_malformed (by omega) hlong haddenda
        · exact htype ((addendaOnly_complete hfits).mp haddenda).1

/-! ## The message -/

theorem inside_mandatory :
    (mandatory mem a).Inside n ↔
      11 ≤ n ∧ (qmiResult mem = 0 → 17 + 5 * numElements mem ≤ n) := by
  have hstart : (⟨a, [], [], [], []⟩ : State).Inside n := by simp [State.Inside]
  unfold mandatory
  split_ifs with hresult
  · simp only [inside_forVersions (storeVersion_stores mem), inside_read, hstart, hresult,
      true_and, true_imp_iff]
    omega
  · simp only [inside_read, hstart, hresult, false_imp_iff, true_and, and_true]
    omega

theorem bounded_mandatory : (mandatory mem a).Bounded := by
  have hstart : (⟨a, [], [], [], []⟩ : State).Bounded := by
    constructor <;> exact fun _ hmem => absurd hmem List.not_mem_nil
  have hresult := (hstart.read 4 2).read 9 2
  unfold mandatory
  split_ifs
  · exact bounded_forVersions (storeVersion_stores mem)
      (((hresult.read 7 2).read 14 2).read 16 1) _ _
  · exact hresult

theorem tlvs_mandatory : (mandatory mem a).tlvs = [] := by
  unfold mandatory
  split_ifs
  · rw [tlvs_forVersions (storeVersion_stores mem)]
    rfl
  · rfl

theorem ushortAt_lt (mem : Nat → UInt8) (p : Nat) : ushortAt mem p < 65536 := lengthField_lt _ _

theorem contained_of_success (hresult : qmiResult mem = 0) :
    Contained mem n a ↔ ∃ r, Loop.Returns (optionalTurn mem)
      (mandatory mem a, optionalLength mem, optionalStart mem) r ∧
        r.Inside n ∧ r.Bounded ∧ r.Stopped := by
  constructor
  · rintro ⟨turns, s, hs, hin, hbounded, hstopped⟩
    simp only [handleGetVersionRsp, if_pos hresult] at hs
    obtain ⟨r, hr, rfl⟩ := Option.map_eq_some_iff.mp hs
    exact ⟨r, ⟨turns, hr⟩, hin, ⟨hbounded.indices, hbounded.labels⟩, hstopped⟩
  · rintro ⟨r, ⟨turns, hr⟩, hin, hbounded, hstopped⟩
    refine ⟨turns, r.conclude, ?_, hin, ⟨hbounded.indices, hbounded.labels⟩, hstopped⟩
    simp only [handleGetVersionRsp, if_pos hresult, hr, Option.map_some]

/-- The parser ends inside the message exactly if the device refused, or the counts of its answer fit
together. -/
theorem contained_iff (mem : Nat → UInt8) (n : Nat) (a : Adapter) :
    Contained mem n a ↔ InMessage mem n := by
  by_cases hresult : qmiResult mem = 0
  · rw [contained_of_success hresult]
    have hlength := ushortAt_lt mem 4
    have hfirst := ushortAt_lt mem 7
    have hsecond := ushortAt_lt mem 14
    constructor
    · rintro ⟨r, hr, hin, hbounded, hstopped⟩
      have hmandatory : (mandatory mem a).Inside n := (returns_goes n hr).inside hin
      obtain ⟨hheader, hversions⟩ := inside_mandatory.mp hmandatory
      have hnonneg : 0 ≤ optionalLength mem := by
        by_contra hneg
        refine not_stopped_start (Int.not_le.mp hneg) ?_ hr hstopped
        unfold optionalLength
        omega
      obtain ⟨left, hleft⟩ := Int.eq_ofNat_of_zero_le hnonneg
      refine ⟨hheader, hversions, fun _ => ⟨hnonneg, ?_⟩⟩
      rw [hleft, Int.toNat_natCast]
      rw [hleft] at hr
      refine (walk_iff ?_ hmandatory bounded_mandatory ?_).mp ⟨r, hr, hin, hbounded, hstopped⟩
      · unfold optionalLength at hleft
        omega
      · rw [tlvs_mandatory]
        exact fun _ hmem => absurd hmem List.not_mem_nil
    · intro hmessage
      obtain ⟨hnonneg, haddenda⟩ := hmessage.optional hresult
      obtain ⟨left, hleft⟩ := Int.eq_ofNat_of_zero_le hnonneg
      rw [hleft, Int.toNat_natCast] at haddenda
      rw [hleft]
      refine (walk_iff ?_ ?_ bounded_mandatory ?_).mpr haddenda
      · unfold optionalLength at hleft
        omega
      · exact inside_mandatory.mpr ⟨hmessage.header, hmessage.versions⟩
      · rw [tlvs_mandatory]
        exact fun _ hmem => absurd hmem List.not_mem_nil
  · have heq (turns : Nat) : handleGetVersionRsp mem turns a = some (mandatory mem a).conclude := by
      simp only [handleGetVersionRsp, if_neg hresult]
    have hstops : (mandatory mem a).conclude.Stopped := by
      intro tlv hmem
      have htlvs : (mandatory mem a).conclude.tlvs = [] := tlvs_mandatory
      rw [htlvs] at hmem
      cases hmem
    have hbounded : (mandatory mem a).conclude.Bounded :=
      ⟨bounded_mandatory.indices, bounded_mandatory.labels⟩
    constructor
    · rintro ⟨turns, s, hs, hin, -, -⟩
      rw [heq] at hs
      cases hs
      obtain ⟨hheader, hversions⟩ := inside_mandatory.mp hin
      exact ⟨hheader, hversions, fun h => absurd h hresult⟩
    · intro hmessage
      have hin : (mandatory mem a).Inside n :=
        inside_mandatory.mpr ⟨hmessage.header, hmessage.versions⟩
      exact ⟨0, _, heq 0, hin, hbounded, hstops⟩

/-- A response with no versions and one optional TLV of an unknown type without a value. -/
def unknownTlv : Nat → UInt8 := fun i => [2, 1, 0x21, 0, 14, 0, 2, 4, 0, 0, 0, 0, 0, 1, 1, 0, 0, 0x11,
  0, 0].getD i 0

def freshAdapter : Adapter :=
  ⟨fun _ => ⟨0, 0, 0, 0⟩, fun _ => 0, 0, false, false, false, false, false, false, false, 1, 1, 1, 1,
    false⟩

theorem not_contained_unknown : ¬ Contained unknownTlv 20 freshAdapter := by
  rw [contained_iff]
  intro hmessage
  have haddenda := (hmessage.optional (by decide)).2.addenda
  revert haddenda
  decide +kernel

end Ndis.GetVersionRsp
