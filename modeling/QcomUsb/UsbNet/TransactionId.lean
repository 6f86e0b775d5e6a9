-- SUMMARY: The transaction counter of a QMI device, which shares a 32-bit word with the mux id.
import QcomUsb.UsbNet.Device

/-!
# Transaction ids

`mQMITransactionID` and `MuxId` are adjacent 16-bit fields of `sQMIDev`.
`GetTransactionID` increments the first through an `atomic_t` pointer, so the carry of
its wrap goes into the second.
-/

namespace UsbNet

/-- The two fields of `sQMIDev` that `GetTransactionID` touches. -/
structure SQMIDev where
  mQMITransactionID : UInt16
  muxId : UInt16
  deriving DecidableEq, Repr

namespace SQMIDev

/-- The 32-bit word at `&mQMITransactionID`. -/
def word (d : SQMIDev) : Nat := d.mQMITransactionID.toNat + 65536 * d.muxId.toNat

def ofWord (w : Nat) : SQMIDev := ⟨UInt16.ofNat w, UInt16.ofNat (w / 65536)⟩

end SQMIDev

/-- `atomic_add_return(1, (atomic_t *)&QMIDev->mQMITransactionID)`, assigned to an
`unsigned short`. -/
def atomicAddReturn (d : SQMIDev) : UInt16 × SQMIDev :=
  let d' := SQMIDev.ofWord ((d.word + 1) % 2 ^ 32)
  (d'.mQMITransactionID, d')

/-- `GetTransactionID`. -/
def getTransactionID (d : SQMIDev) : UInt16 × SQMIDev :=
  let r := atomicAddReturn d
  if r.1 = 0 then atomicAddReturn r.2 else r

/-- The device after `k` calls of `GetTransactionID`. -/
def afterCalls (d : SQMIDev) : Nat → SQMIDev
  | 0 => d
  | k + 1 => (getTransactionID (afterCalls d k)).2

/-- The id that the call number `k` returns, counted from 0. -/
def returnedID (d : SQMIDev) (k : Nat) : UInt16 := (getTransactionID (afterCalls d k)).1

/-! ## The readers of the mux id -/

/-- `QMIDev->MuxId - 0x81`, held in an unsigned variable of `width` bits. -/
def muxIndex (width : Nat) (d : SQMIDev) : Nat := (d.muxId.toNat + 2 ^ width - 0x81) % 2 ^ width

/-- The adapter an index stands for. -/
def resolveMux (index : Nat) : Option NetDev :=
  if h0 : index = 0 then some .mpNetDev
  else if h : index ≤ maxMuxDevices then some (.mpNetMUXDev ⟨index - 1, by omega⟩)
  else none

/-- The adapter whose device file `UserspaceOpen` opens. `none` is `-ENXIO`. -/
def userspaceOpenDev (d : SQMIDev) : Option NetDev := resolveMux (muxIndex 16 d)

/-- The adapter `QMIIPAssignment` configures. -/
def qmiIPAssignmentDev (d : SQMIDev) : Option NetDev := resolveMux (muxIndex 32 d)

/-- The adapter `QMIWDSGetPktSrvcStatusInd` reports to. -/
def qmiWDSGetPktSrvcStatusIndDev (d : SQMIDev) : Option NetDev := resolveMux (muxIndex 32 d)

/-- The fields as `RegisterQMIDevice` leaves them: `sGobiUSBNet` is zeroed when it is
allocated. -/
def registerQMIDevice (dev : NetDev) : SQMIDev := ⟨0, UInt16.ofNat dev.data1⟩

/-- The device is still the one it was. -/
structure SameIdentity (d d' : SQMIDev) : Prop where
  muxId : d'.muxId = d.muxId
  userspaceOpen : userspaceOpenDev d' = userspaceOpenDev d
  ipAssignment : qmiIPAssignmentDev d' = qmiIPAssignmentDev d
  pktSrvcStatus : qmiWDSGetPktSrvcStatusIndDev d' = qmiWDSGetPktSrvcStatusIndDev d

/-- All readers go by the mux id alone. -/
theorem SameIdentity.of_muxId {d d' : SQMIDev} (h : d'.muxId = d.muxId) : SameIdentity d d' := by
  have hindex (width : Nat) : muxIndex width d' = muxIndex width d := by simp [muxIndex, h]
  exact ⟨h, by simp [userspaceOpenDev, hindex], by simp [qmiIPAssignmentDev, hindex],
    by simp [qmiWDSGetPktSrvcStatusIndDev, hindex]⟩

/-! ## One call -/

theorem SQMIDev.ofWord_word (t m : UInt16) : ofWord (t.toNat + 65536 * m.toNat) = ⟨t, m⟩ := by
  have ht := t.toNat_lt
  have hm := m.toNat_lt
  have hlow : UInt16.ofNat (t.toNat + 65536 * m.toNat) = t := by
    apply UInt16.toNat.inj
    rw [UInt16.toNat_ofNat']
    omega
  have hhigh : UInt16.ofNat ((t.toNat + 65536 * m.toNat) / 65536) = m := by
    apply UInt16.toNat.inj
    rw [UInt16.toNat_ofNat']
    omega
  rw [ofWord, hlow, hhigh]

theorem atomicAddReturn_no_carry {d : SQMIDev} (h : d.mQMITransactionID.toNat ≠ 65535) :
    atomicAddReturn d = (d.mQMITransactionID + 1, ⟨d.mQMITransactionID + 1, d.muxId⟩) := by
  have ht := d.mQMITransactionID.toNat_lt
  have hm := d.muxId.toNat_lt
  have hsucc : (d.mQMITransactionID + 1).toNat = d.mQMITransactionID.toNat + 1 := by
    rw [UInt16.toNat_add, UInt16.toNat_one]
    omega
  have hword : (d.word + 1) % 2 ^ 32 =
      (d.mQMITransactionID + 1).toNat + 65536 * d.muxId.toNat := by
    rw [hsucc, SQMIDev.word]
    omega
  rw [atomicAddReturn, hword, SQMIDev.ofWord_word]

/-- The carry of the wrap goes into the mux id. -/
theorem atomicAddReturn_carry {d : SQMIDev} (h : d.mQMITransactionID.toNat = 65535) :
    atomicAddReturn d = (0, ⟨0, d.muxId + 1⟩) := by
  have hm := d.muxId.toNat_lt
  have hsucc : (d.muxId + 1).toNat = (d.muxId.toNat + 1) % 2 ^ 16 := by
    rw [UInt16.toNat_add, UInt16.toNat_one]
  have hword : (d.word + 1) % 2 ^ 32 = (0 : UInt16).toNat + 65536 * (d.muxId + 1).toNat := by
    rw [hsucc, UInt16.toNat_zero, SQMIDev.word]
    omega
  rw [atomicAddReturn, hword, SQMIDev.ofWord_word]

/-- The successor of a transaction id: 0 is skipped. -/
def nextTransactionID (t : UInt16) : UInt16 := if t.toNat = 65535 then 1 else t + 1

theorem nextTransactionID_ne_zero (t : UInt16) : nextTransactionID t ≠ 0 := by
  unfold nextTransactionID
  split
  · decide
  · rename_i h
    intro h0
    have := congrArg UInt16.toNat h0
    have ht := t.toNat_lt
    rw [UInt16.toNat_add, UInt16.toNat_one, UInt16.toNat_zero] at this
    omega

theorem getTransactionID_eq (d : SQMIDev) :
    getTransactionID d = (nextTransactionID d.mQMITransactionID,
      ⟨nextTransactionID d.mQMITransactionID,
        if d.mQMITransactionID.toNat = 65535 then d.muxId + 1 else d.muxId⟩) := by
  unfold getTransactionID
  by_cases h : d.mQMITransactionID.toNat = 65535
  · have hagain : (⟨0, d.muxId + 1⟩ : SQMIDev).mQMITransactionID.toNat ≠ 65535 := by
      simp
    rw [atomicAddReturn_carry h, if_pos rfl, atomicAddReturn_no_carry hagain]
    simp [nextTransactionID, h]
  · have hne : d.mQMITransactionID + 1 ≠ 0 := by
      have := nextTransactionID_ne_zero d.mQMITransactionID
      rwa [nextTransactionID, if_neg h] at this
    rw [atomicAddReturn_no_carry h, if_neg hne]
    simp [nextTransactionID, h]

/-! ## Many calls -/

/-- No id is 0, wrapped or not. -/
theorem returnedID_ne_zero (d : SQMIDev) (k : Nat) : returnedID d k ≠ 0 := by
  rw [returnedID, getTransactionID_eq]
  exact nextTransactionID_ne_zero _

/-- Up to the wrap the counter counts and the mux id stays. -/
theorem afterCalls_no_wrap {d : SQMIDev} {k : Nat} (h : d.mQMITransactionID.toNat + k ≤ 65535) :
    (afterCalls d k).mQMITransactionID.toNat = d.mQMITransactionID.toNat + k ∧
      (afterCalls d k).muxId = d.muxId := by
  induction k with
  | zero => exact ⟨rfl, rfl⟩
  | succ k ih =>
    obtain ⟨htid, hmux⟩ := ih (by omega)
    have hlt : (afterCalls d k).mQMITransactionID.toNat ≠ 65535 := by omega
    have hnext : nextTransactionID (afterCalls d k).mQMITransactionID =
        (afterCalls d k).mQMITransactionID + 1 := if_neg hlt
    rw [afterCalls, getTransactionID_eq, hnext]
    constructor
    · simp only [UInt16.toNat_add, UInt16.toNat_one]
      omega
    · simp only [if_neg hlt, hmux]

/-- The call that wraps moves the device to the next mux id. -/
theorem afterCalls_wrap {d : SQMIDev} {k : Nat} (h : d.mQMITransactionID.toNat + k = 65535) :
    (afterCalls d (k + 1)).muxId = d.muxId + 1 := by
  obtain ⟨htid, hmux⟩ := afterCalls_no_wrap (Nat.le_of_eq h)
  rw [afterCalls, getTransactionID_eq]
  simp only [htid, h, if_true, hmux]

/-- Over `k` calls every id is non-zero and the device stays the one it was. -/
def IdentityKept (d : SQMIDev) (k : Nat) : Prop :=
  (∀ j < k, returnedID d j ≠ 0) ∧ ∀ j ≤ k, SameIdentity d (afterCalls d j)

/-- A device keeps its identity exactly until its counter wraps. -/
theorem identityKept_iff (d : SQMIDev) (k : Nat) :
    IdentityKept d k ↔ d.mQMITransactionID.toNat + k ≤ 65535 := by
  have ht := d.mQMITransactionID.toNat_lt
  constructor
  · rintro ⟨-, hsame⟩
    by_contra hwrap
    obtain ⟨j, hj⟩ : ∃ j, d.mQMITransactionID.toNat + j = 65535 :=
      ⟨65535 - d.mQMITransactionID.toNat, by omega⟩
    have hmux := (hsame (j + 1) (by omega)).muxId
    rw [afterCalls_wrap hj] at hmux
    simp at hmux
  · intro hle
    refine ⟨fun j _ => returnedID_ne_zero d j, fun j hj => ?_⟩
    exact .of_muxId (afterCalls_no_wrap (by omega)).2

/-- After 65536 calls the primary device answers to the mux id of the first multiplexed
one. -/
theorem primary_loses_identity :
    ¬ IdentityKept (registerQMIDevice .mpNetDev) 65536 ∧
      userspaceOpenDev (afterCalls (registerQMIDevice .mpNetDev) 65536) =
        some (.mpNetMUXDev 0) := by
  have hmux : (afterCalls (registerQMIDevice .mpNetDev) 65536).muxId = 0x82 :=
    afterCalls_wrap (d := registerQMIDevice .mpNetDev) rfl
  constructor
  · rintro ⟨-, hsame⟩
    have := (hsame 65536 (Nat.le_refl _)).muxId
    rw [hmux] at this
    exact absurd this (by decide)
  · rw [userspaceOpenDev, muxIndex, hmux]
    decide

end UsbNet
