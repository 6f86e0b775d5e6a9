-- SUMMARY: The user's writes to a QMI device: the length fields of the request they submit.
import QcomUsb.UsbNet.Release

/-!
# User writes

`UserspaceWrite` and `UserspaceWriteIter` put a QMUX header in front of the user's bytes and
hand them to the control endpoint. The size runs through `size_t`, `int` and `u16` on its
way into the QMUX header, the setup packet and the URB.
-/

namespace UsbNet

/-- `EBADR`. -/
def Errno.EBADR : Int := 53

/-- `sQMUX`. -/
structure SQMUX where
  mTF : UInt8
  mLength : UInt16
  mCtrlFlag : UInt8
  mQMIService : UInt8
  mQMIClientID : UInt8
  deriving DecidableEq, Repr

/-- The header as it lies in memory. -/
def SQMUX.toBytes (h : SQMUX) : List UInt8 :=
  [h.mTF] ++ le16 h.mLength ++ [h.mCtrlFlag, h.mQMIService, h.mQMIClientID]

/-- The header that `FillQMUX` writes. `none` is `-ENOMEM`. -/
def fillQMUXHeader (clientID buffSize : UInt16) : Option SQMUX :=
  if buffSize < 6 then none
  else some ⟨1, buffSize - 1, 0, lowByte clientID, highByte clientID⟩

/-- `sURBSetupPacket`. -/
structure SURBSetupPacket where
  mRequestType : UInt8
  mRequestCode : UInt8
  mValue : UInt16
  mIndex : UInt16
  mLength : UInt16
  deriving DecidableEq, Repr

/-- The control URB of a write. The transfer length is a `u32`. -/
structure WriteURB where
  qmux : SQMUX
  setup : SURBSetupPacket
  transferBufferLength : UInt32
  deriving DecidableEq, Repr

/-- A write ends with a status, or it comes to `usb_submit_urb`. -/
inductive WriteResult where
  | rejected (status : Int)
  | submitted (urb : WriteURB)
  deriving DecidableEq, Repr

/-- What a write meets up to its submission: the file and its device, the allocations, the
copy from the user, and the result of `usb_autopm_get_interface` and of `AddToURBList`. -/
structure WriteEnv where
  deviceValid : Bool
  mbQMIReadyStatus : Bool
  mClientID : UInt16
  mIntfNum : UInt16
  isSyncKiocb : Bool
  aioDataCtx : Bool
  kzalloc : UInt64 → Bool
  copyFromUser : Int
  copyFromIter : Bool
  pWriteURB : Bool
  writeSetup : Bool
  resume : Int
  addToURBList : Bool

/-- `WriteSync` and `WriteAsync` up to `usb_submit_urb`. The size is an `int`, given by its
32 bits. -/
def prepareWrite (env : WriteEnv) (writeBufferSize : UInt32) : WriteResult :=
  if env.deviceValid = false then .rejected (-Errno.ENXIO)
  else if env.pWriteURB = false then .rejected (-Errno.ENOMEM)
  else
    match fillQMUXHeader env.mClientID writeBufferSize.toUInt16 with
    | none => .rejected (-Errno.ENOMEM)
    | some qmux =>
      if env.writeSetup = false then .rejected (-Errno.ENOMEM)
      else if env.resume < 0 then .rejected env.resume
      else if env.addToURBList = false then .rejected (-Errno.EINVAL)
      else
        .submitted
          { qmux
            setup := ⟨0x21, 0, 0, env.mIntfNum, writeBufferSize.toUInt16⟩
            transferBufferLength := writeBufferSize }

/-- What both entry points check first. -/
def checkFile (env : WriteEnv) : Option Int :=
  if env.deviceValid = false then some (-Errno.ENXIO)
  else if env.mbQMIReadyStatus = false then some (-Errno.ENXIO)
  else if env.mClientID = 0xFFFF then some (-Errno.EBADR)
  else none

/-- `UserspaceWrite`. -/
def userspaceWrite (env : WriteEnv) (size : UInt64) : WriteResult :=
  match checkFile env with
  | some status => .rejected status
  | none =>
    if env.kzalloc (size + 6) = false then .rejected (-Errno.ENOMEM)
    else if env.copyFromUser ≠ 0 then .rejected env.copyFromUser
    else prepareWrite env (size + 6).toUInt32

/-- An `int`, given by its bits, as a `size_t`. -/
def intToSizeT (x : UInt32) : UInt64 := x.toInt32.toInt64.toUInt64

/-- `UserspaceWriteIter`, where the size of the iterator is kept in an `int`. -/
def userspaceWriteIter (env : WriteEnv) (iovIterCount : UInt64) : WriteResult :=
  match checkFile env with
  | some status => .rejected status
  | none =>
    if env.isSyncKiocb then .rejected (-Errno.EINVAL)
    else if env.aioDataCtx = false then .rejected (-Errno.ENOMEM)
    else
      let size := iovIterCount.toUInt32
      if env.kzalloc (intToSizeT (size + 6)) = false then .rejected (-Errno.ENOMEM)
      else if env.copyFromIter = false then .rejected (-Errno.EINVAL)
      else prepareWrite env (size + 6)

/-! ## Lengths -/

/-- The three length fields say how many bytes there are, or nothing is submitted. -/
def LengthsMatch (size : UInt64) : WriteResult → Prop
  | .rejected _ => True
  | .submitted urb =>
    urb.qmux.mLength.toNat + 1 = size.toNat + 6 ∧ urb.setup.mLength.toNat = size.toNat + 6 ∧
      urb.transferBufferLength.toNat = size.toNat + 6

/-- The size with the header in 16 bits, or so long that 16 bits show less than a header. -/
def SizeFits (size : UInt64) : Prop :=
  size.toNat + 6 < 65536 ∨ (size.toNat + 6) % 65536 < 6

variable {env : WriteEnv} {size : UInt64} {n : UInt32}

/-- What `FillQMUX` refuses, and what it writes. -/
theorem fillQMUXHeader_cases (clientID buffSize : UInt16) :
    (buffSize.toNat < 6 ∧ fillQMUXHeader clientID buffSize = none) ∨
      (6 ≤ buffSize.toNat ∧ ∃ h, fillQMUXHeader clientID buffSize = some h ∧
        h.mLength.toNat + 1 = buffSize.toNat) := by
  unfold fillQMUXHeader
  rcases Nat.lt_or_ge buffSize.toNat 6 with hlt | hge
  · exact .inl ⟨hlt, if_pos hlt⟩
  · refine .inr ⟨hge, _, if_neg (Nat.not_lt.mpr hge), ?_⟩
    have hle : (1 : UInt16) ≤ buffSize := Nat.le_trans (by decide) hge
    simp only [UInt16.toNat_sub_of_le _ _ hle]
    exact Nat.sub_add_cancel (Nat.le_trans (by decide) hge)

/-- The lengths match as soon as the size fits. -/
theorem prepareWrite_lengthsMatch (hn : n.toNat = (size.toNat + 6) % 2 ^ 32)
    (hfits : SizeFits size) : LengthsMatch size (prepareWrite env n) := by
  have h16 : n.toUInt16.toNat = (size.toNat + 6) % 65536 := by
    rw [UInt32.toNat_toUInt16, hn]
    omega
  unfold prepareWrite
  obtain ⟨-, hnone⟩ | ⟨hge, h, hsome, hlength⟩ := fillQMUXHeader_cases env.mClientID n.toUInt16
  · rw [hnone]
    split_ifs <;> exact trivial
  · have hsmall : size.toNat + 6 < 65536 := hfits.resolve_right (by omega)
    rw [hsome]
    dsimp only
    split_ifs
    any_goals exact trivial
    refine ⟨?_, ?_, ?_⟩
    · simp only [hlength, h16]
      omega
    · simp only [h16]
      omega
    · simp only [hn]
      omega

/-- An environment in which nothing but the size stops a write. -/
def willing (kzalloc : UInt64 → Bool) : WriteEnv where
  deviceValid := true
  mbQMIReadyStatus := true
  mClientID := 1
  mIntfNum := 0
  isSyncKiocb := false
  aioDataCtx := true
  kzalloc := kzalloc
  copyFromUser := 0
  copyFromIter := true
  pWriteURB := true
  writeSetup := true
  resume := 0
  addToURBList := true

/-- There a submission needs a size that fits. -/
theorem sizeFits_of_lengthsMatch (kzalloc : UInt64 → Bool)
    (hn : n.toNat = (size.toNat + 6) % 2 ^ 32)
    (h : LengthsMatch size (prepareWrite (willing kzalloc) n)) : SizeFits size := by
  have h16 : n.toUInt16.toNat = (size.toNat + 6) % 65536 := by
    rw [UInt32.toNat_toUInt16, hn]
    omega
  obtain ⟨hlt, -⟩ | ⟨-, hdr, hsome, hlength⟩ :=
    fillQMUXHeader_cases (willing kzalloc).mClientID n.toUInt16
  · exact .inr (h16 ▸ hlt)
  · left
    rw [prepareWrite, hsome] at h
    have hsetup : n.toUInt16.toNat = size.toNat + 6 := h.2.1
    omega

theorem add_toUInt32_toNat (size : UInt64) :
    (size + 6).toUInt32.toNat = (size.toNat + 6) % 2 ^ 32 := by
  rw [UInt64.toNat_toUInt32, UInt64.toNat_add]
  have h6 : (6 : UInt64).toNat = 6 := rfl
  omega

theorem toUInt32_add_toNat (size : UInt64) :
    (size.toUInt32 + 6).toNat = (size.toNat + 6) % 2 ^ 32 := by
  rw [UInt32.toNat_add, UInt64.toNat_toUInt32]
  have h6 : (6 : UInt32).toNat = 6 := rfl
  omega

theorem userspaceWrite_lengthsMatch (env : WriteEnv)
    (h : SizeFits size ∨ env.kzalloc (size + 6) = false) :
    LengthsMatch size (userspaceWrite env size) := by
  unfold userspaceWrite
  split
  · exact trivial
  · split_ifs with halloc
    · exact trivial
    · exact trivial
    · exact prepareWrite_lengthsMatch (add_toUInt32_toNat size) (h.resolve_right halloc)

theorem userspaceWriteIter_lengthsMatch (env : WriteEnv)
    (h : SizeFits size ∨ env.kzalloc (intToSizeT (size.toUInt32 + 6)) = false) :
    LengthsMatch size (userspaceWriteIter env size) := by
  unfold userspaceWriteIter
  split
  · exact trivial
  · dsimp only
    split_ifs with _ _ halloc
    any_goals exact trivial
    exact prepareWrite_lengthsMatch (toUInt32_add_toNat size) (h.resolve_right halloc)

/-- Whatever else a write meets, its length fields match exactly for the sizes that fit, or
when there is no memory for the buffer. -/
theorem lengthsMatch_iff (kzalloc : UInt64 → Bool) (size : UInt64) :
    (∀ env, env.kzalloc = kzalloc →
      LengthsMatch size (userspaceWrite env size) ∧
        LengthsMatch size (userspaceWriteIter env size)) ↔
    SizeFits size ∨
      kzalloc (size + 6) = false ∧ kzalloc (intToSizeT (size.toUInt32 + 6)) = false := by
  constructor
  · intro hall
    obtain ⟨hwrite, hiter⟩ := hall (willing kzalloc) rfl
    by_cases hfits : SizeFits size
    · exact .inl hfits
    · -- a size that does not fit is submitted as soon as there is memory for it
      refine .inr ⟨?_, ?_⟩
      · by_contra halloc
        refine hfits (sizeFits_of_lengthsMatch kzalloc (add_toUInt32_toNat size) ?_)
        have hrun : userspaceWrite (willing kzalloc) size =
            prepareWrite (willing kzalloc) (size + 6).toUInt32 := by
          simp [userspaceWrite, checkFile, willing, halloc]
        exact hrun ▸ hwrite
      · by_contra halloc
        refine hfits (sizeFits_of_lengthsMatch kzalloc (toUInt32_add_toNat size) ?_)
        have hrun : userspaceWriteIter (willing kzalloc) size =
            prepareWrite (willing kzalloc) (size.toUInt32 + 6) := by
          simp [userspaceWriteIter, checkFile, willing, halloc]
        exact hrun ▸ hiter
  · rintro h env rfl
    exact ⟨userspaceWrite_lengthsMatch env (h.imp_right And.left),
      userspaceWriteIter_lengthsMatch env (h.imp_right And.right)⟩

/-- A write of 65536 bytes is submitted with length fields for the header alone. -/
theorem lengths_truncated :
    ∃ (env : WriteEnv) (size : UInt64), ¬ LengthsMatch size (userspaceWrite env size) :=
  ⟨willing fun _ => true, 65536, fun h => absurd h.2.1 (by decide)⟩

end UsbNet
