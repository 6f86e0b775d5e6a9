-- SUMMARY: Mux frames: how they are encoded and decoded, and when the decoder stays inside its buffer.
import QcomUsb.Transport.L2Buffers

/-!
# Mux frames

A mux frame is a flag, an address, a control byte, a length of one or two bytes, the payload, a
checksum and a flag. `USBIF_DecodeMuxFrame` gives back what `USBIF_EncodeMuxFrame` was given. It
looks at the header without knowing that the buffer holds one, and compares the payload with the
whole buffer.
-/

namespace Transport.Mux

open Memory

/-- The fields of a device that the functions read. -/
structure Settings where
  muxEnabled : Bool
  muxCtrlDLCI : UInt32
  muxDataDLCI : UInt32
deriving DecidableEq

/-- The DLCI of the data frames or of the control frames. -/
def Settings.dlci (cfg : Settings) (isDataFrame : Bool) : UInt32 :=
  if isDataFrame then cfg.muxDataDLCI else cfg.muxCtrlDLCI

/-! ## Encoding -/

/-- `ds_mux_util_crc_table`. -/
def crcTable : List UInt8 :=
  [ 0x00, 0x91, 0xE3, 0x72, 0x07, 0x96, 0xE4, 0x75, 0x0E, 0x9F, 0xED, 0x7C, 0x09, 0x98, 0xEA, 0x7B,
    0x1C, 0x8D, 0xFF, 0x6E, 0x1B, 0x8A, 0xF8, 0x69, 0x12, 0x83, 0xF1, 0x60, 0x15, 0x84, 0xF6, 0x67,
    0x38, 0xA9, 0xDB, 0x4A, 0x3F, 0xAE, 0xDC, 0x4D, 0x36, 0xA7, 0xD5, 0x44, 0x31, 0xA0, 0xD2, 0x43,
    0x24, 0xB5, 0xC7, 0x56, 0x23, 0xB2, 0xC0, 0x51, 0x2A, 0xBB, 0xC9, 0x58, 0x2D, 0xBC, 0xCE, 0x5F,
    0x70, 0xE1, 0x93, 0x02, 0x77, 0xE6, 0x94, 0x05, 0x7E, 0xEF, 0x9D, 0x0C, 0x79, 0xE8, 0x9A, 0x0B,
    0x6C, 0xFD, 0x8F, 0x1E, 0x6B, 0xFA, 0x88, 0x19, 0x62, 0xF3, 0x81, 0x10, 0x65, 0xF4, 0x86, 0x17,
    0x48, 0xD9, 0xAB, 0x3A, 0x4F, 0xDE, 0xAC, 0x3D, 0x46, 0xD7, 0xA5, 0x34, 0x41, 0xD0, 0xA2, 0x33,
    0x54, 0xC5, 0xB7, 0x26, 0x53, 0xC2, 0xB0, 0x21, 0x5A, 0xCB, 0xB9, 0x28, 0x5D, 0xCC, 0xBE, 0x2F,
    0xE0, 0x71, 0x03, 0x92, 0xE7, 0x76, 0x04, 0x95, 0xEE, 0x7F, 0x0D, 0x9C, 0xE9, 0x78, 0x0A, 0x9B,
    0xFC, 0x6D, 0x1F, 0x8E, 0xFB, 0x6A, 0x18, 0x89, 0xF2, 0x63, 0x11, 0x80, 0xF5, 0x64, 0x16, 0x87,
    0xD8, 0x49, 0x3B, 0xAA, 0xDF, 0x4E, 0x3C, 0xAD, 0xD6, 0x47, 0x35, 0xA4, 0xD1, 0x40, 0x32, 0xA3,
    0xC4, 0x55, 0x27, 0xB6, 0xC3, 0x52, 0x20, 0xB1, 0xCA, 0x5B, 0x29, 0xB8, 0xCD, 0x5C, 0x2E, 0xBF,
    0x90, 0x01, 0x73, 0xE2, 0x97, 0x06, 0x74, 0xE5, 0x9E, 0x0F, 0x7D, 0xEC, 0x99, 0x08, 0x7A, 0xEB,
    0x8C, 0x1D, 0x6F, 0xFE, 0x8B, 0x1A, 0x68, 0xF9, 0x82, 0x13, 0x61, 0xF0, 0x85, 0x14, 0x66, 0xF7,
    0xA8, 0x39, 0x4B, 0xDA, 0xAF, 0x3E, 0x4C, 0xDD, 0xA6, 0x37, 0x45, 0xD4, 0xA1, 0x30, 0x42, 0xD3,
    0xB4, 0x25, 0x57, 0xC6, 0xB3, 0x22, 0x50, 0xC1, 0xBA, 0x2B, 0x59, 0xC8, 0xBD, 0x2C, 0x5E, 0xCF ]

/-- `ds_mux_util_calc_basic_fcs` for `DS_MUX_UTIL_FCS_UIH`: over the address, the control byte and
the length of a frame, which begins before `buf` with its flag. -/
def calcBasicFcs (buf : Nat → UInt8) : UInt8 :=
  let lenFldOctets := if buf 2 &&& 1 ≠ 0 then 1 else 2
  let octets := slice buf 0 (2 + lenFldOctets)
  0xFF - octets.foldl (fun fcs b => crcTable.getD (fcs ^^^ b).toNat 0) 0xFF

/-- The length field of a frame. -/
def lengthField (payloadLength : UInt32) : List UInt8 :=
  if payloadLength ≥ 0x80 then [(payloadLength <<< 1).toUInt8, (payloadLength >>> 7).toUInt8]
  else [((payloadLength <<< 1) + 1).toUInt8]

/-- What is in front of the payload. -/
def header (cfg : Settings) (payloadLength : UInt32) (isDataFrame : Bool) : List UInt8 :=
  0xF9 :: ((cfg.dlci isDataFrame <<< 2) + 1).toUInt8 :: 0xEF :: lengthField payloadLength

/-- `USBIF_EncodeMuxFrame`: the frame buffer, and `MuxFrameLength`. -/
def encodeMuxFrame (cfg : Settings) (payload : List UInt8) (muxFrameBuffer : Nat → UInt8)
    (isDataFrame : Bool) : (Nat → UInt8) × Nat :=
  let head := header cfg (UInt32.ofNat payload.length) isDataFrame
  let buffer := copyIn muxFrameBuffer 0 (head ++ payload)
  let p := head.length + payload.length
  (copyIn buffer p [calcBasicFcs fun i => buffer (i + 1), 0xF9], p + 2)

/-! ## Decoding -/

/-- The result of the decoder: where the payload starts, and `PayloadLength`. An observer keeps the
offsets of the bytes that were read. -/
structure Decoded where
  pDataPtr : Option Nat
  payloadLength : Nat
  reads : List Nat
deriving DecidableEq

/-- The extension bit says that the length is one byte. -/
def oneByteLength (frame : Nat → UInt8) : Bool := frame 3 &&& 1 ≠ 0

/-- Where the payload starts. -/
def headerLength (frame : Nat → UInt8) : Nat := if oneByteLength frame then 4 else 5

/-- `muxPayloadLength`. -/
def muxPayloadLength (frame : Nat → UInt8) : Nat :=
  if oneByteLength frame then (frame 3 >>> 1).toNat
  else (frame 4).toNat * 128 + (frame 3 >>> 1).toNat

/-- The address is the one of the frames that are looked for. -/
def addressed (cfg : Settings) (frame : Nat → UInt8) (isDataFrame : Bool) : Bool :=
  (frame 1 >>> 2) ≠ 0 ∧ (frame 1 >>> 2).toUInt32 = cfg.dlci isDataFrame

/-- The bytes of the header that are looked at. -/
def headerReads (frame : Nat → UInt8) : List Nat :=
  if oneByteLength frame then [0, 1, 3] else [0, 1, 3, 4]

/-- `USBIF_DecodeMuxFrame`. -/
def decodeMuxFrame (cfg : Settings) (frame : Nat → UInt8) (muxFrameLength : Nat)
    (isDataFrame : Bool) : Decoded :=
  if cfg.muxEnabled = false then ⟨none, muxFrameLength, []⟩
  else if frame 0 ≠ 0xF9 then ⟨none, muxFrameLength, [0]⟩
  else if addressed cfg frame isDataFrame = false then ⟨none, 0, [0, 1]⟩
  else if muxPayloadLength frame ≥ muxFrameLength then ⟨none, 0, headerReads frame⟩
  else ⟨some (headerLength frame), muxPayloadLength frame, headerReads frame⟩

/-- What was read and what is returned is in the `n` bytes of the frame buffer. -/
structure Decoded.Inside (d : Decoded) (n : Nat) : Prop where
  reads : ∀ i ∈ d.reads, i < n
  payload : ∀ p, d.pDataPtr = some p → p + d.payloadLength ≤ n

/-! ## The round trip -/

/-- The frame is decoded to the payload. -/
def RoundTrip (cfg : Settings) (payload : List UInt8) (buffer : Nat → UInt8)
    (isDataFrame : Bool) : Prop :=
  let (frame, length) := encodeMuxFrame cfg payload buffer isDataFrame
  ∃ p reads, decodeMuxFrame cfg frame length isDataFrame = ⟨some p, payload.length, reads⟩ ∧
    slice frame p payload.length = payload

/-- The extension bit of a byte. -/
theorem and_one_ne_zero (b : UInt8) : b &&& 1 ≠ 0 ↔ b.toNat % 2 = 1 := by
  have hand : (b &&& 1).toNat = b.toNat % 2 := by
    rw [UInt8.toNat_and]
    exact Nat.and_one_is_mod _
  rw [ne_eq, ← UInt8.toNat_inj, hand]
  change ¬ b.toNat % 2 = 0 ↔ _
  omega

theorem shiftRight_one (b : UInt8) : (b >>> 1).toNat = b.toNat / 2 := by
  rw [UInt8.toNat_shiftRight]
  exact Nat.shiftRight_eq_div_pow _ 1

theorem shiftRight_two (b : UInt8) : (b >>> 2).toNat = b.toNat / 4 := by
  rw [UInt8.toNat_shiftRight]
  exact Nat.shiftRight_eq_div_pow _ 2

section

variable {cfg : Settings} {payload : List UInt8} {frame buffer : Nat → UInt8} {isDataFrame : Bool}

variable (cfg payload buffer isDataFrame) in
/-- The bytes of a frame in front of its checksum. -/
theorem slice_encodeMuxFrame :
    let head := header cfg (UInt32.ofNat payload.length) isDataFrame
    slice (encodeMuxFrame cfg payload buffer isDataFrame).1 0 (head.length + payload.length)
      = head ++ payload := by
  intro head
  have hself := slice_copyIn_self buffer 0 (head ++ payload)
  rw [List.length_append] at hself
  simp only [encodeMuxFrame]
  rw [slice_copyIn_of_disjoint (.inl (by rw [Nat.zero_add]))]
  exact hself

theorem oneByteLength_eq (frame : Nat → UInt8) :
    oneByteLength frame = decide ((frame 3).toNat % 2 = 1) := by
  simp only [oneByteLength, decide_eq_decide]
  exact and_one_ne_zero _

/-- What the decoder makes of the length field. -/
theorem decode_lengthField {length : Nat} (hle : length ≤ 32767)
    (hfield : slice frame 3 (lengthField (UInt32.ofNat length)).length
      = lengthField (UInt32.ofNat length)) :
    headerLength frame = 3 + (lengthField (UInt32.ofNat length)).length ∧
      muxPayloadLength frame = length := by
  have hnat : (UInt32.ofNat length).toNat = length := by
    rw [UInt32.toNat_ofNat']
    exact Nat.mod_eq_of_lt (by omega)
  have hshl : (UInt32.ofNat length <<< 1).toNat = 2 * length := by
    rw [UInt32.toNat_shiftLeft, hnat]
    change length <<< 1 % 2 ^ 32 = _
    rw [Nat.shiftLeft_eq]
    omega
  have hshr : (UInt32.ofNat length >>> 7).toNat = length / 128 := by
    rw [UInt32.toNat_shiftRight, hnat]
    exact Nat.shiftRight_eq_div_pow _ 7
  unfold lengthField at hfield ⊢
  split at hfield
  next hlong =>
    rw [if_pos hlong]
    have hge : 128 ≤ length := by
      have := UInt32.le_iff_toNat_le.mp hlong
      rwa [hnat] at this
    have hcells : frame 3 = (UInt32.ofNat length <<< 1).toUInt8 ∧
        frame 4 = (UInt32.ofNat length >>> 7).toUInt8 := by
      simpa [slice, List.range_succ] using hfield
    have hthree : (frame 3).toNat = 2 * length % 256 := by
      rw [hcells.1, UInt32.toNat_toUInt8, hshl]
    have hfour : (frame 4).toNat = length / 128 := by
      rw [hcells.2, UInt32.toNat_toUInt8, hshr]
      exact Nat.mod_eq_of_lt (by omega)
    have hext : oneByteLength frame = false := by
      rw [oneByteLength_eq, hthree]
      exact decide_eq_false (by omega)
    constructor
    · rw [headerLength, hext]
      rfl
    · rw [muxPayloadLength, hext, shiftRight_one, hthree, hfour]
      simp only [Bool.false_eq_true, if_false]
      omega
  next hshort =>
    rw [if_neg hshort]
    have hlt : length < 128 := by
      have := fun h => hshort (UInt32.le_iff_toNat_le.mpr h)
      rw [hnat] at this
      exact Nat.lt_of_not_le this
    have hthree : (frame 3).toNat = 2 * length + 1 := by
      have hcell : frame 3 = ((UInt32.ofNat length <<< 1) + 1).toUInt8 := by
        simpa [slice] using hfield
      rw [hcell, UInt32.toNat_toUInt8, UInt32.toNat_add, hshl]
      change (2 * length + 1) % 2 ^ 32 % 256 = _
      omega
    have hext : oneByteLength frame = true := by
      rw [oneByteLength_eq, hthree]
      exact decide_eq_true (by omega)
    constructor
    · rw [headerLength, hext]
      rfl
    · rw [muxPayloadLength, hext, shiftRight_one, hthree]
      simp only [if_true]
      omega

/-- What the decoder makes of the address. -/
theorem decode_address (hlo : 1 ≤ cfg.dlci isDataFrame) (hhi : cfg.dlci isDataFrame ≤ 63)
    (haddress : frame 1 = ((cfg.dlci isDataFrame <<< 2) + 1).toUInt8) :
    addressed cfg frame isDataFrame = true := by
  have hpos : 1 ≤ (cfg.dlci isDataFrame).toNat := UInt32.le_iff_toNat_le.mp hlo
  have hle : (cfg.dlci isDataFrame).toNat ≤ 63 := UInt32.le_iff_toNat_le.mp hhi
  have hone : (frame 1).toNat = 4 * (cfg.dlci isDataFrame).toNat + 1 := by
    rw [haddress, UInt32.toNat_toUInt8, UInt32.toNat_add, UInt32.toNat_shiftLeft]
    change ((cfg.dlci isDataFrame).toNat <<< 2 % 2 ^ 32 + 1) % 2 ^ 32 % 256 = _
    rw [Nat.shiftLeft_eq]
    omega
  have hshift : (frame 1 >>> 2).toNat = (cfg.dlci isDataFrame).toNat := by
    rw [shiftRight_two, hone]
    omega
  simp only [addressed, decide_eq_true_eq]
  constructor
  · intro hzero
    rw [hzero] at hshift
    change 0 = _ at hshift
    omega
  · exact UInt32.toNat.inj (by rw [UInt8.toNat_toUInt32, hshift])

/-- A frame is decoded to what it was built from. -/
theorem roundTrip (henabled : cfg.muxEnabled = true) (hlo : 1 ≤ cfg.dlci isDataFrame)
    (hhi : cfg.dlci isDataFrame ≤ 63) (hle : payload.length ≤ 32767) :
    RoundTrip cfg payload buffer isDataFrame := by
  have hslice := slice_encodeMuxFrame cfg payload buffer isDataFrame
  obtain ⟨hhead, hpayload⟩ := slice_eq_append hslice
  rw [Nat.add_sub_cancel_left, Nat.zero_add] at hpayload
  set frame := (encodeMuxFrame cfg payload buffer isDataFrame).1
  have hlen : (header cfg (UInt32.ofNat payload.length) isDataFrame).length
      = 3 + (lengthField (UInt32.ofNat payload.length)).length := by
    rw [header, List.length_cons, List.length_cons, List.length_cons]
    omega
  rw [hlen, slice_add, Nat.zero_add] at hhead
  obtain ⟨hfront, hfield⟩ : slice frame 0 3
        = ([0xF9, ((cfg.dlci isDataFrame <<< 2) + 1).toUInt8, 0xEF] : List UInt8) ∧
      slice frame 3 (lengthField (UInt32.ofNat payload.length)).length
        = lengthField (UInt32.ofNat payload.length) := List.append_inj hhead (slice_length _ _ _)
  have hcells : frame 0 = 0xF9 ∧ frame 1 = ((cfg.dlci isDataFrame <<< 2) + 1).toUInt8 ∧
      frame 2 = 0xEF := by
    simpa [slice, List.range_succ] using hfront
  obtain ⟨hheader, hmux⟩ := decode_lengthField hle hfield
  have haddressed := decode_address hlo hhi hcells.2.1
  have hlength : (encodeMuxFrame cfg payload buffer isDataFrame).2
      = headerLength frame + payload.length + 2 := by
    rw [hheader, ← hlen]
    rfl
  refine ⟨headerLength frame, headerReads frame, ?_, ?_⟩
  · change decodeMuxFrame cfg frame (encodeMuxFrame cfg payload buffer isDataFrame).2 isDataFrame
      = _
    simp only [decodeMuxFrame, henabled, hcells.1, haddressed, hmux, hlength]
    rw [if_neg (by decide), if_neg (by decide), if_neg (by decide), if_neg (by omega)]
  · change slice frame (headerLength frame) payload.length = payload
    rw [hheader, ← hlen]
    exact hpayload

/-! ## Bounds -/

/-- The buffer of `n` bytes holds the address of what starts like a frame, and, of a frame that is
looked for, the header and the payload, unless the payload is as long as the whole buffer. -/
def Complete (cfg : Settings) (frame : Nat → UInt8) (n : Nat) (isDataFrame : Bool) : Prop :=
  cfg.muxEnabled = true → frame 0 = 0xF9 →
    2 ≤ n ∧ (addressed cfg frame isDataFrame = true → headerLength frame ≤ n ∧
      (muxPayloadLength frame < n → headerLength frame + muxPayloadLength frame ≤ n))

theorem headerReads_lt (frame : Nat → UInt8) {n : Nat} :
    (∀ i ∈ headerReads frame, i < n) ↔ headerLength frame ≤ n := by
  unfold headerReads headerLength
  split
  · simp
    omega
  · simp
    omega

/-- The decoder stays inside its buffer exactly if the buffer is complete. -/
theorem inside_iff {n : Nat} (hn : 1 ≤ n) :
    (decodeMuxFrame cfg frame n isDataFrame).Inside n ↔ Complete cfg frame n isDataFrame := by
  unfold decodeMuxFrame Complete
  split
  next hoff =>
    constructor
    · intro _ hon
      rw [hoff] at hon
      cases hon
    · intro _
      exact ⟨fun i hi => absurd hi List.not_mem_nil, fun p hp => nomatch hp⟩
  next hon =>
    have henabled : cfg.muxEnabled = true := by simpa using hon
    split
    next hflag =>
      constructor
      · intro _ _ hflag'
        exact absurd hflag' hflag
      · intro _
        exact ⟨by simpa using Nat.lt_of_succ_le hn, fun p hp => nomatch hp⟩
    next hflag =>
      have hstart : frame 0 = 0xF9 := by simpa using hflag
      split
      next hother =>
        constructor
        · intro hinside _ _
          refine ⟨hinside.reads 1 (by simp), fun hfor => ?_⟩
          rw [hother] at hfor
          cases hfor
        · intro hcomplete
          obtain ⟨htwo, -⟩ := hcomplete henabled hstart
          refine ⟨?_, fun p hp => nomatch hp⟩
          simp
          omega
      next hfor =>
        have haddressed : addressed cfg frame isDataFrame = true := by simpa using hfor
        have hfour : 4 ≤ headerLength frame := by
          unfold headerLength
          split <;> omega
        split
        next hwrong =>
          constructor
          · intro hinside _ _
            have hheader := (headerReads_lt frame).mp hinside.reads
            exact ⟨by omega, fun _ => ⟨hheader, fun hlt => by omega⟩⟩
          · intro hcomplete
            obtain ⟨-, hheader⟩ := hcomplete henabled hstart
            exact ⟨(headerReads_lt frame).mpr (hheader haddressed).1, fun p hp => nomatch hp⟩
        next hright =>
          constructor
          · intro hinside _ _
            have hheader := (headerReads_lt frame).mp hinside.reads
            have hpayload : headerLength frame + muxPayloadLength frame ≤ n := hinside.payload _ rfl
            exact ⟨by omega, fun _ => ⟨hheader, fun _ => hpayload⟩⟩
          · intro hcomplete
            obtain ⟨-, hheader⟩ := hcomplete henabled hstart
            obtain ⟨hle, hpayload⟩ := hheader haddressed
            refine ⟨(headerReads_lt frame).mpr hle, fun p hp => ?_⟩
            cases hp
            exact hpayload (by omega)

end

/-- Every frame that was built is decoded to its payload, and the decoder stays inside a buffer
exactly if it is complete. -/
theorem muxFraming_iff (cfg : Settings) (isDataFrame : Bool) :
    (∀ (payload : List UInt8) (buffer : Nat → UInt8),
      cfg.muxEnabled = true → 1 ≤ cfg.dlci isDataFrame → cfg.dlci isDataFrame ≤ 63 →
      1 ≤ payload.length → payload.length ≤ 32767 →
      RoundTrip cfg payload buffer isDataFrame) ∧
    ∀ (frame : Nat → UInt8) (n : Nat), 1 ≤ n →
      ((decodeMuxFrame cfg frame n isDataFrame).Inside n ↔ Complete cfg frame n isDataFrame) := by
  constructor
  · intro payload buffer henabled hlo hhi _ hle
    exact roundTrip henabled hlo hhi hle
  · intro frame n hn
    exact inside_iff hn

/-- A buffer that ends behind the header. -/
def cutFrame : Nat → UInt8 := fun i => [0xF9, 0x05, 0xEF, 0x07].getD i 0

theorem not_inside_cutFrame :
    ¬ ∀ (cfg : Settings) (frame : Nat → UInt8) (n : Nat) (isDataFrame : Bool), 1 ≤ n →
      (decodeMuxFrame cfg frame n isDataFrame).Inside n := by
  intro h
  have hpayload := (h ⟨true, 2, 1⟩ cutFrame 4 true (by decide)).payload 4 (by decide)
  exact absurd hpayload (by decide)

/-- The level-2 read thread decodes the data frames. -/
theorem l2_decodeMuxFrame (cfg : L2.Settings) (hlt : cfg.muxDataDLCI < 2 ^ 32)
    (frame : Nat → UInt8) (n : Nat) (ctrl : UInt32) :
    let d := decodeMuxFrame ⟨true, ctrl, UInt32.ofNat cfg.muxDataDLCI⟩ frame n true
    cfg.decodeMuxFrame frame n = (d.pDataPtr, d.payloadLength) := by
  have hnat : (UInt32.ofNat cfg.muxDataDLCI).toNat = cfg.muxDataDLCI := by
    rw [UInt32.toNat_ofNat']
    exact Nat.mod_eq_of_lt hlt
  have haddress : addressed ⟨true, ctrl, UInt32.ofNat cfg.muxDataDLCI⟩ frame true =
      decide ((frame 1 >>> 2).toNat ≠ 0 ∧ (frame 1 >>> 2).toNat = cfg.muxDataDLCI) := by
    have hzero : frame 1 >>> 2 ≠ 0 ↔ (frame 1 >>> 2).toNat ≠ 0 := by
      rw [ne_eq, ← UInt8.toNat_inj]
      rfl
    simp only [addressed, Settings.dlci, if_true, ← UInt32.toNat_inj,
      UInt8.toNat_toUInt32, hnat, hzero]
  have hshort : (frame 3 &&& 1 ≠ 0) = (oneByteLength frame = true) := by
    simp [oneByteLength]
  intro d
  simp only [d, decodeMuxFrame, L2.Settings.decodeMuxFrame, haddress, hshort, headerLength,
    muxPayloadLength]
  grind

end Transport.Mux
