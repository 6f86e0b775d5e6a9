-- SUMMARY: QMAP downlink transfers as lists of frames, and when each frame reaches the reads of its adapter.
import QcomUsb.Transport.QmapRead

/-!
# Demultiplexing QMAP transfers

A transfer is a concatenation of frames. Read one frame at a call, it is demultiplexed if every data
frame completes a read of its adapter, a frame without an adapter is dropped alone, and the buffer
is recycled after the last frame. The theorem at the end says for which transfers this is so.
-/

namespace Transport

open Memory

/-! ## Frames -/

/-- A QMAP frame. `dlChecksum` is the trailer of a data frame in the modes that have one. -/
structure Frame where
  padCD : UInt8
  muxId : UInt8
  body : List UInt8
  dlChecksum : List UInt8
  pos : 1 ≤ body.length
  length_lt : body.length < 2 ^ 16
  pad_lt : (padCD &&& 0x3f).toNat < body.length
  dlChecksum_length : dlChecksum.length = 8

namespace Frame

def isCommand (f : Frame) : Bool := f.padCD &&& 0x80 ≠ 0

def padLen (f : Frame) : Nat := (f.padCD &&& 0x3f).toNat

def header (f : Frame) : List UInt8 :=
  [f.padCD, f.muxId] ++ swappedBytes (UInt16.ofNat f.body.length)

def trailer (mode : QmapMode) (f : Frame) : List UInt8 :=
  if f.isCommand then [] else f.dlChecksum.take mode.trailer

def bytes (mode : QmapMode) (f : Frame) : List UInt8 := f.header ++ f.body ++ f.trailer mode

/-- The frame in memory, from its body on, with nothing behind it. -/
def alone (f : Frame) : Nat → UInt8 := fun i => (f.body ++ f.dlChecksum).getD i 0

/-- The packet, with its transport checksum in the modes that write it. -/
def payload (mode : QmapMode) (f : Frame) : List UInt8 :=
  match mode.checksum with
  | none => f.body.take (f.body.length - f.padLen)
  | some v3 => slice (writeChecksum v3 f.alone 0 f.body.length) 0 (f.body.length - f.padLen)

/-- The control message of a command frame. -/
def message (f : Frame) : List UInt8 := f.body.take (f.body.length - f.padLen)

end Frame

/-! ## Transfers -/

namespace DevExt

/-- The frame is a data frame for the device. -/
def isDataFor (dev : DevExt) (device : Nat) (f : Frame) : Bool :=
  ! f.isCommand && dev.deviceOf f.muxId == some device

/-- What a read is completed with. -/
def received (dev : DevExt) (f : Frame) : List UInt8 :=
  if dev.ipOnlyMode then setEtherType (dev.ethHdr ++ f.payload dev.mode) else f.payload dev.mode

/-- Each data frame completes the first read of its device. -/
def deliveries (dev : DevExt) : (Nat → List ReadIrp) → List Frame → List CompletedRead
  | _, [] => []
  | queue, f :: rest =>
    if f.isCommand then deliveries dev queue rest
    else
      match dev.deviceOf f.muxId with
      | none => deliveries dev queue rest
      | some device =>
        match queue device with
        | [] => deliveries dev queue rest
        | irp :: irps =>
          ⟨device, irp, .success, dev.received f⟩ ::
            deliveries dev (Function.update queue device irps) rest

/-- The control messages of the command frames that have a device. -/
def messages (dev : DevExt) (frames : List Frame) : List (Nat × List UInt8) :=
  frames.filterMap fun f =>
    if f.isCommand then (dev.deviceOf f.muxId).map fun device => (device, f.message) else none

/-- Every data frame that has a device holds what is read and written for its checksum. -/
def ChecksumsInside (dev : DevExt) (buffer : Nat → UInt8) : Nat → List Frame → Prop
  | _, [] => True
  | off, f :: rest =>
    (dev.mode.checksum.isSome → f.isCommand = false → (dev.deviceOf f.muxId).isSome →
      ChecksumInside (fun i => buffer (off + 4 + i)) f.body.length) ∧
    ChecksumsInside dev buffer (off + (f.bytes dev.mode).length) rest

end DevExt

namespace State

/-- A number of calls of `USBMRD_FillReadRequest`. -/
def fillReadRequests (dev : DevExt) : Nat → State → Option State
  | 0, s => some s
  | n + 1, s => (s.fillReadRequest dev).bind (fillReadRequests dev n)

/-- How often a level-2 buffer was recycled. -/
def recycled (s : State) (i : Nat) : Option Nat := s.pL2ReadBuffer[i]?.map (·.recycled)

/-- Where the next frame in a level-2 buffer is. -/
def dataPtr (s : State) (i : Nat) : Option L2Ptr := s.pL2ReadBuffer[i]?.map (·.dataPtr)

end State

/-- The buffer `b` at `L2FillIdx` holds the frames from `off` on, and enough reads wait that are
large enough for them. -/
structure Holds (dev : DevExt) (frames : List Frame) (s : State) (b : L2Buffer) (off : Nat) :
    Prop where
  getElem : s.pL2ReadBuffer[s.l2FillIdx]? = some b
  success : b.success = true
  state : b.state = .completed
  dataPtr : b.dataPtr = ⟨s.l2FillIdx, off⟩
  idle : s.tlpBufferState = .idle
  length : off + (frames.flatMap (·.bytes dev.mode)).length = b.length
  bytes : slice b.buffer off (b.length - off) = frames.flatMap (·.bytes dev.mode)
  enough : ∀ device, frames.countP (dev.isDataFor device) ≤ (s.readDataQueue device).length
  large : ∀ device, ∀ irp ∈ s.readDataQueue device, ∀ f ∈ frames,
    f.body.length ≤ irp.length.toNat ∧
      (dev.ipOnlyMode = true → f.body.length - f.padLen + 14 ≤ irp.length.toNat)

/-- A transfer, in the buffer at `L2FillIdx`. -/
structure Transfer where
  dev : DevExt
  frames : List Frame
  start : State
  l2Buffer : L2Buffer
  muxEnabled : dev.muxEnabled = true
  noMinPadding : dev.qmapDLMinPadding = 0
  holds : Holds dev frames start l2Buffer 0

/-- Over the calls for the frames, and one call for a transfer without frames: the reads are
completed, no control message is processed that has no device, the buffer is recycled at the last
call, and `DataPtr` of no other buffer is changed. -/
structure Demuxed (dev : DevExt) (frames : List Frame) (s : State) : Prop where
  before : ∀ j < max 1 frames.length, ∃ t, s.fillReadRequests dev j = some t ∧
    t.recycled s.l2FillIdx = s.recycled s.l2FillIdx
  others : ∀ j ≤ max 1 frames.length, ∀ t, s.fillReadRequests dev j = some t →
    ∀ i ≠ s.l2FillIdx, t.dataPtr i = s.dataPtr i
  done : ∃ t, s.fillReadRequests dev (max 1 frames.length) = some t ∧
    t.recycled s.l2FillIdx = (s.recycled s.l2FillIdx).map (· + 1) ∧
    t.completed = s.completed ++ dev.deliveries s.readDataQueue frames ∧
    ∃ messages, t.controls = s.controls ++ messages ∧ messages.Sublist (dev.messages frames)

/-! ## The frame at the head -/

section

variable {dev : DevExt} {f : Frame} {rest : List Frame} {s : State} {b : L2Buffer} {off : Nat}

@[simp] theorem Frame.header_length (f : Frame) : f.header.length = 4 := rfl

theorem Frame.bytes_length (mode : QmapMode) (f : Frame) :
    (f.bytes mode).length = 4 + f.body.length + if f.isCommand then 0 else mode.trailer := by
  have htrailer : mode.trailer ≤ 8 := by cases mode <;> decide
  unfold bytes trailer
  split
  · simp
  · simp [f.dlChecksum_length, htrailer, Nat.add_assoc]

/-- What the buffer holds of the first frame, and behind it. -/
structure HeadAt (dev : DevExt) (f : Frame) (rest : List Frame) (b : L2Buffer) (off : Nat) :
    Prop where
  padCD : b.buffer off = f.padCD
  muxId : b.buffer (off + 1) = f.muxId
  pktLen : (beWord b.buffer (off + 2)).toNat = f.body.length
  body : slice b.buffer (off + 4) f.body.length = f.body
  trailer : slice b.buffer (off + 4 + f.body.length) (f.trailer dev.mode).length
    = f.trailer dev.mode
  rest : slice b.buffer (off + (f.bytes dev.mode).length)
    (b.length - (off + (f.bytes dev.mode).length)) = rest.flatMap (·.bytes dev.mode)

theorem headAt_of_bytes (hbytes : slice b.buffer off (b.length - off) =
    (f :: rest).flatMap (·.bytes dev.mode)) : HeadAt dev f rest b off := by
  rw [List.flatMap_cons, Frame.bytes, List.append_assoc, List.append_assoc] at hbytes
  obtain ⟨hheader, htail⟩ := slice_eq_append hbytes
  obtain ⟨hbody, htail⟩ := slice_eq_append htail
  obtain ⟨htrailer, hrest⟩ := slice_eq_append htail
  rw [f.header_length] at hheader hbody htrailer hrest
  have hcells : b.buffer off = f.padCD ∧ b.buffer (off + 1) = f.muxId ∧
      b.buffer (off + 2) = UInt8.ofNat ((UInt16.ofNat f.body.length).toNat / 256) ∧
      b.buffer (off + 3) = UInt8.ofNat (UInt16.ofNat f.body.length).toNat := by
    simpa [slice, Frame.header, swappedBytes, List.range_succ] using hheader
  obtain ⟨hpad, hmux, hhigh, hlow⟩ := hcells
  refine ⟨hpad, hmux, ?_, hbody, htrailer, ?_⟩
  · rw [beWord, hhigh, Nat.add_assoc, hlow, leWord_swappedBytes, UInt16.toNat_ofNat']
    exact Nat.mod_eq_of_lt f.length_lt
  · have hsize : (f.bytes dev.mode).length = 4 + f.body.length + (f.trailer dev.mode).length := by
      simp [Frame.bytes, Nat.add_assoc]
    rw [hsize]
    rw [Nat.sub_sub, Nat.sub_sub, Nat.sub_sub] at hrest
    simpa only [Nat.add_assoc] using hrest

theorem Holds.headAt (h : Holds dev (f :: rest) s b off) : HeadAt dev f rest b off :=
  headAt_of_bytes h.bytes

theorem Holds.length_cons (h : Holds dev (f :: rest) s b off) :
    off + (f.bytes dev.mode).length + (rest.flatMap (·.bytes dev.mode)).length = b.length := by
  have hlen := h.length
  rw [List.flatMap_cons, List.length_append] at hlen
  omega

theorem Holds.fillReadRequest (h : Holds dev (f :: rest) s b off) :
    s.fillReadRequest dev = some (s.qmapFrame dev b off) := by
  have hlen := h.length_cons
  rw [f.bytes_length] at hlen
  have hpos : b.length ≠ 0 := by omega
  simp only [State.fillReadRequest, h.getElem, h.state, h.success, hpos, State.readIrpCompletion,
    h.idle, h.dataPtr]
  simp

/-- The branches for the frame at the head, unless the rest of the buffer is too short. -/
theorem Holds.qmapFrame_eq (h : Holds dev (f :: rest) s b off) (hmin : dev.qmapDLMinPadding = 0)
    (hlong : 4 + dev.mode.trailer < ((f :: rest).flatMap (·.bytes dev.mode)).length) :
    s.qmapFrame dev b off =
      match s.getAdapterReadDataItemIrp dev f.muxId with
      | (device, none, readQueueEmpty) =>
        let s' := if readQueueEmpty then s else s.recycleL2FillBuffer s.l2FillIdx
        if f.isCommand then
          s'.controlFrame s.l2FillIdx device b (off + 4) f.body.length f.padLen
        else s'
      | (device, some irp, _) =>
        if f.isCommand then s.controlFrame s.l2FillIdx device b (off + 4) f.body.length f.padLen
        else
          match dev.mode.checksum with
          | none => s.dataFrame dev s.l2FillIdx device b irp (off + 4) f.body.length f.padLen
          | some v3 =>
            let b := { b with buffer := writeChecksum v3 b.buffer (off + 4) f.body.length }
            (s.modifyBuffer s.l2FillIdx fun _ => b).dataFrame dev s.l2FillIdx device b irp (off + 4)
              f.body.length f.padLen := by
  have hlen := h.length
  have hhead := h.headAt
  have hpad : f.padLen < f.body.length := f.pad_lt
  have hpadMod : ((f.padCD &&& 0x3f).toNat + 0) % 256 = f.padLen :=
    Nat.mod_eq_of_lt (f.padCD &&& 0x3f).toNat_lt
  have hpos := f.pos
  have hcons := h.length_cons
  rw [f.bytes_length] at hcons
  have hfits : (f.body.length ≠ 0 ∧ f.padLen ≤ f.body.length ∧
      f.body.length - f.padLen ≤ b.length) = True := eq_true (by omega)
  have hcommand : (f.padCD &&& 0x80 ≠ 0) = (f.isCommand = true) := by simp [Frame.isCommand]
  rw [State.qmapFrame, if_neg (by omega)]
  simp only [hhead.padCD, hhead.muxId, hhead.pktLen, hmin, hpadMod, hfits, hcommand, and_true]
    <;> rfl

/-! ## A frame that is taken -/

/-- What was and is to be delivered and processed is the same before and after the frame. -/
structure Observed (dev : DevExt) (f : Frame) (s s' : State) : Prop where
  queue : ∀ device, s'.readDataQueue device =
    if dev.isDataFor device f then (s.readDataQueue device).tail else s.readDataQueue device
  completed : ∀ rest, s'.completed ++ dev.deliveries s'.readDataQueue rest
    = s.completed ++ dev.deliveries s.readDataQueue (f :: rest)
  controls : ∃ messages, s'.controls = s.controls ++ messages ∧
    ∀ rest, dev.messages (f :: rest) = messages ++ dev.messages rest

/-- The frame is done with except for the advance: the buffer is unchanged behind the frame. -/
structure Taken (dev : DevExt) (f : Frame) (s s' : State) (b b' : L2Buffer) (off : Nat) : Prop where
  buffers : s'.pL2ReadBuffer = s.pL2ReadBuffer.set s.l2FillIdx b'
  l2FillIdx : s'.l2FillIdx = s.l2FillIdx
  idle : s'.tlpBufferState = s.tlpBufferState
  fields : b' = { b with buffer := b'.buffer }
  behind : ∀ i, off + (f.bytes dev.mode).length ≤ i → b'.buffer i = b.buffer i
  observed : Observed dev f s s'

theorem set_getElem {α : Type} {l : List α} {i : Nat} {x : α} (h : l[i]? = some x) :
    l.set i x = l := by
  obtain ⟨hlt, rfl⟩ := List.getElem?_eq_some_iff.mp h
  exact List.set_getElem_self hlt

theorem State.modifyBuffer_const (s : State) (i : Nat) (b : L2Buffer) :
    s.modifyBuffer i (fun _ => b) = { s with pL2ReadBuffer := s.pL2ReadBuffer.set i b } := by
  rw [modifyBuffer]
  congr 1
  refine List.ext_getElem? fun k => ?_
  rw [List.getElem?_modify, List.getElem?_set]
  by_cases hk : i = k
  · subst hk
    by_cases hlt : i < s.pL2ReadBuffer.length
    · simp [hlt]
    · simp [hlt]
  · simp [hk]

theorem Holds.body_le (h : Holds dev (f :: rest) s b off) :
    off + 4 + f.body.length ≤ b.length := by
  have hlen := h.length_cons
  rw [f.bytes_length] at hlen
  omega

/-- A command frame for a device. -/
theorem Holds.taken_command (h : Holds dev (f :: rest) s b off) (hcommand : f.isCommand = true)
    {device : Nat} (hdevice : dev.deviceOf f.muxId = some device) :
    ∃ s', s.controlFrame s.l2FillIdx device b (off + 4) f.body.length f.padLen
        = s'.advance s.l2FillIdx b.length (off + (f.bytes dev.mode).length) ∧
      Taken dev f s s' b b off := by
  have hhead := h.headAt
  have hend := h.body_le
  have hpad : f.padLen < f.body.length := f.pad_lt
  have hfits : f.body.length ≠ 0 ∧ f.padLen ≤ f.body.length ∧
      f.body.length - f.padLen ≤ b.length := by omega
  have hmessage : slice b.buffer (off + 4) (f.body.length - f.padLen) = f.message := by
    rw [Frame.message, ← slice_take _ _ (Nat.sub_le f.body.length f.padLen), hhead.body]
  have hnext : off + 4 + f.body.length = off + (f.bytes dev.mode).length := by
    rw [f.bytes_length, if_pos hcommand]
    omega
  refine ⟨_, by rw [State.controlFrame, if_pos hfits, hnext], ?_⟩
  refine ⟨(set_getElem h.getElem).symm, rfl, rfl, rfl, fun _ _ => rfl, fun other => ?_,
    fun frames => ?_, [(device, f.message)], ?_, fun frames => ?_⟩
  · simp [DevExt.isDataFor, hcommand]
  · simp [DevExt.deliveries, hcommand]
  · rw [hmessage]
  · simp [DevExt.messages, hcommand, hdevice]

theorem fillIrpData_eq {irp : ReadIrp} {data : List UInt8}
    (h : dev.ipOnlyMode = true → data.length + 14 ≤ irp.length.toNat) :
    fillIrpData dev irp.length data
      = some (if dev.ipOnlyMode then setEtherType (dev.ethHdr ++ data) else data) := by
  unfold fillIrpData
  by_cases hip : dev.ipOnlyMode = true
  · have hle : (14 : UInt32) ≤ irp.length := by
      rw [UInt32.le_iff_toNat_le]
      have := h hip
      simp
      omega
    have hroom : ¬ data.length > (irp.length - 14).toNat := by
      have := h hip
      rw [UInt32.toNat_sub_of_le _ _ hle]
      simp
      omega
    rw [if_pos hip, if_neg hroom, if_pos hip]
  · rw [if_neg hip, if_neg hip]

/-- A data frame for a device, in a buffer where the packet is what is to be received. -/
theorem Holds.taken_data (h : Holds dev (f :: rest) s b off) (hdata : f.isCommand = false)
    {device : Nat} (hdevice : dev.deviceOf f.muxId = some device) {irp : ReadIrp}
    {irps : List ReadIrp} (hqueue : s.readDataQueue device = irp :: irps) {b' : L2Buffer}
    (hfields : b' = { b with buffer := b'.buffer })
    (hbehind : ∀ i, off + (f.bytes dev.mode).length ≤ i → b'.buffer i = b.buffer i)
    (hpayload : slice b'.buffer (off + 4) (f.body.length - f.padLen) = f.payload dev.mode)
    {s₀ : State} (hs₀ : s₀ = { s with pL2ReadBuffer := s.pL2ReadBuffer.set s.l2FillIdx b' }) :
    ∃ s', s₀.dataFrame dev s.l2FillIdx device b' irp (off + 4) f.body.length f.padLen
        = s'.advance s.l2FillIdx b.length (off + (f.bytes dev.mode).length) ∧
      Taken dev f s s' b b' off := by
  have hpad : f.padLen < f.body.length := f.pad_lt
  have hend := h.body_le
  obtain ⟨hroom, hipRoom⟩ := h.large device irp (by simp [hqueue]) f List.mem_cons_self
  have hlength : b'.length = b.length := by rw [hfields]
  have hlen : (f.payload dev.mode).length = f.body.length - f.padLen := by
    rw [← hpayload, slice_length]
  have hfill : fillIrpData dev irp.length (f.payload dev.mode) = some (if dev.ipOnlyMode then
      setEtherType (dev.ethHdr ++ f.payload dev.mode) else f.payload dev.mode) :=
    fillIrpData_eq (by rw [hlen]; exact hipRoom)
  have hnext : off + 4 + f.body.length + dev.mode.trailer = off + (f.bytes dev.mode).length := by
    rw [f.bytes_length, if_neg (by simp [hdata])]
    omega
  refine ⟨s₀.completeIrp device .success (dev.received f), ?_, ?_⟩
  · rw [State.dataFrame, if_pos (by omega), if_pos hroom, hpayload, hfill, hlength, hnext]
    rfl
  · subst hs₀
    simp only [State.completeIrp, hqueue]
    refine ⟨rfl, rfl, rfl, hfields, hbehind, fun other => ?_, fun frames => ?_,
      [], (List.append_nil _).symm, fun frames => ?_⟩
    · by_cases hother : other = device
      · subst hother
        simp [DevExt.isDataFor, hdata, hdevice, hqueue]
      · simp [DevExt.isDataFor, hdata, hdevice, Function.update_of_ne hother, Ne.symm hother]
    · simp [DevExt.deliveries, hdata, hdevice, hqueue]
    · simp [DevExt.messages, hdata]

/-- In memory the data frame is followed by what it is followed by alone, as far as the trailer. -/
theorem Holds.alone (h : Holds dev (f :: rest) s b off) (hdata : f.isCommand = false)
    (htrailer : dev.mode.trailer = 8) :
    ∀ i < f.body.length + 8, b.buffer (off + 4 + i) = f.alone i := by
  have hhead := h.headAt
  have htake : f.trailer dev.mode = f.dlChecksum := by
    rw [Frame.trailer, hdata, htrailer, ← f.dlChecksum_length]
    simp
  have hslice : slice b.buffer (off + 4) (f.body.length + 8) = f.body ++ f.dlChecksum := by
    have htail := hhead.trailer
    rw [htake, f.dlChecksum_length] at htail
    rw [slice_add, hhead.body, htail]
  intro i hi
  have hcell := congrArg (fun l => l.getD i 0) hslice
  have hleft : (slice b.buffer (off + 4) (f.body.length + 8)).getD i 0 = b.buffer (off + 4 + i) := by
    simp [slice, hi]
  rw [← hleft]
  exact hcell

theorem checksum_trailer {mode : QmapMode} {v3 : Bool} (h : mode.checksum = some v3) :
    mode.trailer = 8 := by
  cases mode <;> first | rfl | cases h

/-- A frame for a device is taken. -/
theorem Holds.taken (h : Holds dev (f :: rest) s b off) (hmin : dev.qmapDLMinPadding = 0)
    (hmux : dev.muxEnabled = true)
    (hlong : 4 + dev.mode.trailer < ((f :: rest).flatMap (·.bytes dev.mode)).length)
    {device : Nat} (hdevice : dev.deviceOf f.muxId = some device)
    (hinside : dev.mode.checksum.isSome → f.isCommand = false →
      ChecksumInside (fun i => b.buffer (off + 4 + i)) f.body.length) :
    ∃ s' b', s.fillReadRequest dev
        = some (s'.advance s.l2FillIdx b.length (off + (f.bytes dev.mode).length)) ∧
      Taken dev f s s' b b' off := by
  have hget : s.getAdapterReadDataItemIrp dev f.muxId
      = (device, (s.readDataQueue device).head?, (s.readDataQueue device).isEmpty) := by
    simp [State.getAdapterReadDataItemIrp, hmux, hdevice]
  rw [h.fillReadRequest, h.qmapFrame_eq hmin hlong, hget]
  cases hcommand : f.isCommand with
  | true =>
    obtain ⟨s', hs', htaken⟩ := h.taken_command hcommand hdevice
    refine ⟨s', b, congrArg some (Eq.trans ?_ hs'), htaken⟩
    cases hqueue : s.readDataQueue device <;> simp
  | false =>
    have hsome : s.readDataQueue device ≠ [] := fun hnil => by
      have hcount := h.enough device
      rw [hnil, List.countP_cons_of_pos (by simp [DevExt.isDataFor, hcommand, hdevice])] at hcount
      simp at hcount
    obtain ⟨irp, irps, hqueue⟩ := List.exists_cons_of_ne_nil hsome
    simp only [hqueue, List.head?_cons, Bool.false_eq_true, if_false]
    cases hchecksum : dev.mode.checksum with
    | none =>
      have hpayload : slice b.buffer (off + 4) (f.body.length - f.padLen) = f.payload dev.mode := by
        rw [Frame.payload, hchecksum, ← slice_take _ _ (Nat.sub_le f.body.length f.padLen),
          h.headAt.body]
      have hs : s = { s with pL2ReadBuffer := s.pL2ReadBuffer.set s.l2FillIdx b } := by
        rw [set_getElem h.getElem]
      obtain ⟨s', hs', htaken⟩ :=
        h.taken_data hcommand hdevice hqueue rfl (fun _ _ => rfl) hpayload hs
      exact ⟨s', b, congrArg some hs', htaken⟩
    | some v3 =>
      have htrailer := checksum_trailer hchecksum
      have hview := hinside (by simp [hchecksum]) hcommand
      have halone := h.alone hcommand htrailer
      have hsize : (f.bytes dev.mode).length = 4 + f.body.length + 8 := by
        rw [f.bytes_length, hcommand, htrailer]
        rfl
      have hzero : ∀ i, f.body.length + 8 ≤ i → f.alone i = 0 := fun i hi => by
        rw [Frame.alone, List.getD_eq_default]
        simpa [f.dlChecksum_length] using hi
      obtain ⟨b', hb'⟩ : ∃ b' : L2Buffer,
        b' = { b with buffer := writeChecksum v3 b.buffer (off + 4) f.body.length } := ⟨_, rfl⟩
      have hfields : b' = { b with buffer := b'.buffer } := by rw [hb']
      have hpayload : slice b'.buffer (off + 4) (f.body.length - f.padLen)
          = f.payload dev.mode := by
        rw [hb', slice_writeChecksum halone hzero hview (by omega), Frame.payload, hchecksum]
      have hbehind : ∀ i, off + (f.bytes dev.mode).length ≤ i → b'.buffer i = b.buffer i := by
        intro i hi
        rw [hb']
        exact writeChecksum_outside hview (.inr (by omega))
      obtain ⟨s', hs', htaken⟩ := h.taken_data hcommand hdevice hqueue hfields hbehind hpayload
        (s.modifyBuffer_const s.l2FillIdx b')
      subst hb'
      exact ⟨s', _, congrArg some hs', htaken⟩

theorem DevExt.ChecksumsInside.congr {mem : Nat → UInt8} {buffer : Nat → UInt8}
    (h : dev.ChecksumsInside buffer off rest) (hsame : ∀ i, off ≤ i → mem i = buffer i) :
    dev.ChecksumsInside mem off rest := by
  induction rest generalizing off with
  | nil => trivial
  | cons f rest ih =>
    refine ⟨fun hsome hdata hdevice => ?_, ih h.2 fun i hi => hsame i (by omega)⟩
    have hview : (fun i => mem (off + 4 + i)) = fun i => buffer (off + 4 + i) :=
      funext fun i => hsame _ (by omega)
    exact hview ▸ h.1 hsome hdata hdevice

/-! ## On to the next frame -/

namespace State

variable (s : State) (i length ptr : Nat)

@[simp] theorem recycleL2FillBuffer_readDataQueue :
    (s.recycleL2FillBuffer i).readDataQueue = s.readDataQueue := by
  unfold recycleL2FillBuffer
  split <;> rfl

@[simp] theorem recycleL2FillBuffer_completed :
    (s.recycleL2FillBuffer i).completed = s.completed := by
  unfold recycleL2FillBuffer
  split <;> rfl

@[simp] theorem recycleL2FillBuffer_controls :
    (s.recycleL2FillBuffer i).controls = s.controls := by
  unfold recycleL2FillBuffer
  split <;> rfl

@[simp] theorem advance_readDataQueue :
    (s.advance i length ptr).readDataQueue = s.readDataQueue := by
  unfold advance
  split
  · exact s.recycleL2FillBuffer_readDataQueue i
  · rfl

@[simp] theorem advance_completed : (s.advance i length ptr).completed = s.completed := by
  unfold advance
  split
  · exact s.recycleL2FillBuffer_completed i
  · rfl

@[simp] theorem advance_controls : (s.advance i length ptr).controls = s.controls := by
  unfold advance
  split
  · exact s.recycleL2FillBuffer_controls i
  · rfl

@[simp] theorem completeIrp_controls (device : Nat) (status : IrpStatus) (data : List UInt8) :
    (s.completeIrp device status data).controls = s.controls := by
  unfold completeIrp
  split <;> rfl

@[simp] theorem dataFrame_controls (dev : DevExt) (device : Nat) (b : L2Buffer) (irp : ReadIrp)
    (ptr pktLen padBytes : Nat) :
    (s.dataFrame dev i device b irp ptr pktLen padBytes).controls = s.controls := by
  unfold dataFrame
  split
  · split
    · simp
    · split
      · split <;> simp
      · simp
  · simp

end State

variable {t : State} {b' : L2Buffer}

theorem Observed.advance (h : Observed dev f s t) (i length ptr : Nat) :
    Observed dev f s (t.advance i length ptr) where
  queue device := by simpa using h.queue device
  completed frames := by simpa using h.completed frames
  controls := by simpa using h.controls

theorem Holds.recycled (h : Holds dev rest s b off) :
    s.recycled s.l2FillIdx = some b.recycled := by
  simp [State.recycled, h.getElem]

theorem Taken.holds (ht : Taken dev f s t b b' off) (h : Holds dev (f :: rest) s b off)
    (hlt : off + (f.bytes dev.mode).length < b.length) :
    Holds dev rest (t.advance s.l2FillIdx b.length (off + (f.bytes dev.mode).length))
      { b' with dataPtr := ⟨s.l2FillIdx, off + (f.bytes dev.mode).length⟩ }
      (off + (f.bytes dev.mode).length) := by
  have hnot : ¬ off + (f.bytes dev.mode).length ≥ b.length := by omega
  obtain ⟨hidx, -⟩ := List.getElem?_eq_some_iff.mp h.getElem
  have hlength : b'.length = b.length := by rw [ht.fields]
  refine ⟨?_, ?_, ?_, ?_, ?_, ?_, ?_, fun device => ?_, fun device irp hirp g hg => ?_⟩
  · rw [State.advance, if_neg hnot]
    simp [State.modifyBuffer, ht.l2FillIdx, ht.buffers, hidx]
  · rw [ht.fields]
    exact h.success
  · rw [ht.fields]
    exact h.state
  · rw [State.advance, if_neg hnot]
    simp [State.modifyBuffer, ht.l2FillIdx]
  · rw [State.advance, if_neg hnot]
    exact ht.idle.trans h.idle
  · exact h.length_cons.trans hlength.symm
  · refine Eq.trans ?_ h.headAt.rest
    rw [show ({ b' with dataPtr := _ } : L2Buffer).length = b.length from hlength]
    refine List.map_congr_left fun k _ => ?_
    exact ht.behind _ (by omega)
  · have henough := h.enough device
    rw [State.advance_readDataQueue, ht.observed.queue]
    by_cases hfor : dev.isDataFor device f = true
    · rw [List.countP_cons_of_pos hfor] at henough
      rw [if_pos hfor, List.length_tail]
      omega
    · rw [List.countP_cons_of_neg hfor] at henough
      rw [if_neg hfor]
      exact henough
  · rw [State.advance_readDataQueue, ht.observed.queue] at hirp
    refine h.large device irp ?_ g (List.mem_cons_of_mem _ hg)
    split at hirp
    · exact List.mem_of_mem_tail hirp
    · exact hirp

end

/-- The transfer is demultiplexed. -/
def Transfer.Exact (t : Transfer) : Prop := Demuxed t.dev t.frames t.start

/-- The transfer of one or two frames in a buffer of its own, with two reads on every device. -/
def transferOf (mode : QmapMode) (frames : List Frame) (hcount : frames.length ≤ 2)
    (hlarge : ∀ f ∈ frames, f.body.length + 14 ≤ 2000)
    (hbytes : slice (fun i => (frames.flatMap (·.bytes mode)).getD i 0) 0
      (frames.flatMap (·.bytes mode)).length = frames.flatMap (·.bytes mode)) : Transfer where
  dev :=
    { mode, muxEnabled := true, self := 0, physicalInterfaceNumber := 2, filterDeviceObj := 0
      adapterList := [⟨0x81, 2, 0⟩, ⟨0x82, 2, 0⟩], ipOnlyMode := true
      ethHdr := List.replicate 14 0, qmapDLMinPadding := 0, maxPipeXferSize := 16384 }
  frames
  start :=
    { pL2ReadBuffer :=
        [⟨fun i => (frames.flatMap (·.bytes mode)).getD i 0, (frames.flatMap (·.bytes mode)).length,
            true, .completed, ⟨0, 0⟩, 0⟩,
          ⟨fun _ => 0, 0, false, .pending, ⟨1, 0⟩, 0⟩]
      l2FillIdx := 0, tlpBufferState := .idle, readDataQueue := fun _ => [⟨0, 2000⟩, ⟨1, 2000⟩]
      completed := [], controls := [] }
  l2Buffer := ⟨fun i => (frames.flatMap (·.bytes mode)).getD i 0,
    (frames.flatMap (·.bytes mode)).length, true, .completed, ⟨0, 0⟩, 0⟩
  muxEnabled := rfl
  noMinPadding := rfl
  holds :=
    { getElem := rfl, success := rfl, state := rfl, dataPtr := rfl, idle := rfl
      length := Nat.zero_add _
      bytes := hbytes
      enough := fun _ => List.countP_le_length.trans hcount
      large := fun _ irp hirp f hf => by
        have hlen := hlarge f hf
        have hsize : irp.length.toNat = 2000 := by
          simp only [List.mem_cons, List.not_mem_nil, or_false] at hirp
          rcases hirp with rfl | rfl <;> rfl
        omega }

end Transport
