-- SUMMARY: The branches for the frames of a transfer are those that its bytes in the level-2 buffer lead to.
import QcomUsb.Transport.FlowCommands

/-!
# Frames and bytes

The level-1 read thread of the flow control commands takes frames from a list. In the level-2 buffer
they are bytes, and each branch for a frame is the one that `USBMRD_ReadIrpCompletion` takes for the
bytes at `DataPtr`.
-/

namespace Transport.FlowCommands

open Memory

variable {dev : ReadDev} {s : State} {l2 : Transport.State} {x : L2Transfer} {b : L2Buffer}
  {f : Frame} {rest : List Frame} {off : Nat}

/-- What a branch does to the level-2 buffers. `next` is where the next frame begins, and `data` what
a read is filled with. -/
def Branch.effect (dev : ReadDev) (l2 : Transport.State) (fillIdx length next : Nat)
    (data : List UInt8) : Branch → Transport.State
  | .failed => (l2.recycleL2FillBuffer fillIdx).completeIrp dev.self .unsuccessful []
  | .badBundle isEnd =>
    { l2 with tlpBufferState := if isEnd then .idle else .error }.recycleL2FillBuffer fillIdx
  | .endOfBuf | .frameDropped => l2.recycleL2FillBuffer fillIdx
  | .strayCommand f =>
    { l2.recycleL2FillBuffer fillIdx with
      controls := l2.controls ++ [(dev.self, dev.message f)] }.advance fillIdx length next
  | .command device f =>
    { l2 with controls := l2.controls ++ [(device, dev.message f)] }.advance fillIdx length next
  | .wild | .waits => l2
  | .filled device => (l2.completeIrp device .success data).advance fillIdx length next
  | .skipped => l2.advance fillIdx length next
  | .bundleError => { l2 with tlpBufferState := .error }.recycleL2FillBuffer fillIdx
  | .bufferTooSmall device => l2.completeIrp device .bufferTooSmall []

/-- The branch `c` leads to the state `l2'`, where the checksum of a packet may have been written
into the buffer before. -/
def Branch.LeadsTo (dev : ReadDev) (l2 : Transport.State) (b : L2Buffer) (next : Nat)
    (l2' : Transport.State) (c : Branch) : Prop :=
  ∃ b' data, b' = { b with buffer := b'.buffer } ∧
    l2' = c.effect dev (l2.modifyBuffer l2.l2FillIdx fun _ => b') l2.l2FillIdx b.length next data

/-- The buffer at `L2FillIdx` shows the transfer, with the unread frames from `off` on. -/
structure Shows (dev : ReadDev) (s : State) (x : L2Transfer) (l2 : Transport.State) (b : L2Buffer)
    (off : Nat) : Prop where
  buffers : 2 ≤ l2.pL2ReadBuffer.length
  getElem : l2.pL2ReadBuffer[l2.l2FillIdx]? = some b
  success : b.success = x.success
  length : b.length = x.length
  queues : l2.readDataQueue = s.readDataQueue
  tlp : l2.tlpBufferState = s.tlpBufferState
  inside : b.dataPtr.buf = l2.l2FillIdx ↔ s.dataPtrInside = true
  ptr : b.dataPtr.off = off
  remaining : off + (x.frames.flatMap (·.bytes dev.mode)).length = b.length
  bytes : slice b.buffer off (b.length - off) = x.frames.flatMap (·.bytes dev.mode)

theorem modifyBuffer_self (hget : l2.pL2ReadBuffer[l2.l2FillIdx]? = some b) :
    (l2.modifyBuffer l2.l2FillIdx fun _ => b) = l2 := by
  rw [Transport.State.modifyBuffer_const, set_getElem hget]

/-- A branch that leaves the bytes alone. -/
theorem Branch.LeadsTo.untouched {c : Branch} {l2' : Transport.State} {next : Nat}
    (hget : l2.pL2ReadBuffer[l2.l2FillIdx]? = some b)
    (heffect : l2' = c.effect dev l2 l2.l2FillIdx b.length next []) :
    c.LeadsTo dev l2 b next l2' := by
  refine ⟨b, [], rfl, ?_⟩
  rw [modifyBuffer_self hget]
  exact heffect

/-- With two buffers or more the second of two calls does nothing. -/
theorem recycle_recycle (hbuffers : 2 ≤ l2.pL2ReadBuffer.length) :
    (l2.recycleL2FillBuffer l2.l2FillIdx).recycleL2FillBuffer l2.l2FillIdx =
      l2.recycleL2FillBuffer l2.l2FillIdx := by
  have hmoved : l2.l2FillIdx ≠ (l2.recycleL2FillBuffer l2.l2FillIdx).l2FillIdx := by
    unfold Transport.State.recycleL2FillBuffer
    rw [if_neg (not_not.mpr rfl)]
    dsimp only
    split_ifs <;> omega
  rw [Transport.State.recycleL2FillBuffer, if_pos hmoved]

theorem getAdapterReadDataItemIrp_eq (muxId : UInt8) :
    l2.getAdapterReadDataItemIrp dev.toDevExt muxId =
      match dev.target muxId with
      | none => (dev.self, none, false)
      | some device =>
        (device, (l2.readDataQueue device).head?, (l2.readDataQueue device).isEmpty) := by
  unfold Transport.State.getAdapterReadDataItemIrp ReadDev.target
  split_ifs
  · rfl
  · rfl

/-! ## The branches -/

theorem controlFrame_eq (hhead : HeadAt dev.toDevExt f rest b off)
    (hfits : off + 4 + f.body.length ≤ b.length) (fillIdx device : Nat)
    (hcommand : f.isCommand = true) (hpad : dev.padBytes f ≤ f.body.length) :
    l2.controlFrame fillIdx device b (off + 4) f.body.length (dev.padBytes f) =
      { l2 with controls := l2.controls ++ [(device, dev.message f)] }.advance fillIdx b.length
        (off + (f.bytes dev.mode).length) := by
  have hpos := f.pos
  have hmessage : slice b.buffer (off + 4) (f.body.length - dev.padBytes f) = dev.message f := by
    rw [ReadDev.message, ← slice_take _ _ (Nat.sub_le f.body.length (dev.padBytes f)), hhead.body]
  have hnext : off + 4 + f.body.length = off + (f.bytes dev.mode).length := by
    rw [f.bytes_length, if_pos hcommand]
    omega
  rw [Transport.State.controlFrame, if_pos ⟨by omega, hpad, by omega⟩, hmessage, hnext]

theorem controlFrame_eq_recycle {pktLen padBytes : Nat} (hpad : pktLen < padBytes)
    (fillIdx device ptr : Nat) :
    l2.controlFrame fillIdx device b ptr pktLen padBytes = l2.recycleL2FillBuffer fillIdx := by
  rw [Transport.State.controlFrame, if_neg (by omega)]

/-- The branch for a data frame and a read. -/
def dataBranch (dev : ReadDev) (device length : Nat) (f : Frame) (irp : ReadIrp) : Branch :=
  if f.body.length < dev.padBytes f then .endOfBuf
  else if f.body.length ≤ irp.length.toNat then .filled device
  else if f.body.length ≥ ethMaxPacketSize then
    if length = dev.maxPipeXferSize then .bundleError else .skipped
  else .bufferTooSmall device

theorem dataFrame_eq (l2 : Transport.State) (b : L2Buffer)
    (hfits : off + 4 + f.body.length ≤ b.length) (fillIdx device : Nat)
    (hdata : f.isCommand = false) (irp : ReadIrp) :
    ∃ data, l2.dataFrame dev.toDevExt fillIdx device b irp (off + 4) f.body.length
        (dev.padBytes f) =
      (dataBranch dev device b.length f irp).effect dev l2 fillIdx b.length
        (off + (f.bytes dev.mode).length) data := by
  have hpos := f.pos
  have hnext : off + 4 + f.body.length + dev.mode.trailer = off + (f.bytes dev.mode).length := by
    rw [f.bytes_length, if_neg (by simp [hdata])]
    omega
  unfold Transport.State.dataFrame dataBranch
  by_cases hpad : f.body.length < dev.padBytes f
  · rw [if_neg (by omega), if_pos hpad]
    exact ⟨[], rfl⟩
  rw [if_pos ⟨by omega, by omega, by omega, hfits⟩, if_neg hpad]
  by_cases hroom : f.body.length ≤ irp.length.toNat
  · rw [if_pos hroom, if_pos hroom, ← hnext]
    exact ⟨_, rfl⟩
  rw [if_neg hroom, if_neg hroom]
  by_cases hbig : f.body.length ≥ ethMaxPacketSize
  · rw [if_pos hbig, if_pos hbig]
    split_ifs
    · exact ⟨[], rfl⟩
    · rw [← hnext]
      exact ⟨[], rfl⟩
  · rw [if_neg hbig, if_neg hbig]
    exact ⟨[], rfl⟩

/-- The bytes of a frame lead to the branch for the frame. -/
theorem qmapFrame_leadsTo (h : Shows dev s x l2 b off) (hframes : x.frames = f :: rest) :
    (s.frameBranch dev x f rest).LeadsTo dev l2 b (off + (f.bytes dev.mode).length)
      (l2.qmapFrame dev.toDevExt b off) := by
  have hbytes := h.bytes
  have hremaining := h.remaining
  rw [hframes] at hbytes hremaining
  have hhead : HeadAt dev.toDevExt f rest b off := headAt_of_bytes hbytes
  have hfits : off + 4 + f.body.length ≤ b.length := by
    rw [List.flatMap_cons, List.length_append, f.bytes_length] at hremaining
    omega
  have hcommand : (b.buffer off &&& 0x80 ≠ 0) = (f.isCommand = true) := by
    rw [hhead.padCD]
    simp [Frame.isCommand]
  have hpad : ((b.buffer off &&& 0x3f).toNat + dev.qmapDLMinPadding) % 256 = dev.padBytes f := by
    rw [hhead.padCD, ReadDev.padBytes]
  have hqueue (device : Nat) : s.readDataQueue device = l2.readDataQueue device := by
    rw [h.queues]
  have hpos := f.pos
  unfold Transport.State.qmapFrame State.frameBranch
  dsimp only
  by_cases hshort : ((f :: rest).flatMap (·.bytes dev.mode)).length ≤ 4 + dev.mode.trailer
  · rw [if_pos hshort, if_pos (by omega)]
    exact .untouched h.getElem rfl
  rw [if_neg hshort, if_neg (by omega), hhead.muxId, hhead.pktLen, hpad,
    getAdapterReadDataItemIrp_eq]
  simp only [hcommand]
  cases dev.target f.muxId with
  | none =>
    have hdropped (p : Prop) : ¬ (false = true ∧ p) := fun hempty => Bool.false_ne_true hempty.1
    dsimp only
    rw [if_neg (hdropped _)]
    by_cases hcontrol : f.isCommand = true
    · rw [if_pos hcontrol]
      by_cases hpad : dev.padBytes f ≤ f.body.length
      · rw [if_pos ⟨hcontrol, hpad⟩, controlFrame_eq hhead hfits _ _ hcontrol hpad]
        refine .untouched h.getElem ?_
        rw [Branch.effect, Transport.State.recycleL2FillBuffer_controls]
      · rw [if_neg (fun hstray => hpad hstray.2), controlFrame_eq_recycle (Nat.not_le.mp hpad),
          recycle_recycle h.buffers]
        exact .untouched h.getElem rfl
    · rw [if_neg hcontrol, if_neg (fun hstray => hcontrol hstray.1)]
      exact .untouched h.getElem rfl
  | some device =>
    dsimp only
    rw [hqueue]
    cases l2.readDataQueue device with
    | nil =>
      dsimp only [List.head?_nil, List.isEmpty_nil]
      -- the buffer is not dropped for the lack of a read
      have hempty : (true = true ∧ f.body.length ≠ 0 ∧ dev.padBytes f ≤ f.body.length ∧
          f.body.length - dev.padBytes f ≤ b.length) ↔ dev.padBytes f ≤ f.body.length :=
        ⟨fun hall => hall.2.2.1, fun hpad => ⟨rfl, by omega, hpad, by omega⟩⟩
      rw [if_congr hempty rfl rfl]
      by_cases hpad : dev.padBytes f ≤ f.body.length
      · simp only [if_pos hpad]
        cases hcontrol : f.isCommand with
        | true =>
          rw [if_pos rfl, if_pos rfl, controlFrame_eq hhead hfits _ _ hcontrol hpad]
          exact .untouched h.getElem rfl
        | false =>
          rw [if_neg Bool.false_ne_true, if_neg Bool.false_ne_true]
          exact .untouched h.getElem rfl
      · simp only [if_neg hpad]
        cases f.isCommand with
        | true =>
          rw [if_pos rfl, if_pos rfl, controlFrame_eq_recycle (Nat.not_le.mp hpad),
            recycle_recycle h.buffers]
          exact .untouched h.getElem rfl
        | false =>
          rw [if_neg Bool.false_ne_true, if_neg Bool.false_ne_true]
          exact .untouched h.getElem rfl
    | cons irp irps =>
      dsimp only [List.head?_cons]
      cases hcontrol : f.isCommand with
      | true =>
        rw [if_pos rfl, if_pos rfl]
        by_cases hpad : dev.padBytes f ≤ f.body.length
        · rw [if_pos hpad, controlFrame_eq hhead hfits _ _ hcontrol hpad]
          exact .untouched h.getElem rfl
        · rw [if_neg hpad, controlFrame_eq_recycle (Nat.not_le.mp hpad)]
          exact .untouched h.getElem rfl
      | false =>
        rw [if_neg Bool.false_ne_true, if_neg Bool.false_ne_true, ← h.length]
        change Branch.LeadsTo dev l2 b _ _ (dataBranch dev device b.length f irp)
        cases dev.mode.checksum with
        | none =>
          obtain ⟨data, hfilled⟩ := dataFrame_eq l2 b hfits l2.l2FillIdx device hcontrol irp
          exact ⟨b, data, rfl, by rw [modifyBuffer_self h.getElem]; exact hfilled⟩
        | some v3 =>
          let b' := { b with buffer := writeChecksum v3 b.buffer (off + 4) f.body.length }
          obtain ⟨data, hfilled⟩ := dataFrame_eq (l2.modifyBuffer l2.l2FillIdx fun _ => b') b' hfits
            l2.l2FillIdx device hcontrol irp
          exact ⟨_, data, rfl, hfilled⟩

/-- The bytes at `DataPtr` lead to the branch for the transfer. -/
theorem readIrpCompletion_leadsTo (h : Shows dev s x l2 b off) :
    match l2.readIrpCompletion dev.toDevExt b with
    | none => s.branch dev x = .wild
    | some l2' => ∃ next, (s.branch dev x).LeadsTo dev l2 b next l2' := by
  unfold Transport.State.readIrpCompletion State.branch
  rw [h.success, h.tlp]
  cases x.success with
  | false => exact ⟨0, .untouched h.getElem rfl⟩
  | true =>
    rw [if_pos rfl, if_neg Bool.false_ne_true.symm]
    cases htlp : s.tlpBufferState with
    | error =>
      have hsame : l2 = { l2 with tlpBufferState := .error } := by
        rw [← htlp, ← h.tlp]
      refine ⟨0, .untouched h.getElem ?_⟩
      rw [Branch.effect, h.length]
      by_cases hend : x.length < dev.maxPipeXferSize
      · rw [if_pos hend, if_pos (decide_eq_true hend)]
      · rw [if_neg hend, if_neg (by simpa using hend), ← hsame]
    | idle =>
      dsimp only
      by_cases hinside : s.dataPtrInside = true
      · rw [if_pos (h.inside.mpr hinside), if_neg (by simp [hinside]), h.ptr]
        cases hframes : x.frames with
        | nil =>
          have hend := h.remaining
          rw [hframes, List.flatMap_nil, List.length_nil] at hend
          have hrecycled : l2.qmapFrame dev.toDevExt b off =
              l2.recycleL2FillBuffer l2.l2FillIdx := by
            rw [Transport.State.qmapFrame, if_pos (by omega)]
          exact ⟨0, .untouched h.getElem hrecycled⟩
        | cons f rest => exact ⟨_, qmapFrame_leadsTo h hframes⟩
      · rw [if_neg (fun hptr => hinside (h.inside.mp hptr)), if_pos (by simpa using hinside)]

end Transport.FlowCommands
