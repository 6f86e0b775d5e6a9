-- SUMMARY: The read path of the USB transport with downlink TLP: packets are put together from the level-2 buffers.
import QcomUsb.Library.Pieces
import QcomUsb.Library.Transition
import QcomUsb.Transport.QmapRead

/-!
# TLP reads

A TLP packet is a 16-bit word, whose low 11 bits are a length, and a payload. The device sends the
packets as one stream, which arrives cut into transfers. A call of `USBMRD_FillReadRequest` handles
what the level-2 buffer at `L2FillIdx` holds from `DataPtr` on: a whole packet, or the part of one
that waits in `TlpFrameBuffer` for the next transfer.
-/

namespace Transport.TlpReads

open Memory Transition Pieces

/-- `QCTLP_BUF_STATE`. -/
inductive TlpBufState
  | idle
  | partialFill
  | partialHdr
  | hdrOnly
  | error
deriving DecidableEq

/-- `QCTLP_TMP_BUF`. -/
structure TlpFrameBuffer where
  buffer : Nat → Option UInt8
  pktLength : UInt16
  bytesNeeded : UInt16

/-- The settings of a device. -/
structure Device where
  ipOnlyMode : Bool
  ethHdr : List UInt8
  ethHdr_length : ethHdr.length = ethHdrSize
  maxPipeXferSize : Nat

/-- A completed read: the length of its buffer, its `IoStatus`, and what was written into it. -/
structure CompletedRead where
  length : UInt32
  status : IrpStatus
  information : Nat
  buffer : Nat → Option UInt8

/-- The completed level-2 buffers from `L2FillIdx` on, with `DataPtr` of the first one, and the
lengths of the pending reads. `coming` are the transfers that the device has still to send. An
observer keeps the completed reads. -/
structure State where
  tlpBufferState : TlpBufState
  frame : TlpFrameBuffer
  coming : List (List UInt8)
  transfers : List (List UInt8)
  dataPtr : Nat
  readDataQueue : List UInt32
  completed : List CompletedRead

/-- What happens: a transfer completes, a read of some length is queued, the read thread calls
`USBMRD_FillReadRequest`. -/
inductive Op
  | transferCompletes
  | read (length : UInt32)
  | fill

/-- `QCUSB_RECEIVE_BUFFER_SIZE`, the size of `TlpFrameBuffer`. -/
def receiveBufferSize : Nat := 4 * 1024 + 50

/-- `QCTLP_MASK_LENGTH`. -/
def maskLength : UInt16 := 0x07ff

/-- `USBUTL_SetEtherType`. -/
def setEtherType (packet : Nat → Option UInt8) : Nat → Option UInt8 :=
  if (((packet ethHdrSize).getD 0 &&& 0xf0) >>> 4) = 6 then
    copyIn packet 12 [some 0x86, some 0xdd]
  else packet

/-- `QCMRD_FillIrpData`: the status, and the buffer of the read after it. -/
def fillIrpData (dev : Device) (irpBuffer : Nat → Option UInt8) (bufferSize : UInt32)
    (data : List (Option UInt8)) : IrpStatus × (Nat → Option UInt8) :=
  if dev.ipOnlyMode then
    if data.length > (bufferSize - 14).toNat then (.bufferTooSmall, irpBuffer)
    else (.success, setEtherType (copyIn (copyIn irpBuffer 0 (dev.ethHdr.map some)) ethHdrSize data))
  else (.success, copyIn irpBuffer 0 data)

/-- `IoStatus.Information` after `QCMRD_FillIrpData`, for a packet with `n` bytes. -/
def Device.information (dev : Device) (nts : IrpStatus) (n : Nat) : Nat :=
  if nts = .success then
    if dev.ipOnlyMode then n + ethHdrSize else n
  else 0

namespace State

/-- `USBMRD_RecycleL2FillBuffer`. -/
def recycleL2FillBuffer (s : State) : State := { s with transfers := s.transfers.tail, dataPtr := 0 }

/-- `USBMRD_RecycleFrameBuffer`. -/
def recycleFrameBuffer (s : State) : State :=
  { s with frame := { s.frame with pktLength := 0, bytesNeeded := 0 } }

/-- The bytes before `dataPtr` are done with. At its end the buffer is recycled. -/
def advance (s : State) (l2Length dataPtr : Nat) : State :=
  if dataPtr ≥ l2Length then s.recycleL2FillBuffer else { s with dataPtr := dataPtr }

/-- The read at the head of the queue is completed. -/
def completeIrp (s : State) (r : CompletedRead) : State :=
  { s with readDataQueue := s.readDataQueue.tail, completed := s.completed ++ [r] }

/-- The rest of the buffer goes into `TlpFrameBuffer`: the first bytes of `needed`. -/
def keepRest (s : State) (l2 : List UInt8) (dataPtr : Nat) (needed : UInt16) (st : TlpBufState) :
    State :=
  let tmpLen := UInt16.ofNat (l2.length - dataPtr)
  { s with
    frame := ⟨copyIn s.frame.buffer 0 ((l2.drop dataPtr).map some), tmpLen, needed - tmpLen⟩
    tlpBufferState := st }.recycleL2FillBuffer

/-- A packet whose payload begins at `dataPtr` of the buffer, in `QCTLP_BUF_STATE_IDLE` and
`QCTLP_BUF_STATE_HDR_ONLY`. -/
def takePacket (dev : Device) (s : State) (l2 : List UInt8) (reqLength : UInt32) (dataPtr : Nat)
    (pktLen : UInt16) : State :=
  if pktLen ≠ 0 ∧ pktLen.toNat ≤ l2.length ∧ dataPtr + pktLen.toNat ≤ l2.length then
    if pktLen.toNat ≤ reqLength.toNat then
      let filled := fillIrpData dev (fun _ => none) reqLength
        (((l2.drop dataPtr).take pktLen.toNat).map some)
      (s.completeIrp
        ⟨reqLength, .success, dev.information filled.1 pktLen.toNat, filled.2⟩).advance
          l2.length (dataPtr + pktLen.toNat)
    else if pktLen.toNat ≥ ethMaxPacketSize then
      if l2.length = dev.maxPipeXferSize then
        { s with tlpBufferState := .error }.recycleL2FillBuffer
      else s.advance l2.length (dataPtr + pktLen.toNat)
    else s.completeIrp ⟨reqLength, .bufferTooSmall, 0, fun _ => none⟩
  else if pktLen.toNat ≤ reqLength.toNat then s.keepRest l2 dataPtr pktLen .partialFill
  else if pktLen.toNat ≥ ethMaxPacketSize then
    if l2.length = dev.maxPipeXferSize then
      { s with tlpBufferState := .error }.recycleL2FillBuffer
    else s.recycleL2FillBuffer
  else s.completeIrp ⟨reqLength, .bufferTooSmall, 0, fun _ => none⟩

/-- `QCTLP_BUF_STATE_IDLE`. -/
def takeHeader (dev : Device) (s : State) (l2 : List UInt8) (reqLength : UInt32) : State :=
  let remBytes := l2.length - s.dataPtr
  if remBytes > 2 then
    s.takePacket dev l2 reqLength (s.dataPtr + 2)
      (leWord (l2.getD s.dataPtr 0) (l2.getD (s.dataPtr + 1) 0) &&& maskLength)
  else if remBytes = 2 then s.keepRest l2 s.dataPtr 2 .hdrOnly
  else if remBytes > 0 then s.keepRest l2 s.dataPtr 2 .partialHdr
  else s.recycleL2FillBuffer

/-- `QCTLP_BUF_STATE_HDR_ONLY`. -/
def takePayload (dev : Device) (s : State) (l2 : List UInt8) (reqLength : UInt32) : State :=
  { s.recycleFrameBuffer with tlpBufferState := .idle }.takePacket dev l2 reqLength s.dataPtr
    (leWord ((s.frame.buffer 0).getD 0) ((s.frame.buffer 1).getD 0) &&& maskLength)

/-- `QCTLP_BUF_STATE_PARTIAL_HDR`. -/
def completeHeader (s : State) (l2 : List UInt8) : State :=
  let needed := s.frame.bytesNeeded.toNat
  { s with
    frame := { s.frame with
      buffer := copyIn s.frame.buffer s.frame.pktLength.toNat
        (((l2.drop s.dataPtr).take needed).map some) }
    tlpBufferState := .hdrOnly }.advance l2.length (s.dataPtr + needed)

/-- `QCTLP_BUF_STATE_PARTIAL_FILL`. -/
def secondLeg (dev : Device) (s : State) (l2 : List UInt8) (reqLength : UInt32) : State :=
  let pktLength := s.frame.pktLength.toNat
  let needed := s.frame.bytesNeeded.toNat
  if needed > l2.length then
    { s with tlpBufferState := .error }.recycleFrameBuffer.recycleL2FillBuffer
  else
    let filled := fillIrpData dev (fun _ => none) reqLength (slice s.frame.buffer 0 pktLength)
    ({ s.recycleFrameBuffer with tlpBufferState := .idle }.completeIrp
      ⟨reqLength, .success, dev.information filled.1 (pktLength + needed),
        copyIn filled.2 pktLength (((l2.drop s.dataPtr).take needed).map some)⟩).advance
          l2.length (s.dataPtr + needed)

/-- `QCTLP_BUF_STATE_ERROR`. -/
def discard (dev : Device) (s : State) (l2 : List UInt8) : State :=
  if l2.length < dev.maxPipeXferSize then { s with tlpBufferState := .idle }.recycleL2FillBuffer
  else s.recycleL2FillBuffer

/-- `USBMRD_ReadIrpCompletion`. -/
def readIrpCompletion (dev : Device) (s : State) (l2 : List UInt8) (reqLength : UInt32) : State :=
  match s.tlpBufferState with
  | .idle => s.takeHeader dev l2 reqLength
  | .hdrOnly => s.takePayload dev l2 reqLength
  | .partialHdr => s.completeHeader l2
  | .partialFill => s.secondLeg dev l2 reqLength
  | .error => s.discard dev l2

/-- `USBMRD_FillReadRequest`. It does nothing without a completed buffer or without a pending
read. -/
def fillReadRequest (dev : Device) (s : State) : Option State :=
  match s.transfers, s.readDataQueue with
  | [], _ => none
  | [] :: _, _ => some s.recycleL2FillBuffer
  | (_ :: _) :: _, [] => none
  | l2@(_ :: _) :: _, reqLength :: _ => some (s.readIrpCompletion dev l2 reqLength)

end State

/-- The read thread starts, and the transfers are still to come. -/
def initial (ts : List (List UInt8)) : State :=
  ⟨.idle, ⟨fun _ => none, 0, 0⟩, ts, [], 0, [], []⟩

def step (dev : Device) : Machine State Op Unit
  | s, .transferCompletes =>
    match s.coming with
    | [] => none
    | t :: coming => some ({ s with transfers := s.transfers ++ [t], coming := coming }, ())
  | s, .read length => some ({ s with readDataQueue := s.readDataQueue ++ [length] }, ())
  | s, .fill => (s.fillReadRequest dev).map (·, ())

def Op.isFill : Op → Bool
  | .fill => true
  | _ => false

/-- The number of calls of the read thread in a run. -/
def calls (dev : Device) (ts : List (List UInt8)) (ops : List Op) : Nat :=
  ((step dev).fires (initial ts) ops).countP fun p => p.2.isFill

/-! ## What is sent and what is to be read -/

/-- A packet on the wire. -/
structure TlpPacket where
  length : UInt16
  payload : List UInt8
  length_eq : (length &&& maskLength).toNat = payload.length

def TlpPacket.bytes (p : TlpPacket) : List UInt8 :=
  UInt8.ofNat p.length.toNat :: UInt8.ofNat (p.length.toNat / 256) :: p.payload

def stream (ps : List TlpPacket) : List UInt8 := ps.flatMap TlpPacket.bytes

/-- No packet has more than two transfers. `start` is where the first packet begins. -/
def SpansTwo (ts : List (List UInt8)) : Nat → List TlpPacket → Prop
  | _, [] => True
  | start, p :: back =>
    CutOnce ts start (start + p.bytes.length) ∧ SpansTwo ts (start + p.bytes.length) back

/-- The transfers are a way to cut the stream of the packets. -/
structure CutOf (ts : List (List UInt8)) (ps : List TlpPacket) : Prop where
  flatten_eq : ts.flatten = stream ps
  nonempty : ∀ t ∈ ts, t ≠ []
  spans : SpansTwo ts 0 ps

/-- What the read of a packet is to hold. -/
def TlpPacket.frame (dev : Device) (p : TlpPacket) : List UInt8 :=
  if dev.ipOnlyMode then Transport.setEtherType (dev.ethHdr ++ p.payload) else p.payload

/-- The packets that are to be read. -/
def nonEmpty (ps : List TlpPacket) : List TlpPacket := ps.filter fun p => p.payload ≠ []

/-- The read carries the packet, and nothing was written past its buffer. -/
structure Delivers (dev : Device) (r : CompletedRead) (p : TlpPacket) : Prop where
  status : r.status = .success
  information : r.information = (p.frame dev).length
  fits : r.information ≤ r.length.toNat
  buffer : r.buffer = written (p.frame dev)

/-- The reads completed so far carry the packets sent so far, and once all transfers have come and
nothing is left to do, enough reads carry all of them. -/
structure State.Transparent (dev : Device) (ps : List TlpPacket) (s : State) : Prop where
  delivered : List.Forall₂ (Delivers dev) s.completed ((nonEmpty ps).take s.completed.length)
  inFrame : ∀ i, receiveBufferSize ≤ i → s.frame.buffer i = none
  noError : s.tlpBufferState ≠ .error
  all : s.coming = [] → s.fillReadRequest dev = none →
    (nonEmpty ps).length ≤ s.completed.length + s.readDataQueue.length →
      s.completed.length = (nonEmpty ps).length

/-- A read is long enough for all the packets. -/
def Op.Roomy (ps : List TlpPacket) : Op → Prop
  | .read length => ∀ p ∈ ps, ethHdrSize + p.payload.length ≤ length.toNat
  | _ => True

/-- The packet is handed over as it is. In `IPOnlyMode` the payload must not be cut. An empty packet
must be followed by empty packets only, which are in one transfer and fit into `TlpFrameBuffer`. -/
def HandedOver (dev : Device) (ts : List (List UInt8)) (start : Nat) (p : TlpPacket)
    (back : List TlpPacket) : Prop :=
  if p.payload = [] then
    (∀ q ∈ back, q.payload = []) ∧ 2 * back.length ≤ receiveBufferSize ∧
      Uncut ts (start + 2) (start + 2 + 2 * back.length)
  else dev.ipOnlyMode → Uncut ts (start + 2) (start + 2 + p.payload.length)

/-- All packets are handed over as they are. -/
def Reassembles (dev : Device) (ts : List (List UInt8)) : Nat → List TlpPacket → Prop
  | _, [] => True
  | start, p :: back =>
    HandedOver dev ts start p back ∧ Reassembles dev ts (start + p.bytes.length) back

instance (dev : Device) (ts : List (List UInt8)) (start : Nat) (p : TlpPacket)
    (back : List TlpPacket) : Decidable (HandedOver dev ts start p back) :=
  inferInstanceAs (Decidable (ite _ _ _))

instance decidableSpansTwo (ts : List (List UInt8)) :
    (start : Nat) → (ps : List TlpPacket) → Decidable (SpansTwo ts start ps)
  | _, [] => .isTrue trivial
  | start, p :: back =>
    have := decidableSpansTwo ts (start + p.bytes.length) back
    inferInstanceAs (Decidable (_ ∧ _))

instance decidableReassembles (dev : Device) (ts : List (List UInt8)) :
    (start : Nat) → (ps : List TlpPacket) → Decidable (Reassembles dev ts start ps)
  | _, [] => .isTrue trivial
  | start, p :: back =>
    have := decidableReassembles dev ts (start + p.bytes.length) back
    inferInstanceAs (Decidable (_ ∧ _))

end Transport.TlpReads
