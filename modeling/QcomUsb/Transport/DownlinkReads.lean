-- SUMMARY: The downlink parsers of the USB read path in all modes, with the bytes of the level-2 buffer they access.
import QcomUsb.Library.Footprint
import QcomUsb.Transport.TlpReads

/-!
# Downlink parsers

A call of `USBMRD_ReadIrpCompletion` takes one QMAP frame, TLP packet or MBIM datagram from the
level-2 buffer at `L2FillIdx`. Here it is followed through one transfer, in every mode, together with
the bytes of the buffer that it reads and writes. The device chooses what the transfer holds, and the
memory behind the transfer may hold anything.
-/

namespace Transport.Downlink

open Memory Footprint TlpReads

/-- The first of the settings that is on: `QMAPEnabledV4` to `QMAPEnabledV1`, `bEnableDataBundling`
of the downlink, `MBIMDLEnabled`. -/
inductive Mode
  | qmap (mode : QmapMode)
  | tlp
  | mbim
deriving DecidableEq

/-- The settings of a device. -/
structure Device where
  mode : Mode
  muxEnabled : Bool
  qmapDLMinPadding : Nat
  ipOnlyMode : Bool
  maxPipeXferSize : Nat

/-- What a call finds: the length of the read at the head of the own queue, and of the queue of the
adapter with a `MuxId`, if there is such an adapter. `answers` says that a flow control command can be
answered. -/
structure Reads where
  own : Option UInt32
  adapter : UInt8 → Option (Option UInt32)
  answers : Bool

/-- There is a read in every queue. -/
def Reads.Available (reads : Reads) : Prop :=
  reads.own.isSome ∧ ∀ muxId, reads.adapter muxId ≠ some none

/-- A transfer in a level-2 buffer, and how far it was read: `DataPtr` and `nextIndex` are offsets in
the buffer. An observer notes that the buffer was recycled, that `DataPtr` of the buffer behind it was
set into this one, and which NDPs were walked. -/
structure Transfer where
  buffer : Nat → UInt8
  length : Nat
  dataPtr : Nat
  nextIndex : Nat
  tlpBufferState : TlpBufState
  frame : TlpFrameBuffer
  recycled : Bool
  strayed : Bool
  walked : List Nat

/-- A `USHORT` in memory. -/
def word (b : Nat → UInt8) (i : Nat) : Nat := (leWord (b i) (b (i + 1))).toNat

/-- A `ULONG` in memory is zero. -/
def ZeroAt (b : Nat → UInt8) (i : Nat) : Prop := word b i = 0 ∧ word b (i + 2) = 0

instance (b : Nat → UInt8) (i : Nat) : Decidable (ZeroAt b i) := instDecidableAnd

namespace Device

/-- `GetAdapterReadDataItemIrp`, or the head of the own queue without mux: a read, and whether the
queue is empty. -/
def getAdapterReadDataItemIrp (dev : Device) (reads : Reads) (muxId : UInt8) :
    Option UInt32 × Bool :=
  if dev.muxEnabled then
    match reads.adapter muxId with
    | none => (none, false)
    | some read => (read, read.isNone)
  else (reads.own, reads.own.isNone)

/-- `QCMRD_FillIrpData` copies the packet, unless the read is too short for it in `IPOnlyMode`. -/
def fillIrpData (dev : Device) (bufferSize : UInt32) (off len : Nat) : List Range :=
  if dev.ipOnlyMode ∧ len > (bufferSize - 14).toNat then [] else [⟨off, len⟩]

end Device

/-- `sizeof(QCQMAP_FLOWCONTROL_STRUCT)`. -/
def flowControlSize : Nat := 16

/-- `QMAP_FLOWCONTROL_COMMAND_PAUSE` or `QMAP_FLOWCONTROL_COMMAND_RESUME`, with a `CmdType` of
zero. -/
def IsFlowControl (b : Nat → UInt8) (off : Nat) : Prop :=
  (b off = 1 ∨ b off = 2) ∧ b (off + 1) &&& 3 = 0

instance (b : Nat → UInt8) (off : Nat) : Decidable (IsFlowControl b off) := instDecidableAnd

/-- `USBIF_QMAPProcessControlMessage`: `CommandName` and `CmdType`, then `TransactionId`, and
`FlowCtrlSeqNumIp` for the answer. -/
def processControlMessage (reads : Reads) (b : Nat → UInt8) (off size : Nat) : List Range :=
  if size ≠ flowControlSize then []
  else if IsFlowControl b off then
    if ¬ZeroAt b (off + 4) ∧ reads.answers then [⟨off, 2⟩, ⟨off + 4, 4⟩, ⟨off + 8, 4⟩]
    else [⟨off, 2⟩, ⟨off + 4, 4⟩]
  else [⟨off, 2⟩]

/-- What the checksum of a packet reads: the first byte, the fields of the pseudo header, and, for a
protocol that it knows, its field, `CksumValue` in the trailer, the IP header in V3, and the fragment
offset. It writes its field only. -/
def checksumAccesses (v3 : Bool) (b : Nat → UInt8) (off pktLen : Nat) : List Range :=
  let p := fun i => b (off + i)
  (if ipVer p = 4 then [⟨off, 1⟩, ⟨off + 2, 2⟩, ⟨off + 9, 1⟩, ⟨off + 12, 8⟩]
    else [⟨off, 1⟩, ⟨off + 4, 3⟩, ⟨off + 8, 32⟩]) ++
    match ckOffset p with
    | none => []
    | some ck =>
      ⟨off + ck, 2⟩ :: ⟨off + pktLen + 6, 2⟩ ::
        ((if v3 then [⟨off, hdrLen p⟩] else []) ++ if ipVer p = 4 then [⟨off + 6, 2⟩] else [])

namespace Transfer

/-- `USBMRD_RecycleL2FillBuffer`. -/
def recycleL2FillBuffer (s : Transfer) : Transfer := { s with recycled := true }

/-- The bytes before `dataPtr` are done with. At its end the buffer is recycled. If it was recycled
before, `DataPtr` of the buffer behind it is set. -/
def advance (s : Transfer) (dataPtr : Nat) : Transfer :=
  if dataPtr ≥ s.length then s.recycleL2FillBuffer
  else if s.recycled then { s with strayed := true }
  else { s with dataPtr := dataPtr }

/-- The packet is within the buffer, as `USBMRD_ReadIrpCompletion` checks it. -/
def Accepts (s : Transfer) (dataPtr pktLen padBytes : Nat) : Prop :=
  pktLen ≠ 0 ∧ padBytes ≤ pktLen ∧ pktLen - padBytes ≤ s.length ∧ dataPtr + pktLen ≤ s.length

instance (s : Transfer) (dataPtr pktLen padBytes : Nat) :
    Decidable (s.Accepts dataPtr pktLen padBytes) :=
  instDecidableAnd

/-- A packet for a read: the part of `USBMRD_ReadIrpCompletion` that the modes share. `behind` goes on
behind the packet, and `bad` is for one that is not within the buffer. -/
def takePacket (dev : Device) (s : Transfer) (reqLength : UInt32) (dataPtr pktLen padBytes : Nat)
    (behind bad : Traced Transfer) : Traced Transfer :=
  if s.Accepts dataPtr pktLen padBytes then
    if pktLen ≤ reqLength.toNat then
      .touch (dev.fillIrpData reqLength dataPtr (pktLen - padBytes)) behind
    else if pktLen ≥ ethMaxPacketSize then
      if s.length = dev.maxPipeXferSize then
        .of { s with tlpBufferState := .error }.recycleL2FillBuffer
      else behind
    -- the read is completed with STATUS_BUFFER_TOO_SMALL, the packet waits for the next one
    else .of s
  else bad

/-! ## QMAP -/

/-- `PacketLen` of the QMAP header at `DataPtr`. -/
def packetLen (s : Transfer) : Nat := (beWord s.buffer (s.dataPtr + 2)).toNat

/-- `padBytes`, in a `UCHAR`. -/
def padBytes (dev : Device) (s : Transfer) : Nat :=
  ((s.buffer s.dataPtr &&& 0x3f).toNat + dev.qmapDLMinPadding) % 256

/-- The QMAP header at `DataPtr` is that of a command. -/
def IsCommand (s : Transfer) : Prop := s.buffer s.dataPtr &&& 0x80 ≠ 0

instance (s : Transfer) : Decidable s.IsCommand := instDecidableNot

/-- The length of the frame, compared with that of the buffer. -/
def Fits (dev : Device) (s : Transfer) : Prop :=
  s.packetLen ≠ 0 ∧ s.padBytes dev ≤ s.packetLen ∧ s.packetLen - s.padBytes dev ≤ s.length

instance (dev : Device) (s : Transfer) : Decidable (s.Fits dev) := instDecidableAnd

/-- There is no room for a QMAP header with a frame behind it. -/
def AtEnd (s : Transfer) (mode : QmapMode) : Prop :=
  s.dataPtr ≤ s.length ∧ s.length - s.dataPtr ≤ 4 + mode.trailer

instance (s : Transfer) (mode : QmapMode) : Decidable (s.AtEnd mode) := instDecidableAnd

/-- A command frame. Where it ends is not checked. -/
def controlFrame (dev : Device) (reads : Reads) (s : Transfer) : Traced Transfer :=
  if s.Fits dev then
    .touch (processControlMessage reads s.buffer (s.dataPtr + 4) (s.packetLen - s.padBytes dev))
      (.of (s.advance (s.dataPtr + 4 + s.packetLen)))
  else .of s.recycleL2FillBuffer

/-- A frame without a read: the buffer is dropped, unless the reads have only run out. -/
def withoutRead (dev : Device) (s : Transfer) (readQueueEmpty : Bool) : Transfer :=
  if readQueueEmpty ∧ s.Fits dev then s else s.recycleL2FillBuffer

/-- A data frame for a read. The checksum is written before the length is checked. -/
def dataFrame (dev : Device) (s : Transfer) (mode : QmapMode) (reqLength : UInt32) :
    Traced Transfer :=
  let off := s.dataPtr + 4
  let pktLen := s.packetLen
  let padBytes := s.padBytes dev
  let take := fun t : Transfer =>
    t.takePacket dev reqLength off pktLen padBytes (.of (t.advance (off + pktLen + mode.trailer)))
      (.of t.recycleL2FillBuffer)
  match mode.checksum with
  | none => take s
  | some v3 =>
    .touch (checksumAccesses v3 s.buffer off pktLen)
      (take { s with buffer := writeChecksum v3 s.buffer off pktLen })

/-- The branches for a QMAP header at `DataPtr`. -/
def qmapFrame (dev : Device) (reads : Reads) (s : Transfer) (mode : QmapMode) : Traced Transfer :=
  if s.AtEnd mode then .of s.recycleL2FillBuffer
  else
    .touch [⟨s.dataPtr, 4⟩]
      (match dev.getAdapterReadDataItemIrp reads (s.buffer (s.dataPtr + 1)) with
      | (none, readQueueEmpty) =>
        if s.IsCommand then (s.withoutRead dev readQueueEmpty).controlFrame dev reads
        else .of (s.withoutRead dev readQueueEmpty)
      | (some reqLength, _) =>
        if s.IsCommand then s.controlFrame dev reads else s.dataFrame dev mode reqLength)

/-! ## TLP -/

/-- The rest of the buffer goes into `TlpFrameBuffer`: the first bytes of `needed`. -/
def keepRest (s : Transfer) (dataPtr : Nat) (needed : UInt16) (st : TlpBufState) :
    Traced Transfer :=
  let tmpLen := UInt16.ofNat (s.length - dataPtr)
  .touch [⟨dataPtr, s.length - dataPtr⟩]
    (.of { s with
      frame := ⟨copyIn s.frame.buffer 0
        ((slice s.buffer dataPtr (s.length - dataPtr)).map some), tmpLen, needed - tmpLen⟩
      tlpBufferState := st }.recycleL2FillBuffer)

/-- A packet whose payload begins at `dataPtr`. -/
def takePayload (dev : Device) (s : Transfer) (reqLength : UInt32) (dataPtr : Nat)
    (pktLen : UInt16) : Traced Transfer :=
  s.takePacket dev reqLength dataPtr pktLen.toNat 0
    (.of (s.advance (dataPtr + pktLen.toNat)))
    (if pktLen.toNat ≤ reqLength.toNat then s.keepRest dataPtr pktLen .partialFill
    else if pktLen.toNat ≥ ethMaxPacketSize then
      if s.length = dev.maxPipeXferSize then
        .of { s with tlpBufferState := .error }.recycleL2FillBuffer
      else .of s.recycleL2FillBuffer
    else .of s)

/-- The length in the TLP header at `DataPtr`. -/
def tlpLength (s : Transfer) : UInt16 :=
  leWord (s.buffer s.dataPtr) (s.buffer (s.dataPtr + 1)) &&& maskLength

/-- The length in the TLP header that waits in `TlpFrameBuffer`. -/
def keptLength (s : Transfer) : UInt16 :=
  leWord ((s.frame.buffer 0).getD 0) ((s.frame.buffer 1).getD 0) &&& maskLength

/-- `QCTLP_BUF_STATE_IDLE` with TLP. -/
def takeHeader (dev : Device) (s : Transfer) (reqLength : UInt32) : Traced Transfer :=
  let remBytes := s.length - s.dataPtr
  if remBytes > 2 then
    .touch [⟨s.dataPtr, 2⟩] (s.takePayload dev reqLength (s.dataPtr + 2) s.tlpLength)
  else if remBytes = 2 then s.keepRest s.dataPtr 2 .hdrOnly
  else if remBytes > 0 then s.keepRest s.dataPtr 2 .partialHdr
  else .of s.recycleL2FillBuffer

/-- `USBMRD_RecycleFrameBuffer`. -/
def recycleFrameBuffer (s : Transfer) : Transfer :=
  { s with frame := { s.frame with pktLength := 0, bytesNeeded := 0 } }

/-- `QCTLP_BUF_STATE_PARTIAL_HDR`. -/
def completeHeader (s : Transfer) : Traced Transfer :=
  let needed := s.frame.bytesNeeded.toNat
  .touch [⟨s.dataPtr, needed⟩]
    (.of ({ s with
      frame := { s.frame with
        buffer := copyIn s.frame.buffer s.frame.pktLength.toNat
          ((slice s.buffer s.dataPtr needed).map some) }
      tlpBufferState := .hdrOnly }.advance (s.dataPtr + needed)))

/-- `QCTLP_BUF_STATE_PARTIAL_FILL`. -/
def secondLeg (s : Transfer) : Traced Transfer :=
  let needed := s.frame.bytesNeeded.toNat
  if needed > s.length then
    .of { s with tlpBufferState := .error }.recycleFrameBuffer.recycleL2FillBuffer
  else
    .touch [⟨s.dataPtr, needed⟩]
      (.of ({ s.recycleFrameBuffer with tlpBufferState := .idle }.advance (s.dataPtr + needed)))

/-- `QCTLP_BUF_STATE_ERROR`. -/
def discard (dev : Device) (s : Transfer) : Traced Transfer :=
  if s.length < dev.maxPipeXferSize then .of { s with tlpBufferState := .idle }.recycleL2FillBuffer
  else .of s.recycleL2FillBuffer

/-! ## MBIM -/

/-- `wNdpIndex` of the NTB header. -/
def ndpIndex (s : Transfer) : Nat := word s.buffer 10

/-- The datagram entry that a call reads, `nextIndex` as it finds it there, and the NDPs walked so
far. Where `DataPtr` is the first byte of the buffer, they are those of the NDP at `wNdpIndex`. -/
def entry (s : Transfer) : Nat := if s.dataPtr = 0 then s.ndpIndex + 8 else s.dataPtr

def following (s : Transfer) : Nat :=
  if s.dataPtr = 0 then word s.buffer (s.ndpIndex + 6) else s.nextIndex

def passed (s : Transfer) : List Nat := if s.dataPtr = 0 then [s.ndpIndex] else s.walked

/-- The NDP at `wNdpIndex` is entered. -/
def enterNdp (s : Transfer) : Transfer := { s with nextIndex := s.following, walked := s.passed }

/-- Behind a datagram: the next entry of the table, or the table of the NDP at `nextIndex`. -/
def nextDatagram (s : Transfer) (entry : Nat) : Traced Transfer :=
  .touch [⟨entry, 4⟩]
    (if ZeroAt s.buffer entry then
      if s.nextIndex ≠ 0 then
        .touch [⟨s.nextIndex + 6, 2⟩]
          (.of { s with
            nextIndex := word s.buffer (s.nextIndex + 6)
            dataPtr := s.nextIndex + 8
            walked := s.nextIndex :: s.walked })
      else .of s.recycleL2FillBuffer
    else .of { s with dataPtr := entry })

/-- The datagram of the entry at `entry`. -/
def takeDatagram (dev : Device) (s : Transfer) (reqLength : UInt32) (entry : Nat) :
    Traced Transfer :=
  .touch [⟨entry, 4⟩]
    (s.takePacket dev reqLength (word s.buffer entry) (word s.buffer (entry + 2)) 0
      (s.nextDatagram (entry + 4)) (.of s.recycleL2FillBuffer))

/-- `QCTLP_BUF_STATE_IDLE` with MBIM. -/
def mbimDatagram (dev : Device) (s : Transfer) (reqLength : UInt32) : Traced Transfer :=
  if s.dataPtr = 0 then
    .touch [⟨8, 2⟩]
      (if word s.buffer 8 ≠ s.length then .of s.recycleL2FillBuffer
      else
        .touch [⟨10, 2⟩, ⟨s.ndpIndex + 6, 2⟩]
          (s.enterNdp.takeDatagram dev reqLength s.entry))
  else s.takeDatagram dev reqLength s.entry

/-! ## A call -/

/-- `USBMRD_ReadIrpCompletion`. The states of a packet that was cut are those of TLP. -/
def readIrpCompletion (dev : Device) (reads : Reads) (s : Transfer) : Traced Transfer :=
  match dev.mode, reads.own with
  | .qmap mode, _ =>
    if s.tlpBufferState = .error then s.discard dev else s.qmapFrame dev reads mode
  | .tlp, some reqLength =>
    match s.tlpBufferState with
    | .idle => s.takeHeader dev reqLength
    | .hdrOnly =>
      { s.recycleFrameBuffer with tlpBufferState := .idle }.takePayload dev reqLength s.dataPtr
        s.keptLength
    | .partialHdr => s.completeHeader
    | .partialFill => s.secondLeg
    | .error => s.discard dev
  | .mbim, some reqLength =>
    if s.tlpBufferState = .error then s.discard dev else s.mbimDatagram dev reqLength
  -- without QMAP nothing is done for want of a read
  | .tlp, none | .mbim, none => .of s

/-- A call of the read thread, as long as the buffer holds the transfer. -/
def call (dev : Device) (reads : Reads) (s : Transfer) : Traced Transfer :=
  if s.recycled then .of s else s.readIrpCompletion dev reads

/-- The transfer after some calls. -/
def after (dev : Device) (reads : Nat → Reads) (s : Transfer) : Nat → Transfer
  | 0 => s
  | k + 1 => ((s.after dev reads k).call dev (reads k)).next

/-! ## What is promised -/

/-- A transfer before its first call. The states of a packet that was cut are those of TLP, and of a
header that was cut one byte is missing. -/
structure Fresh (dev : Device) (s : Transfer) : Prop where
  nonempty : 0 < s.length
  start : s.dataPtr = 0
  recycled : s.recycled = false
  strayed : s.strayed = false
  walked : s.walked = []
  uncut : dev.mode ≠ .tlp → s.tlpBufferState = .idle ∨ s.tlpBufferState = .error
  header : s.tlpBufferState = .partialHdr → s.frame.bytesNeeded = 1

/-- A transfer as it arrives, with the TLP state that the transfers before it left. -/
def arrives (buffer : Nat → UInt8) (length : Nat) (st : TlpBufState) (frame : TlpFrameBuffer) :
    Transfer :=
  ⟨buffer, length, 0, 0, st, frame, false, false, []⟩

/-- The calls stay inside the transfer and leave `DataPtr` of the buffer behind it alone. With reads
always available the buffer is recycled. -/
structure Total (dev : Device) (reads : Nat → Reads) (s : Transfer) : Prop where
  inside : ∀ k, ((s.after dev reads k).call dev (reads k)).Inside s.length
  handsOn : ∀ k, (s.after dev reads k).strayed = false
  recycled : (∀ k, (reads k).Available) → ∃ k, (s.after dev reads k).recycled = true

/-! ## When it is kept -/

/-- The fields of a flow control command that are read are inside. -/
def CommandInside (reads : Reads) (b : Nat → UInt8) (n off size : Nat) : Prop :=
  size = flowControlSize → off + 2 ≤ n ∧
    (IsFlowControl b off → off + 8 ≤ n ∧ (¬ZeroAt b (off + 4) → reads.answers → off + 12 ≤ n))

/-- The IP header of a packet is inside, and so are the checksum field and the trailer of a protocol
that is known. -/
def PacketInside (b : Nat → UInt8) (n off pktLen : Nat) : Prop :=
  off + (if ipVer (fun i => b (off + i)) = 4 then 20 else 40) ≤ n ∧
    ∀ ck ∈ ckOffset fun i => b (off + i), off + ck + 2 ≤ n ∧ off + pktLen + 8 ≤ n

/-- What is read of a QMAP frame is inside. -/
def QmapInside (dev : Device) (reads : Reads) (s : Transfer) (mode : QmapMode) : Prop :=
  ¬s.AtEnd mode →
    (s.IsCommand → s.Fits dev →
      CommandInside reads s.buffer s.length (s.dataPtr + 4) (s.packetLen - s.padBytes dev)) ∧
    (¬s.IsCommand → mode.checksum.isSome →
      (dev.getAdapterReadDataItemIrp reads (s.buffer (s.dataPtr + 1))).1.isSome →
        PacketInside s.buffer s.length (s.dataPtr + 4) s.packetLen)

/-- The call goes on behind a packet for a read. -/
def GoesOn (dev : Device) (s : Transfer) (reqLength : UInt32) (dataPtr pktLen padBytes : Nat) :
    Prop :=
  s.Accepts dataPtr pktLen padBytes ∧ (pktLen ≤ reqLength.toNat ∨
    (ethMaxPacketSize ≤ pktLen ∧ s.length ≠ dev.maxPipeXferSize))

/-- What is read of the headers and the datagram tables is inside. -/
def MbimInside (dev : Device) (s : Transfer) (reqLength : UInt32) : Prop :=
  (s.dataPtr = 0 → 10 ≤ s.length ∧
    (word s.buffer 8 = s.length → 12 ≤ s.length ∧ s.ndpIndex + 8 ≤ s.length)) ∧
  ((s.dataPtr = 0 → word s.buffer 8 = s.length) →
    s.entry + 4 ≤ s.length ∧
    (s.GoesOn dev reqLength (word s.buffer s.entry) (word s.buffer (s.entry + 2)) 0 →
      s.entry + 8 ≤ s.length ∧
      (ZeroAt s.buffer (s.entry + 4) → s.following ≠ 0 → s.following + 8 ≤ s.length)))

/-- What a call reads of headers, tables, commands and checksums is inside. With TLP it always is. -/
def HeadersInside (dev : Device) (reads : Reads) (s : Transfer) : Prop :=
  s.recycled = false → s.tlpBufferState ≠ .error →
    match dev.mode with
    | .qmap mode => s.QmapInside dev reads mode
    | .tlp => True
    | .mbim => ∀ reqLength ∈ reads.own, s.MbimInside dev reqLength

/-- A command frame for a `MuxId` without an adapter, with more behind it. -/
def Strays (dev : Device) (reads : Reads) (s : Transfer) : Prop :=
  s.recycled = false ∧ s.tlpBufferState ≠ .error ∧ ∃ mode, dev.mode = .qmap mode ∧
    ¬s.AtEnd mode ∧ dev.getAdapterReadDataItemIrp reads (s.buffer (s.dataPtr + 1)) = (none, false) ∧
    s.IsCommand ∧ s.Fits dev ∧ s.dataPtr + 4 + s.packetLen < s.length

/-- The packet that a call finds, by its length, and the read for it. -/
def found (dev : Device) (reads : Reads) (s : Transfer) : Option (Nat × UInt32) :=
  match dev.mode with
  | .qmap _ =>
    (dev.getAdapterReadDataItemIrp reads (s.buffer (s.dataPtr + 1))).1.map (s.packetLen, ·)
  | .tlp =>
    reads.own.map ((if s.tlpBufferState = .hdrOnly then s.keptLength else s.tlpLength).toNat, ·)
  | .mbim => reads.own.map (word s.buffer (s.entry + 2), ·)

/-- The read is too short for a packet that is not too long for Ethernet. -/
def TooShort (dev : Device) (reads : Reads) (s : Transfer) : Prop :=
  s.recycled = false ∧ ∃ len reqLength, s.found dev reads = some (len, reqLength) ∧
    reqLength.toNat < len ∧ len < ethMaxPacketSize

/-- At the end of a datagram table the chain leads to an NDP that was walked before. -/
def LeadsBack (dev : Device) (s : Transfer) : Prop :=
  s.recycled = false ∧ dev.mode = .mbim ∧ ZeroAt s.buffer (s.entry + 4) ∧ s.following ≠ 0 ∧
    s.following ∈ s.passed

/-- All calls find what they read inside the transfer, and no command frame for an unknown `MuxId` has
more behind it. With reads always available, the reads do not stay too short, and from some call on
the chain of NDPs leads back no more. -/
structure Guarded (dev : Device) (reads : Nat → Reads) (s : Transfer) : Prop where
  headers : ∀ k, (s.after dev reads k).HeadersInside dev (reads k)
  adapters : ∀ k, ¬(s.after dev reads k).Strays dev (reads k)
  fits : (∀ k, (reads k).Available) → ∀ k, ∃ j ≥ k, ¬(s.after dev reads j).TooShort dev (reads j)
  forward : (∀ k, (reads k).Available) → ∃ k, ∀ j ≥ k, ¬(s.after dev reads j).LeadsBack dev

end Transfer

end Transport.Downlink
