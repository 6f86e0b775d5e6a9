-- SUMMARY: The read path of the USB transport in the QMAP modes: level-2 buffers, mux adapters and their reads.
import QcomUsb.Transport.QmapChecksum

/-!
# QMAP reads

The level-1 read thread takes the level-2 buffers in turn. Each call of `USBMRD_FillReadRequest`
handles one QMAP frame of the buffer at `L2FillIdx`: a data frame is copied into a read of the
adapter with its `MuxId`, a command frame is processed. `DataPtr` is where the next frame begins.
-/

namespace Transport

open Memory

/-- `QMAPEnabledV1` to `QMAPEnabledV4`. -/
inductive QmapMode
  | v1
  | v2
  | v3
  | v4
deriving DecidableEq

namespace QmapMode

/-- `sizeof(QCQMAP_DL_CHECKSUM)` in the modes that add one to each data frame. -/
def trailer : QmapMode → Nat
  | .v1 => 0
  | _ => 8

/-- The modes that write the transport checksum, and whether it is of V3. -/
def checksum : QmapMode → Option Bool
  | .v2 => some false
  | .v3 => some true
  | _ => none

end QmapMode

/-- The fields of an `MP_ADAPTER` on `GlobalData.AdapterList`, and of its device, that say which
frames it gets. -/
structure MuxAdapter where
  muxId : UInt8
  physicalInterfaceNumber : UInt8
  filterDeviceObj : Nat
deriving DecidableEq

/-- The settings of a device. The devices are numbered as their adapters on `AdapterList`, and
`self` is the one that reads from USB. -/
structure DevExt where
  mode : QmapMode
  muxEnabled : Bool
  self : Nat
  physicalInterfaceNumber : UInt8
  filterDeviceObj : Nat
  adapterList : List MuxAdapter
  ipOnlyMode : Bool
  ethHdr : List UInt8
  qmapDLMinPadding : Nat
  maxPipeXferSize : Nat

/-- A read IRP: which one, and the length of its buffer. -/
structure ReadIrp where
  irp : Nat
  length : UInt32
deriving DecidableEq

inductive IrpStatus
  | success
  | bufferTooSmall
  | unsuccessful
deriving DecidableEq

/-- A completed read, with the device it was queued on and its data. -/
structure CompletedRead where
  device : Nat
  irp : ReadIrp
  status : IrpStatus
  data : List UInt8
deriving DecidableEq

/-- A pointer into a level-2 buffer. -/
structure L2Ptr where
  buf : Nat
  off : Nat
deriving DecidableEq

inductive L2BufState
  | ready
  | pending
  | completed
deriving DecidableEq

/-- The fields of a `USBMRD_L2BUFFER`. An observer counts how often it was recycled. -/
structure L2Buffer where
  buffer : Nat → UInt8
  length : Nat
  success : Bool
  state : L2BufState
  dataPtr : L2Ptr
  recycled : Nat

inductive TlpBufferState
  | idle
  | error
deriving DecidableEq

/-- The level-2 buffers and the reads queued on each device. An observer keeps the completed reads
and the control messages that were processed, with the device. -/
structure State where
  pL2ReadBuffer : List L2Buffer
  l2FillIdx : Nat
  tlpBufferState : TlpBufferState
  readDataQueue : Nat → List ReadIrp
  completed : List CompletedRead
  controls : List (Nat × List UInt8)

/-- `ETH_MAX_PACKET_SIZE`. -/
def ethMaxPacketSize : Nat := 1514

/-- `sizeof(QCUSB_ETH_HDR)`. -/
def ethHdrSize : Nat := 14

/-- `USBUTL_SetEtherType`. -/
def setEtherType (packet : List UInt8) : List UInt8 :=
  if ((packet.getD ethHdrSize 0 &&& 0xf0) >>> 4) = 6 then (packet.set 12 0x86).set 13 0xdd
  else packet

/-- `QCMRD_FillIrpData`: the data the read is completed with, if they fit. -/
def fillIrpData (dev : DevExt) (bufferSize : UInt32) (data : List UInt8) : Option (List UInt8) :=
  if dev.ipOnlyMode then
    if data.length > (bufferSize - 14).toNat then none
    else some (setEtherType (dev.ethHdr ++ data))
  else some data

namespace DevExt

/-- The adapter has the mux id and is on the same physical interface. -/
def serves (dev : DevExt) (muxId : UInt8) (adapter : MuxAdapter) : Bool :=
  adapter.muxId == muxId &&
    dev.physicalInterfaceNumber == adapter.physicalInterfaceNumber &&
    adapter.filterDeviceObj == dev.filterDeviceObj

/-- The device of the first adapter with the mux id. -/
def deviceOf (dev : DevExt) (muxId : UInt8) : Option Nat :=
  dev.adapterList.findIdx? (dev.serves muxId)

end DevExt

namespace State

/-- `GetAdapterReadDataItemIrp`, or the head of the own queue without mux: the device, the head of
its queue, and whether it is empty. -/
def getAdapterReadDataItemIrp (dev : DevExt) (s : State) (muxId : UInt8) :
    Nat × Option ReadIrp × Bool :=
  if dev.muxEnabled then
    match dev.deviceOf muxId with
    | none => (dev.self, none, false)
    | some device => (device, (s.readDataQueue device).head?, (s.readDataQueue device).isEmpty)
  else (dev.self, (s.readDataQueue dev.self).head?, (s.readDataQueue dev.self).isEmpty)

def modifyBuffer (s : State) (i : Nat) (f : L2Buffer → L2Buffer) : State :=
  { s with pL2ReadBuffer := s.pL2ReadBuffer.modify i f }

/-- `USBMRD_RecycleL2FillBuffer`. -/
def recycleL2FillBuffer (s : State) (fillIdx : Nat) : State :=
  if fillIdx ≠ s.l2FillIdx then s
  else
    { s.modifyBuffer fillIdx fun b =>
        { b with
          success := false
          length := 0
          state := .ready
          dataPtr := ⟨fillIdx, 0⟩
          recycled := b.recycled + 1 } with
      l2FillIdx := if fillIdx + 1 = s.pL2ReadBuffer.length then 0 else fillIdx + 1 }

/-- The frame is done with: the buffer at `fillIdx` is recycled at its end, or `DataPtr` of the one
at `L2FillIdx` is set to the next frame. -/
def advance (s : State) (fillIdx length dataPtr : Nat) : State :=
  if dataPtr ≥ length then s.recycleL2FillBuffer fillIdx
  else s.modifyBuffer s.l2FillIdx fun b => { b with dataPtr := ⟨fillIdx, dataPtr⟩ }

/-- The read at the head of a queue is completed. -/
def completeIrp (s : State) (device : Nat) (status : IrpStatus) (data : List UInt8) : State :=
  match s.readDataQueue device with
  | [] => s
  | irp :: rest =>
    { s with
      readDataQueue := Function.update s.readDataQueue device rest
      completed := s.completed ++ [⟨device, irp, status, data⟩] }

/-- A command frame: `USBIF_QMAPProcessControlMessage`, and on to the next frame. -/
def controlFrame (s : State) (fillIdx device : Nat) (b : L2Buffer)
    (dataPtr pktLen padBytes : Nat) : State :=
  if pktLen ≠ 0 ∧ padBytes ≤ pktLen ∧ pktLen - padBytes ≤ b.length then
    { s with
      controls := s.controls ++ [(device, slice b.buffer dataPtr (pktLen - padBytes))] }.advance
        fillIdx b.length (dataPtr + pktLen)
  else s.recycleL2FillBuffer fillIdx

/-- A data frame is copied into a read: the part of `USBMRD_ReadIrpCompletion` that the modes
share. -/
def dataFrame (dev : DevExt) (s : State) (fillIdx device : Nat) (b : L2Buffer) (irp : ReadIrp)
    (dataPtr pktLen padBytes : Nat) : State :=
  if pktLen ≠ 0 ∧ padBytes ≤ pktLen ∧ pktLen - padBytes ≤ b.length ∧
      dataPtr + pktLen ≤ b.length then
    if pktLen ≤ irp.length.toNat then
      let data := fillIrpData dev irp.length (slice b.buffer dataPtr (pktLen - padBytes))
      (s.completeIrp device .success (data.getD [])).advance fillIdx b.length
        (dataPtr + pktLen + dev.mode.trailer)
    else if pktLen ≥ ethMaxPacketSize then
      if b.length = dev.maxPipeXferSize then
        { s with tlpBufferState := .error }.recycleL2FillBuffer fillIdx
      else s.advance fillIdx b.length (dataPtr + pktLen + dev.mode.trailer)
    else s.completeIrp device .bufferTooSmall []
  else s.recycleL2FillBuffer fillIdx

/-- The branches of `USBMRD_ReadIrpCompletion` for a QMAP header at `off`. -/
def qmapFrame (dev : DevExt) (s : State) (b : L2Buffer) (off : Nat) : State :=
  let fillIdx := s.l2FillIdx
  if off ≤ b.length ∧ b.length - off ≤ 4 + dev.mode.trailer then s.recycleL2FillBuffer fillIdx
  else
    let padCD := b.buffer off
    let pktLen := (beWord b.buffer (off + 2)).toNat
    let padBytes := ((padCD &&& 0x3f).toNat + dev.qmapDLMinPadding) % 256
    match s.getAdapterReadDataItemIrp dev (b.buffer (off + 1)) with
    | (device, none, readQueueEmpty) =>
      -- without a read the buffer is dropped, unless the reads have only run out
      let s :=
        if readQueueEmpty ∧ pktLen ≠ 0 ∧ padBytes ≤ pktLen ∧ pktLen - padBytes ≤ b.length then s
        else s.recycleL2FillBuffer fillIdx
      if padCD &&& 0x80 ≠ 0 then s.controlFrame fillIdx device b (off + 4) pktLen padBytes else s
    | (device, some irp, _) =>
      if padCD &&& 0x80 ≠ 0 then s.controlFrame fillIdx device b (off + 4) pktLen padBytes
      else
        match dev.mode.checksum with
        | none => s.dataFrame dev fillIdx device b irp (off + 4) pktLen padBytes
        | some v3 =>
          let b := { b with buffer := writeChecksum v3 b.buffer (off + 4) pktLen }
          (s.modifyBuffer fillIdx fun _ => b).dataFrame dev fillIdx device b irp (off + 4) pktLen
            padBytes

/-- `USBMRD_ReadIrpCompletion`. It goes wrong if `DataPtr` is not in the buffer. -/
def readIrpCompletion (dev : DevExt) (s : State) (b : L2Buffer) : Option State :=
  if b.success then
    match s.tlpBufferState with
    | .idle => if b.dataPtr.buf = s.l2FillIdx then some (s.qmapFrame dev b b.dataPtr.off) else none
    | .error =>
      let s := if b.length < dev.maxPipeXferSize then { s with tlpBufferState := .idle } else s
      some (s.recycleL2FillBuffer s.l2FillIdx)
  else
    some ((s.recycleL2FillBuffer s.l2FillIdx).completeIrp dev.self .unsuccessful [])

/-- `USBMRD_FillReadRequest`. -/
def fillReadRequest (dev : DevExt) (s : State) : Option State :=
  match s.pL2ReadBuffer[s.l2FillIdx]? with
  | none => none
  | some b =>
    if b.state ≠ .completed then some s
    else if b.success ∧ b.length = 0 then some (s.recycleL2FillBuffer s.l2FillIdx)
    else s.readIrpCompletion dev b

end State

end Transport
