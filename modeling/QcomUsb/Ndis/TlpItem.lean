-- SUMMARY: The uplink transfer buffers of the miniport and how a packet is put into one, in every aggregation mode.
import QcomUsb.Library.Memory
import QcomUsb.Transport.QmapChecksum

/-!
# Uplink transfer buffers

A `TLP_BUF_ITEM` collects packets until it is sent. `MPUSB_TLPTxPacketEx` writes each packet at
`CurrentPtr` behind the header of the mode. In MBIM mode the item keeps a table of its datagrams,
which is written behind the last one when the item is sent.
-/

namespace Ndis.Tlp

open Memory Transport

/-- How packets are aggregated. -/
inductive Mode
  | qmapV1
  | qmapV2
  | qmapV3
  | qmapV4
  | mbim
  | tlp
  | plain
deriving DecidableEq

/-- The settings of the adapter. `stripEthernet` is IP mode over 802.3, and `ipv4` and `ipv6` say
whether there is an address of the kind. -/
structure Adapter where
  mode : Mode
  muxId : UInt8
  ndpSignature : UInt32
  uplinkTLPSize : Nat
  mpQuickTx : Bool
  qosEnabled : Bool
  qosHdrFmt : Nat
  stripEthernet : Bool
  ipv4 : Bool
  ipv6 : Bool

/-- `DATAGRAM_STRUCT`. -/
structure Datagram where
  datagramPtr : UInt16
  datagramLen : UInt16
deriving DecidableEq

/-- `NDP_16BIT_HEADER`. -/
structure NdpHeader where
  dwSignature : UInt32
  wLength : UInt16
  wNextNdpIndex : UInt16
deriving DecidableEq

/-- `TLP_BUF_ITEM`. Pointers into the buffer are offsets. An observer keeps the packets that were
put into the item since it was last emptied, and the most packets a purge threw out of it since it
last came back from USB. -/
structure Item where
  buffer : Nat → UInt8
  currentPtr : Nat
  dataLength : Nat
  remainingCapacity : Int
  aggregationCount : Nat
  ndpHeader : NdpHeader
  dataGrams : Nat → Datagram
  accepted : List (List UInt8)
  thrownOut : Nat

/-- A packet for `MPUSB_TLPTxPacketEx`. It is refused when its list was aborted or when it cannot be
read. -/
structure Packet where
  data : List UInt8
  refused : Bool
  flowId : UInt32

/-- `MP_NUM_MBIM_UL_DATAGRAM_ITEMS_DEFAULT`. -/
def numDatagrams : Nat := 1024

/-- The bytes of a `USHORT` in memory. -/
def wordBytes (w : UInt16) : List UInt8 := [UInt8.ofNat w.toNat, UInt8.ofNat (w.toNat / 256)]

/-- The bytes of a `ULONG` in memory. -/
def longBytes (w : UInt32) : List UInt8 :=
  wordBytes (UInt16.ofNat w.toNat) ++ wordBytes (UInt16.ofNat (w.toNat / 65536))

/-- The length of the QoS header. -/
def Adapter.qosLen (a : Adapter) : Nat :=
  if a.qosEnabled then (if a.qosHdrFmt = 2 then 8 else 6) else 0

/-- What a mode puts before a packet: a `QMAP_STRUCT`, with a `QMAP_UL_CHECKSUM` in V2 to V4, or the
length of the packet. -/
def Mode.headerLen : Mode → Nat
  | .qmapV1 => 4
  | .qmapV2 | .qmapV3 | .qmapV4 => 8
  | .tlp => 2
  | .mbim | .plain => 0

/-- V2 and V3 fill in the checksum of the packet. -/
def Mode.fillsChecksum : Mode → Bool
  | .qmapV2 | .qmapV3 => true
  | _ => false

/-- The padding behind a QMAP packet. V4 does not pad. -/
def Mode.paddingBytes (mode : Mode) (sendBytes : Nat) : Nat :=
  if mode ≠ .qmapV4 ∧ 0 < sendBytes % 4 then 4 - sendBytes % 4 else 0

namespace Item

/-- `MPUSB_InitializeTLP` for one item. -/
def initial (a : Adapter) : Item where
  buffer := fun _ => 0
  currentPtr := 0
  dataLength := 0
  remainingCapacity := a.uplinkTLPSize
  aggregationCount := 0
  ndpHeader := ⟨0, 0, 0⟩
  dataGrams := fun _ => ⟨0, 0⟩
  accepted := []
  thrownOut := 0

/-- The item has room for a packet of `sendBytes`. -/
def Fits (a : Adapter) (item : Item) (sendBytes : Nat) : Prop :=
  match a.mode with
  | .qmapV1 => (sendBytes + 8 + 4 : Int) < item.remainingCapacity
  | .qmapV2 | .qmapV3 | .qmapV4 => (sendBytes + 8 + 4 + 4 : Int) < item.remainingCapacity
  | .mbim =>
    (sendBytes + (if item.currentPtr = 0 then 12 else 0) + 8 + 4 * (item.aggregationCount + 2) + 8
      : Int) < item.remainingCapacity ∧ item.aggregationCount < numDatagrams - 2
  | .tlp | .plain => (sendBytes + 8 : Int) < item.remainingCapacity

instance (a : Adapter) (item : Item) (sendBytes : Nat) : Decidable (Fits a item sendBytes) := by
  unfold Fits
  split <;> infer_instance

/-- Where the packet goes: behind its header, and in MBIM mode behind the header of the block. -/
def usbBuffer (a : Adapter) (item : Item) : Nat :=
  item.currentPtr + a.mode.headerLen + if a.mode = .mbim ∧ item.currentPtr = 0 then 12 else 0

/-- The packet takes its bytes. -/
def advance (item : Item) (n : Nat) : Item :=
  { item with
    currentPtr := item.currentPtr + n
    dataLength := item.dataLength + n
    remainingCapacity := item.remainingCapacity - n }

/-- Bytes are written into the buffer. -/
def write (item : Item) (off : Nat) (data : List UInt8) : Item :=
  { item with buffer := copyIn item.buffer off data }

/-- A `USHORT` in the buffer is increased. -/
def addWord (item : Item) (off n : Nat) : Item :=
  item.write off
    (wordBytes (leWord (item.buffer off) (item.buffer (off + 1)) + UInt16.ofNat n))

end Item

/-! ## The packet -/

/-- `MPUSB_PreparePacket` takes the Ethernet header off. -/
def strips (a : Adapter) (p : Nat → UInt8) : Bool :=
  a.stripEthernet && ((beWord p 12 == 0x0800 && a.ipv4) || (beWord p 12 == 0x86dd && a.ipv6))

/-- `MPUSB_RetriveDataPacket`, which leaves room for the QoS header, and `MPUSB_PreparePacket`. The
length that comes back counts the QoS header twice. -/
def Item.placePacket (a : Adapter) (item : Item) (usb : Nat) (data : List UInt8) : Item × Nat :=
  let pkt := usb + a.qosLen
  let item := item.write pkt data
  let sendBytes := data.length + a.qosLen + a.qosLen
  if strips a (fun i => item.buffer (pkt + i)) then
    (item.write pkt (slice item.buffer (pkt + 14) (sendBytes - a.qosLen - 14)), sendBytes - 14)
  else (item, sendBytes)

/-- The packet as it is put into the item. -/
def acceptedPacket (a : Adapter) (data : List UInt8) : List UInt8 :=
  if strips a (fun i => data.getD i 0) then data.drop 14 else data

/-- What the QoS header says. -/
def qosHeader (a : Adapter) (flowId : UInt32) : List UInt8 :=
  if a.qosEnabled then
    [1, 0] ++ longBytes flowId ++ if a.qosHdrFmt = 2 then [0, 0] else []
  else []

/-! ## QMAP -/

/-- `CksumInsertOffsetCU` of a packet whose checksum is at `ck`. -/
def insertOffsetCU (p : Nat → UInt8) (ck : Nat) : UInt16 :=
  0x8000 ||| (if ipVer p = 4 ∨ p 6 = 0x11 then 0x4000 else 0) ||| UInt16.ofNat ck

/-- The `QMAP_UL_CHECKSUM` header of V2 and V3 for the packet that begins at `ip`, and the checksum
of the pseudo header that is filled in for the device to complete. -/
def Item.fillChecksum (item : Item) (header ip : Nat) : Item :=
  let p := fun i => item.buffer (ip + i)
  let start := swappedBytes (UInt16.ofNat (hdrLen p))
  match ckOffset p, fragPacket p with
  | some ck, false =>
    let value := if ipVer p = 4 ∧ p 9 = 0x01 then 0 else checkSum (pseudoHeader p)
    (item.write header (start ++ swappedBytes (insertOffsetCU p ck))).write (ip + ck)
      (wordBytes value)
  | _, _ => item.write header (start ++ wordBytes (if ipVer p = 4 then 0x4000 else 0))

/-- The QMAP branches: padding, the `QMAP_STRUCT` and the checksum header. -/
def Item.writeQmap (a : Adapter) (item : Item) (usb sendBytes : Nat) : Item :=
  let paddingBytes := a.mode.paddingBytes sendBytes
  let item := item.write (usb + sendBytes) (List.replicate paddingBytes 0)
  let sendBytes := sendBytes + paddingBytes
  let item := item.write item.currentPtr
    ([UInt8.ofNat paddingBytes, a.muxId] ++
      swappedBytes (UInt16.ofNat (sendBytes + (a.mode.headerLen - 4))))
  let header := item.currentPtr + 4
  let item :=
    if a.mode.fillsChecksum then item.fillChecksum header (usb + a.qosLen)
    else item.write header (List.replicate (a.mode.headerLen - 4) 0)
  item.advance (sendBytes + a.mode.headerLen)

/-! ## MBIM -/

/-- `dwSignature` of the NDP header. For IP streams it carries the mux id. -/
def ndpSignatureOf (a : Adapter) : UInt32 :=
  if (a.ndpSignature &&& (0x00ffffff : UInt32)) = 0x00535049 then
    (a.ndpSignature &&& (0x00ffffff : UInt32)) ||| (a.muxId.toUInt32 <<< 24)
  else a.ndpSignature

/-- The `NTB_16BIT_HEADER` of a block without datagrams. -/
def ntbBytes (ntbSequence : UInt16) : List UInt8 :=
  [0x4e, 0x43, 0x4d, 0x48] ++ wordBytes 12 ++ wordBytes ntbSequence ++ wordBytes 12 ++ wordBytes 0

/-- The first packet starts a block with an `NTB_16BIT_HEADER`. -/
def Item.startBlock (a : Adapter) (ntbSequence : UInt16) (item : Item) : Item :=
  if item.currentPtr = 0 then
    let item := item.write 0 (ntbBytes ntbSequence)
    { item.advance 12 with
      ndpHeader := { item.ndpHeader with dwSignature := ndpSignatureOf a, wNextNdpIndex := 0 } }
  else item

/-- The packet enters the table of datagrams. -/
def Item.addDatagram (item : Item) (sendBytes : Nat) : Item :=
  let datagram : Datagram := ⟨UInt16.ofNat item.currentPtr, UInt16.ofNat sendBytes⟩
  let item := { item with
    dataGrams := Function.update item.dataGrams item.aggregationCount datagram }
  (item.advance sendBytes).addWord 8 sendBytes

/-- The bytes of `NdpHeader` and of the first datagrams behind it. -/
def ndpBytes (header : NdpHeader) (dataGrams : Nat → Datagram) (n : Nat) : List UInt8 :=
  longBytes header.dwSignature ++ wordBytes header.wLength ++ wordBytes header.wNextNdpIndex ++
    (List.range n).flatMap fun i =>
      wordBytes (dataGrams i).datagramPtr ++ wordBytes (dataGrams i).datagramLen

/-- The length of the NDP with one entry behind the last. -/
def Item.ndpLength (item : Item) : Nat := 8 + (item.aggregationCount + 1) * 4

/-- The NDP is written when the item is sent. `CurrentPtr` stays before it. -/
def Item.writeNdp (item : Item) : Item :=
  let length := item.ndpLength
  let header := { item.ndpHeader with
    wLength := item.ndpHeader.wLength + UInt16.ofNat length }
  let item := { item with
    ndpHeader := header
    buffer := copyIn item.buffer item.currentPtr
      (ndpBytes header item.dataGrams (item.aggregationCount + 1))
    dataLength := item.dataLength + length
    remainingCapacity := item.remainingCapacity - length }
  (item.addWord 8 length).write 10 (wordBytes (UInt16.ofNat item.currentPtr))

/-! ## An item -/

/-- What `MPUSB_TLPTxPacketEx` writes around a packet of `sendBytes` at `usb`. -/
def Item.frame (a : Adapter) (ntbSequence : UInt16) (item : Item) (usb sendBytes : Nat) : Item :=
  match a.mode with
  | .qmapV1 | .qmapV2 | .qmapV3 | .qmapV4 => item.writeQmap a usb sendBytes
  | .mbim => (item.startBlock a ntbSequence).addDatagram sendBytes
  | .tlp =>
    (item.write item.currentPtr (wordBytes (UInt16.ofNat sendBytes))).advance (sendBytes + 2)
  | .plain => item.advance sendBytes

/-- `MPUSB_TLPTxPacketEx` puts a packet into an item, if it fits. -/
def Item.fill (a : Adapter) (ntbSequence : UInt16) (item : Item) (packet : Packet) : Option Item :=
  if Item.Fits a item (packet.data.length + a.qosLen + a.qosLen) then
    let usb := item.usbBuffer a
    let (placed, sendBytes) := item.placePacket a usb packet.data
    let framed := placed.frame a ntbSequence usb sendBytes
    some { framed.write usb (qosHeader a packet.flowId) with
      aggregationCount := item.aggregationCount + 1
      accepted := item.accepted ++ [acceptedPacket a packet.data] }
  else none

/-- The item stays for more packets. -/
def Item.Stays (a : Adapter) (item : Item) : Prop :=
  match a.mode with
  | .mbim => item.aggregationCount < numDatagrams - 2
  | .plain => False
  | _ => True

instance (a : Adapter) (item : Item) : Decidable (Item.Stays a item) := by
  unfold Item.Stays
  split <;> infer_instance

/-- The item is made ready to be sent. -/
def Item.seal (a : Adapter) (item : Item) : Item :=
  if a.mode = .mbim then item.writeNdp else item

/-- `MPUSB_TLPTxIRPCompleteEx` empties the item. -/
def Item.recycle (a : Adapter) (item : Item) : Item :=
  { item with
    currentPtr := 0
    dataLength := 0
    remainingCapacity := a.uplinkTLPSize
    aggregationCount := 0
    ndpHeader := ⟨0, 0, 0⟩
    dataGrams := fun _ => ⟨0, 0⟩
    accepted := []
    thrownOut := 0 }

/-- `MPUSB_PurgeTLPQueuesEx` empties the item without its NDP header and datagrams. -/
def Item.purge (a : Adapter) (item : Item) : Item :=
  { item with
    currentPtr := 0
    dataLength := 0
    remainingCapacity := a.uplinkTLPSize
    aggregationCount := 0
    accepted := []
    thrownOut := max item.thrownOut item.aggregationCount }

/-- What is handed to USB. -/
def Item.sendBuffer (item : Item) : List UInt8 := slice item.buffer 0 item.dataLength

end Ndis.Tlp
