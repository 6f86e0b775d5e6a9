-- SUMMARY: QMAP framing: the encoder qmap_mux, the decoder GobiNetDriver_rx_fixup, and the round trip between them.
import QcomUsb.Library.Memory
import QcomUsb.UsbNet.Device

/-!
# QMAP framing

`qmap_mux` puts a QMAP header in front of an IP packet and pads it to a multiple of
four bytes. `GobiNetDriver_rx_fixup` walks over a receive buffer and delivers the
payload of the data frames up to the first command frame. Between the two stands
`QmapFrame`, the frame format.
-/

namespace UsbNet

open Memory

/-- `qmap_t`. -/
structure QmapHdr where
  cdRsvdPad : UInt8
  muxId : UInt8
  /-- In network byte order. -/
  pktLen : UInt16
  deriving DecidableEq, Repr

namespace QmapHdr

/-- `sizeof(qmap_t)`. -/
abbrev size : Nat := 4

def toBytes (h : QmapHdr) : List UInt8 :=
  [h.cdRsvdPad, h.muxId, lowByte h.pktLen, highByte h.pktLen]

/-- The header at `off`. -/
def read (mem : Nat → UInt8) (off : Nat) : QmapHdr :=
  ⟨mem off, mem (off + 1), ofBytes (mem (off + 2)) (mem (off + 3))⟩

/-- `qhdr->cd_rsvd_pad & 0x3f`. -/
def padLen (h : QmapHdr) : Nat := (h.cdRsvdPad &&& 0x3f).toNat

/-- `ntohs(qhdr->pkt_len)`. -/
def packetLen (h : QmapHdr) : Nat := (ntohs h.pktLen).toNat

/-- The top bit of the first byte marks a command frame. -/
def isCommand (h : QmapHdr) : Bool := h.cdRsvdPad &&& 0x80 != 0

@[simp] theorem toBytes_length (h : QmapHdr) : h.toBytes.length = size := rfl

theorem read_of_slice {mem : Nat → UInt8} {off : Nat} {h : QmapHdr}
    (hs : slice mem off size = h.toBytes) : read mem off = h := by
  simp only [slice, size, toBytes, List.range_succ, List.range_zero, List.nil_append,
    List.cons_append, List.map_cons, List.map_nil, List.cons.injEq, Nat.add_zero,
    and_true] at hs
  obtain ⟨h0, h1, h2, h3⟩ := hs
  simp [read, h0, h1, h2, h3]

end QmapHdr

/-! ## Sending -/

/-- The padding `qmap_mux` appends to a packet of this length. -/
def paddingCount (ippacketLen : Nat) : Nat :=
  if ippacketLen % 4 > 0 then 4 - ippacketLen % 4 else 0

/-- The header `qmap_mux` writes. -/
def qmapMuxHdr (ippacketLen data : Nat) : QmapHdr where
  cdRsvdPad := 0 ||| UInt8.ofNat (paddingCount ippacketLen)
  muxId := UInt8.ofNat data
  pktLen := htons (UInt16.ofNat (ippacketLen + paddingCount ippacketLen))

/-- `qmap_mux`: `skb_push` of the header, `skb_put` of the zeroed padding. -/
def qmapMux (skb : List UInt8) (data : Nat) : List UInt8 :=
  (qmapMuxHdr skb.length data).toBytes ++ skb ++ List.replicate (paddingCount skb.length) 0

theorem paddingCount_lt (n : Nat) : paddingCount n < 4 := by
  unfold paddingCount
  split <;> omega

theorem add_paddingCount_mod (n : Nat) : (n + paddingCount n) % 4 = 0 := by
  unfold paddingCount
  split <;> omega

@[simp] theorem qmapMux_length (skb : List UInt8) (data : Nat) :
    (qmapMux skb data).length = QmapHdr.size + skb.length + paddingCount skb.length := by
  simp [qmapMux]
  omega

theorem qmapMuxHdr_cdRsvdPad_toNat (n data : Nat) :
    (qmapMuxHdr n data).cdRsvdPad.toNat = paddingCount n := by
  have h := paddingCount_lt n
  simp only [qmapMuxHdr]
  interval_cases paddingCount n <;> rfl

theorem qmapMuxHdr_padLen (n data : Nat) : (qmapMuxHdr n data).padLen = paddingCount n := by
  have h := paddingCount_lt n
  simp only [QmapHdr.padLen, qmapMuxHdr]
  interval_cases paddingCount n <;> rfl

theorem qmapMuxHdr_not_command (n data : Nat) : (qmapMuxHdr n data).isCommand = false := by
  have h := paddingCount_lt n
  simp only [QmapHdr.isCommand, qmapMuxHdr]
  interval_cases paddingCount n <;> rfl

/-- The length field holds the padded length as long as that fits 16 bits. -/
theorem qmapMuxHdr_packetLen {n : Nat} (data : Nat) (hn : n ≤ 65532) :
    (qmapMuxHdr n data).packetLen = n + paddingCount n := by
  have hp := paddingCount_lt n
  have hm := add_paddingCount_mod n
  simp only [QmapHdr.packetLen, qmapMuxHdr, ntohs, htons, swab16_swab16, UInt16.toNat_ofNat']
  omega

/-! ## Receiving -/

/-- The receive buffer `skb_in`: memory from `skb_in->data` on, of which the first
`skb_in->len` bytes were received. -/
structure SkIn where
  data : Nat → UInt8
  len : Nat

/-- The received bytes. -/
def SkIn.bytes (skbIn : SkIn) : List UInt8 := slice skbIn.data 0 skbIn.len

/-- A packet handed to `usbnet_skb_return`. -/
structure Delivery where
  dev : NetDev
  protocol : UInt16
  data : List UInt8
  deriving DecidableEq, Repr

/-- What a call does: the packets it delivers, and the blocks of `skb_in->data` it
reads, each as its offset and length. -/
structure RxLog where
  delivered : List Delivery
  reads : List (Nat × Nat)

/-- `ETH_P_IP`. -/
def ethPIp : UInt16 := 0x0800

/-- `ETH_P_IPV6`. -/
def ethPIpv6 : UInt16 := 0x86DD

/-- `qmap_ip_ethertype`: the protocol by the version nibble. Any other packet keeps
the protocol it has. -/
def qmapIpEthertype (skb : List UInt8) (protocol : UInt16) : UInt16 :=
  if skb.headD 0 &&& 0xf0 = 0x40 then cpuToBe16 ethPIp
  else if skb.headD 0 &&& 0xf0 = 0x60 then cpuToBe16 ethPIpv6
  else protocol

/-- The net device a frame is for. An unknown mux id stays on the receiving device. -/
def rxDev (devIn : NetDev) (muxId : UInt8) : NetDev :=
  if muxId.toNat ≠ devIn.data1 then
    if h : muxId.toNat ≤ 0x84 ∧ 0x81 ≤ muxId.toNat then
      if h1 : muxId.toNat = 0x81 then .mpNetDev
      else .mpNetMUXDev ⟨muxId.toNat - 0x81 - 1, by simp only [maxMuxDevices]; omega⟩
    else devIn
  else devIn

/-- The new skb `skbn`: a fresh skb has protocol 0, and what is not IPv4 is taken for
IPv6. -/
def rxDeliver (dev : NetDev) (payload : List UInt8) : Delivery where
  dev := dev
  protocol :=
    if qmapIpEthertype payload 0 = cpuToBe16 ethPIp then cpuToBe16 ethPIp else cpuToBe16 ethPIpv6
  data := payload

/-- The loop of `GobiNetDriver_rx_fixup` from `offset` on. -/
def rxLoop (devIn : NetDev) (skbIn : SkIn) (offset : Nat) : RxLog :=
  if offset < skbIn.len then
    let qhdr := QmapHdr.read skbIn.data offset
    let dev := rxDev devIn qhdr.muxId
    -- a command packet ends the walk
    if qhdr.isCommand then ⟨[], [(offset, QmapHdr.size)]⟩
    else
      let rest := rxLoop devIn skbIn (offset + (qhdr.packetLen + QmapHdr.size))
      if qhdr.padLen < qhdr.packetLen then
        let n := qhdr.packetLen - qhdr.padLen
        let payload := slice skbIn.data (offset + QmapHdr.size) n
        ⟨rxDeliver dev payload :: rest.delivered,
          (offset, QmapHdr.size) :: (offset + QmapHdr.size, n) :: rest.reads⟩
      else ⟨rest.delivered, (offset, QmapHdr.size) :: rest.reads⟩
  else ⟨[], []⟩
termination_by skbIn.len - offset
decreasing_by
  -- a header is at least read, so every turn advances
  simp only [QmapHdr.size]
  omega

/-- `GobiNetDriver_rx_fixup`, which always returns 1. -/
def gobiNetDriverRxFixup (devIn : NetDev) (skbIn : SkIn) : RxLog := rxLoop devIn skbIn 0

/-! ## The frame format -/

/-- A QMAP frame: a header and a body of the length the header gives, whose last
`padLen` bytes are padding. -/
structure QmapFrame where
  hdr : QmapHdr
  body : List UInt8
  len_eq : hdr.packetLen = body.length
  pad_le : hdr.padLen ≤ body.length

namespace QmapFrame

def bytes (f : QmapFrame) : List UInt8 := f.hdr.toBytes ++ f.body

/-- The body without its padding. -/
def payload (f : QmapFrame) : List UInt8 := f.body.take (f.body.length - f.hdr.padLen)

@[simp] theorem bytes_length (f : QmapFrame) : f.bytes.length = QmapHdr.size + f.body.length := by
  simp [bytes]

@[simp] theorem payload_length (f : QmapFrame) :
    f.payload.length = f.body.length - f.hdr.padLen := by
  simp [payload]

/-- What a data frame delivers. -/
def deliveries (devIn : NetDev) (f : QmapFrame) : List Delivery :=
  if f.payload = [] then [] else [rxDeliver (rxDev devIn f.hdr.muxId) f.payload]

end QmapFrame

/-- One turn of the loop consumes one data frame. -/
theorem rxLoop_frame {devIn : NetDev} {skbIn : SkIn} {off : Nat} {f : QmapFrame}
    {rest : List UInt8} (hcmd : f.hdr.isCommand = false)
    (hs : slice skbIn.data off (skbIn.len - off) = f.bytes ++ rest) :
    (rxLoop devIn skbIn off).delivered =
      f.deliveries devIn ++ (rxLoop devIn skbIn (off + f.bytes.length)).delivered := by
  have hlt : off < skbIn.len := by
    have := congrArg List.length hs
    simp only [slice_length, List.length_append, QmapFrame.bytes_length, QmapHdr.size] at this
    omega
  have hs' : slice skbIn.data off (skbIn.len - off) = f.hdr.toBytes ++ (f.body ++ rest) := by
    rw [hs, QmapFrame.bytes, List.append_assoc]
  obtain ⟨hhdr, htail⟩ := slice_eq_append hs'
  obtain ⟨hbody, -⟩ := slice_eq_append htail
  have hread : QmapHdr.read skbIn.data off = f.hdr := QmapHdr.read_of_slice hhdr
  have hpay : slice skbIn.data (off + QmapHdr.size) (f.body.length - f.hdr.padLen) = f.payload := by
    rw [QmapFrame.payload, ← slice_take _ _ (Nat.sub_le f.body.length f.hdr.padLen)]
    exact congrArg _ hbody
  have hnext : off + (f.body.length + QmapHdr.size) = off + f.bytes.length := by
    rw [f.bytes_length]
    omega
  rw [rxLoop, if_pos hlt]
  simp only [hread, hcmd, f.len_eq, hpay, hnext, Bool.false_eq_true, if_false]
  by_cases hpad : f.hdr.padLen < f.body.length
  · have hne : f.payload ≠ [] := by
      intro h
      have := congrArg List.length h
      simp only [QmapFrame.payload_length, List.length_nil] at this
      omega
    simp [hpad, QmapFrame.deliveries, hne]
  · have hnil : f.payload = [] := by
      apply List.eq_nil_of_length_eq_zero
      rw [f.payload_length]
      omega
    simp [hpad, QmapFrame.deliveries, hnil]

/-! ## Round trip -/

/-- `qmap_mux` writes a well-formed frame. -/
def muxFrame (skb : List UInt8) (data : Nat) (hlen : skb.length ≤ 65532) : QmapFrame where
  hdr := qmapMuxHdr skb.length data
  body := skb ++ List.replicate (paddingCount skb.length) 0
  len_eq := by simp [qmapMuxHdr_packetLen data hlen]
  pad_le := by simp [qmapMuxHdr_padLen]

theorem muxFrame_bytes (skb : List UInt8) (data : Nat) (hlen : skb.length ≤ 65532) :
    (muxFrame skb data hlen).bytes = qmapMux skb data := by
  simp [muxFrame, QmapFrame.bytes, qmapMux]

theorem muxFrame_payload (skb : List UInt8) (data : Nat) (hlen : skb.length ≤ 65532) :
    (muxFrame skb data hlen).payload = skb := by
  simp [muxFrame, QmapFrame.payload, qmapMuxHdr_padLen]

/-- A mux id is resolved to the net device that owns it, on whichever device the
buffer arrives. -/
theorem rxDev_data1 (devIn dev : NetDev) (n : Nat) :
    rxDev devIn (qmapMuxHdr n dev.data1).muxId = dev := by
  have h (d : NetDev) : (UInt8.ofNat d.data1).toNat = d.data1 := by
    have := d.data1_bounds
    rw [UInt8.toNat_ofNat']
    omega
  simp only [rxDev, qmapMuxHdr, h]
  cases devIn with
  | mpNetDev =>
    cases dev with
    | mpNetDev => rfl
    | mpNetMUXDev j => fin_cases j <;> rfl
  | mpNetMUXDev i =>
    cases dev with
    | mpNetDev => fin_cases i <;> rfl
    | mpNetMUXDev j => fin_cases i <;> fin_cases j <;> rfl

/-- A packet as it is sent: the net device it is sent on and its bytes. -/
abbrev IpPacket := NetDev × List UInt8

/-- The frame `GobiNetDriver_tx_fixup` makes of a packet. -/
def txFrame (p : IpPacket) : List UInt8 := qmapMux p.2 p.1.data1

/-- The frame of a packet delivers that packet on the device it was sent on. -/
theorem muxFrame_deliveries (devIn : NetDev) (p : IpPacket) (hpos : 1 ≤ p.2.length)
    (hlen : p.2.length ≤ 65532) :
    (muxFrame p.2 p.1.data1 hlen).deliveries devIn = [rxDeliver p.1 p.2] := by
  have hdev : rxDev devIn (muxFrame p.2 p.1.data1 hlen).hdr.muxId = p.1 := rxDev_data1 _ _ _
  have hne : p.2 ≠ [] := List.length_pos_iff.mp hpos
  rw [QmapFrame.deliveries, muxFrame_payload, hdev, if_neg hne]

theorem rxLoop_txFrames {devIn : NetDev} {skbIn : SkIn} {off : Nat} {sent : List IpPacket}
    (hsent : ∀ p ∈ sent, 1 ≤ p.2.length ∧ p.2.length ≤ 65532)
    (hs : slice skbIn.data off (skbIn.len - off) = (sent.map txFrame).flatten) :
    (rxLoop devIn skbIn off).delivered = sent.map fun p => rxDeliver p.1 p.2 := by
  induction sent generalizing off with
  | nil =>
    have hle : ¬ off < skbIn.len := by
      have := congrArg List.length hs
      simp only [slice_length, List.map_nil, List.flatten_nil, List.length_nil] at this
      omega
    rw [rxLoop, if_neg hle]
    rfl
  | cons p sent ih =>
    obtain ⟨hpos, hlen⟩ := hsent p (by simp)
    simp only [List.map_cons, List.flatten_cons, txFrame, ← muxFrame_bytes _ _ hlen] at hs ⊢
    obtain ⟨-, hrest⟩ := slice_eq_append hs
    rw [Nat.sub_sub] at hrest
    rw [rxLoop_frame (qmapMuxHdr_not_command _ _) hs, muxFrame_deliveries devIn p hpos hlen,
      ih (fun q hq => hsent q (List.mem_cons_of_mem _ hq)) hrest]
    rfl

/-- The receive path delivers the packets whose frames make up the buffer: the same
bytes, in order, each on the net device it was sent on. -/
theorem rxFixup_txFrames (sent : List IpPacket)
    (hsent : ∀ p ∈ sent, 1 ≤ p.2.length ∧ p.2.length ≤ 65532) (devIn : NetDev) (skbIn : SkIn)
    (hbytes : skbIn.bytes = (sent.map txFrame).flatten) :
    (gobiNetDriverRxFixup devIn skbIn).delivered.map (fun d => (d.dev, d.data)) = sent := by
  rw [gobiNetDriverRxFixup, rxLoop_txFrames hsent hbytes, List.map_map]
  exact List.map_id sent

theorem rxFixup_txFrames_two :
    (gobiNetDriverRxFixup (.mpNetMUXDev 1)
      ⟨fun i => (txFrame (.mpNetDev, [0x45, 1]) ++ txFrame (.mpNetMUXDev 2, [0x60]))[i]?.getD 0, 16⟩
      ).delivered.map (fun d => (d.dev, d.data)) =
      [(.mpNetDev, [0x45, 1]), (.mpNetMUXDev 2, [0x60])] :=
  rxFixup_txFrames _ (by decide) _ _ (by decide)

/-! ## Aggregates that carry commands -/

/-- A command frame ends the walk, whatever stands behind it. -/
theorem rxLoop_command {devIn : NetDev} {skbIn : SkIn} {off : Nat} {f : QmapFrame}
    {rest : List UInt8} (hcmd : f.hdr.isCommand = true)
    (hs : slice skbIn.data off (skbIn.len - off) = f.bytes ++ rest) :
    (rxLoop devIn skbIn off).delivered = [] := by
  have hhdr : slice skbIn.data off QmapHdr.size = f.hdr.toBytes := by
    rw [QmapFrame.bytes, List.append_assoc] at hs
    exact (slice_eq_append hs).1
  have hread : QmapHdr.read skbIn.data off = f.hdr := QmapHdr.read_of_slice hhdr
  rw [rxLoop]
  split
  · simp only [hread, hcmd, if_true]
  · rfl

/-- The walk delivers the frames in front of the first command frame. -/
theorem rxLoop_frames {devIn : NetDev} {skbIn : SkIn} {off : Nat} {frames : List QmapFrame}
    (hs : slice skbIn.data off (skbIn.len - off) = (frames.map QmapFrame.bytes).flatten) :
    (rxLoop devIn skbIn off).delivered =
      (frames.takeWhile fun f => !f.hdr.isCommand).flatMap (QmapFrame.deliveries devIn) := by
  induction frames generalizing off with
  | nil =>
    have hle : ¬ off < skbIn.len := by
      have := congrArg List.length hs
      simp only [slice_length, List.map_nil, List.flatten_nil, List.length_nil] at this
      omega
    rw [rxLoop, if_neg hle]
    rfl
  | cons f frames ih =>
    rw [List.map_cons, List.flatten_cons] at hs
    cases hcmd : f.hdr.isCommand with
    | true => simpa [hcmd] using rxLoop_command hcmd hs
    | false =>
      obtain ⟨-, hrest⟩ := slice_eq_append hs
      rw [Nat.sub_sub] at hrest
      rw [rxLoop_frame hcmd hs, ih hrest]
      simp [hcmd]

/-- The non-empty data frames, in order. -/
def dataDeliveries (devIn : NetDev) (frames : List QmapFrame) : List Delivery :=
  (frames.filter fun f => !f.hdr.isCommand).flatMap (QmapFrame.deliveries devIn)

/-- Nothing is to be delivered behind a command frame. -/
def NoDataBehindCommand (frames : List QmapFrame) : Prop :=
  frames.Pairwise fun f g => f.hdr.isCommand = true → g.hdr.isCommand = true ∨ g.payload = []

/-- Nothing is delivered exactly if no data frame has a payload. -/
theorem dataDeliveries_eq_nil {devIn : NetDev} {frames : List QmapFrame} :
    dataDeliveries devIn frames = [] ↔
      ∀ g ∈ frames, g.hdr.isCommand = true ∨ g.payload = [] := by
  simp only [dataDeliveries, List.flatMap_eq_nil_iff, List.mem_filter, Bool.not_eq_true',
    QmapFrame.deliveries, ite_eq_left_iff, List.cons_ne_nil, imp_false, not_not, and_imp]
  refine forall₂_congr fun g _ => ?_
  cases g.hdr.isCommand <;> simp

/-- Every data frame of an aggregate is delivered exactly if none with a payload stands
behind a command frame. -/
theorem rxFixup_frames_iff (devIn : NetDev) (skbIn : SkIn) (frames : List QmapFrame)
    (hbytes : skbIn.bytes = (frames.map QmapFrame.bytes).flatten) :
    (gobiNetDriverRxFixup devIn skbIn).delivered = dataDeliveries devIn frames ↔
      NoDataBehindCommand frames := by
  rw [gobiNetDriverRxFixup, rxLoop_frames hbytes]
  clear hbytes
  induction frames with
  | nil => simp [dataDeliveries, NoDataBehindCommand]
  | cons f frames ih =>
    cases hcmd : f.hdr.isCommand with
    | true =>
      have hskip : dataDeliveries devIn (f :: frames) = dataDeliveries devIn frames := by
        simp [dataDeliveries, hcmd]
      rw [hskip, List.takeWhile_cons_of_neg (by simp [hcmd]), List.flatMap_nil, eq_comm,
        dataDeliveries_eq_nil, NoDataBehindCommand, List.pairwise_cons]
      constructor
      · intro hall
        refine ⟨fun g hg _ => hall g hg, List.pairwise_of_forall_mem_list ?_⟩
        exact fun _ _ g hg _ => hall g hg
      · exact fun hpair g hg => hpair.1 g hg hcmd
    | false =>
      have hkeep : dataDeliveries devIn (f :: frames) =
          f.deliveries devIn ++ dataDeliveries devIn frames := by
        simp [dataDeliveries, hcmd]
      have hfirst : NoDataBehindCommand (f :: frames) ↔ NoDataBehindCommand frames := by
        simp [NoDataBehindCommand, List.pairwise_cons, hcmd]
      rw [hkeep, List.takeWhile_cons_of_pos (by simp [hcmd]), List.flatMap_cons,
        List.append_cancel_left_eq, hfirst]
      exact ih

/-- A frame with a one-byte IPv4 packet. -/
def dataFrame : QmapFrame where
  hdr := ⟨0, 0x81, htons 1⟩
  body := [0x45]
  len_eq := by decide
  pad_le := by decide

/-- A flow control command. -/
def commandFrame : QmapFrame where
  hdr := ⟨0x80, 0x81, htons 2⟩
  body := [1, 0]
  len_eq := by decide
  pad_le := by decide

theorem rxFixup_frames_iff_trailing :
    (gobiNetDriverRxFixup .mpNetDev
        ⟨fun i => (dataFrame.bytes ++ commandFrame.bytes)[i]?.getD 0, 11⟩).delivered =
      dataDeliveries .mpNetDev [dataFrame, commandFrame] ↔
    NoDataBehindCommand [dataFrame, commandFrame] :=
  rxFixup_frames_iff _ _ [dataFrame, commandFrame] (by decide)

/-- A data frame behind a command frame is lost. -/
theorem rxFixup_frames_lost :
    ∃ (devIn : NetDev) (skbIn : SkIn) (frames : List QmapFrame),
      skbIn.bytes = (frames.map QmapFrame.bytes).flatten ∧
      (gobiNetDriverRxFixup devIn skbIn).delivered ≠ dataDeliveries devIn frames := by
  let skbIn : SkIn := ⟨fun i => (commandFrame.bytes ++ dataFrame.bytes)[i]?.getD 0, 11⟩
  have hbytes : skbIn.bytes = ([commandFrame, dataFrame].map QmapFrame.bytes).flatten := by decide
  have hnone : (gobiNetDriverRxFixup .mpNetDev skbIn).delivered = [] := rxLoop_frames hbytes
  refine ⟨.mpNetDev, skbIn, [commandFrame, dataFrame], hbytes, ?_⟩
  rw [hnone]
  decide

/-! ## Hostile input -/

/-- The header of a frame at `off`. -/
abbrev SkIn.hdr (skbIn : SkIn) (off : Nat) : QmapHdr := QmapHdr.read skbIn.data off

/-- Where frame number `k` from `off` on begins, by the lengths in the headers. -/
def SkIn.frameStart (skbIn : SkIn) (off : Nat) : Nat → Nat
  | 0 => off
  | k + 1 => skbIn.frameStart off k + ((skbIn.hdr (skbIn.frameStart off k)).packetLen + QmapHdr.size)

/-- The header of a frame lies in the buffer, and so does the payload of a data frame. Only
its padding may be cut off. -/
def SkIn.FrameFits (skbIn : SkIn) (off : Nat) : Prop :=
  off + QmapHdr.size ≤ skbIn.len ∧
    ((skbIn.hdr off).isCommand = false →
      off + QmapHdr.size + ((skbIn.hdr off).packetLen - (skbIn.hdr off).padLen) ≤ skbIn.len)

/-- Every frame that begins in the buffer fits, up to the first command. -/
def SkIn.FramesFit (skbIn : SkIn) (off : Nat) : Prop :=
  ∀ k, skbIn.frameStart off k < skbIn.len →
    (∀ i < k, (skbIn.hdr (skbIn.frameStart off i)).isCommand = false) →
      skbIn.FrameFits (skbIn.frameStart off k)

/-- Every index that is read is below `skb_in->len`. -/
def RxLog.InBounds (log : RxLog) (len : Nat) : Prop :=
  ∀ block ∈ log.reads, ∀ i, block.1 ≤ i → i < block.1 + block.2 → i < len

theorem frameStart_succ' (skbIn : SkIn) (off k : Nat) :
    skbIn.frameStart off (k + 1) = skbIn.frameStart (skbIn.frameStart off 1) k := by
  induction k with
  | zero => rfl
  | succ k ih => rw [SkIn.frameStart, ih]; rfl

/-- The frames from `off` on are the one at `off` and those behind it. -/
theorem framesFit_iff {skbIn : SkIn} {off : Nat} (hlt : off < skbIn.len)
    (hdata : (skbIn.hdr off).isCommand = false) :
    skbIn.FramesFit off ↔ skbIn.FrameFits off ∧ skbIn.FramesFit (skbIn.frameStart off 1) := by
  constructor
  · intro hfit
    refine ⟨hfit 0 hlt nofun, fun k hk hall => ?_⟩
    rw [← frameStart_succ'] at hk ⊢
    refine hfit (k + 1) hk fun i hi => ?_
    cases i with
    | zero => exact hdata
    | succ i => exact frameStart_succ' skbIn off i ▸ hall i (Nat.lt_of_succ_lt_succ hi)
  · rintro ⟨hfirst, hrest⟩ k hk hall
    cases k with
    | zero => exact hfirst
    | succ k =>
      rw [frameStart_succ'] at hk ⊢
      exact hrest k hk fun i hi => frameStart_succ' skbIn off i ▸ hall (i + 1) (Nat.succ_lt_succ hi)

theorem framesFit_of_command {skbIn : SkIn} {off : Nat} (hlt : off < skbIn.len)
    (hcmd : (skbIn.hdr off).isCommand = true) :
    skbIn.FramesFit off ↔ off + QmapHdr.size ≤ skbIn.len := by
  constructor
  · exact fun hfit => (hfit 0 hlt nofun).1
  · intro hhdr k _ hall
    cases k with
    | zero => exact ⟨hhdr, fun hdata => absurd (hcmd.symm.trans hdata) nofun⟩
    | succ k => exact absurd (hcmd.symm.trans (hall 0 (Nat.succ_pos k))) nofun

theorem le_frameStart (skbIn : SkIn) (off k : Nat) : off ≤ skbIn.frameStart off k := by
  induction k with
  | zero => exact le_rfl
  | succ k ih => exact ih.trans (Nat.le_add_right _ _)

/-- A block that is not empty is below the bound exactly if its end is. -/
theorem block_below_iff {off n len : Nat} (hn : 0 < n) :
    (∀ i, off ≤ i → i < off + n → i < len) ↔ off + n ≤ len := by
  constructor
  · intro h
    by_contra hgt
    exact absurd (h (off + n - 1) (by omega) (by omega)) (by omega)
  · intro h i _ hi
    omega

theorem rxLoop_inBounds_iff (devIn : NetDev) (skbIn : SkIn) (off : Nat) :
    (rxLoop devIn skbIn off).InBounds skbIn.len ↔ skbIn.FramesFit off := by
  induction hn : skbIn.len - off using Nat.strong_induction_on generalizing off with
  | _ n ih =>
    by_cases hlt : off < skbIn.len
    · have hheader : (∀ i, off ≤ i → i < off + QmapHdr.size → i < skbIn.len) ↔
          off + QmapHdr.size ≤ skbIn.len := block_below_iff (by decide)
      cases hcmd : (skbIn.hdr off).isCommand with
      | true =>
        rw [framesFit_of_command hlt hcmd, ← hheader, rxLoop, if_pos hlt]
        simp [RxLog.InBounds, hcmd]
      | false =>
        have hrest := ih _ (by simp only [SkIn.frameStart, QmapHdr.size]; omega)
          (skbIn.frameStart off 1) rfl
        rw [framesFit_iff hlt hcmd, ← hrest, SkIn.FrameFits, ← hheader, rxLoop, if_pos hlt]
        simp only [hcmd, Bool.false_eq_true, if_false, forall_const]
        by_cases hpad : (skbIn.hdr off).padLen < (skbIn.hdr off).packetLen
        · rw [if_pos hpad, ← block_below_iff (Nat.sub_pos_of_lt hpad)]
          simp only [RxLog.InBounds, List.forall_mem_cons, SkIn.frameStart, and_assoc]
        · rw [if_neg hpad, Nat.sub_eq_zero_of_le (Nat.not_lt.mp hpad), Nat.add_zero,
            and_iff_left_of_imp hheader.mp]
          simp only [RxLog.InBounds, List.forall_mem_cons, SkIn.frameStart]
    · have hempty : rxLoop devIn skbIn off = ⟨[], []⟩ := by rw [rxLoop, if_neg hlt]
      rw [hempty]
      refine iff_of_true nofun fun k hk => ?_
      have := le_frameStart skbIn off k
      omega

/-- Each turn reads a header and at most one payload, and the next one is at least a header
further on. -/
theorem rxLoop_reads_length (devIn : NetDev) (skbIn : SkIn) (off : Nat) :
    (rxLoop devIn skbIn off).reads.length ≤ 2 * ((skbIn.len - off + 3) / 4) := by
  induction hn : skbIn.len - off using Nat.strong_induction_on generalizing off with
  | _ n ih =>
    rw [rxLoop]
    by_cases hlt : off < skbIn.len
    · have hrest := ih _ (by simp only [SkIn.frameStart, QmapHdr.size]; omega)
        (skbIn.frameStart off 1) rfl
      simp only [SkIn.frameStart, SkIn.hdr, QmapHdr.size] at hrest
      rw [if_pos hlt]
      dsimp only
      split_ifs
      · simp only [List.length_singleton]
        omega
      · simp only [List.length_cons, QmapHdr.size]
        omega
      · simp only [List.length_cons, QmapHdr.size]
        omega
    · rw [if_neg hlt]
      exact Nat.zero_le _

/-- On any input the walk ends after at most one turn for every four bytes, and it stays in
the buffer exactly if the frames it comes to do. -/
theorem rxFixup_inBounds_iff (devIn : NetDev) (skbIn : SkIn) :
    (gobiNetDriverRxFixup devIn skbIn).reads.length ≤ 2 * ((skbIn.len + 3) / 4) ∧
      ((gobiNetDriverRxFixup devIn skbIn).InBounds skbIn.len ↔ skbIn.FramesFit 0) :=
  ⟨rxLoop_reads_length devIn skbIn 0, rxLoop_inBounds_iff devIn skbIn 0⟩

/-- A buffer that ends inside a header. -/
def truncatedHeader : SkIn := ⟨fun i => [0, 0x81].getD i 0, 2⟩

/-- A buffer whose frame claims more bytes than were received. -/
def overlongFrame : SkIn := ⟨fun i => [0, 0x81, 0, 9, 0x45].getD i 0, 5⟩

theorem rxFixup_outOfBounds :
    ¬ (gobiNetDriverRxFixup .mpNetDev truncatedHeader).InBounds truncatedHeader.len ∧
      ¬ (gobiNetDriverRxFixup .mpNetDev overlongFrame).InBounds overlongFrame.len := by
  constructor
  · exact fun h => absurd (h (0, 4) (by decide +kernel) 3 (by decide) (by decide)) (by decide)
  · exact fun h => absurd (h (4, 9) (by decide +kernel) 12 (by decide) (by decide)) (by decide)

end UsbNet
