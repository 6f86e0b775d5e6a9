-- SUMMARY: What is put into a transfer buffer is what a receiver of its mode finds there.
import QcomUsb.Ndis.TlpReceiver

/-!
# Framing of the uplink

An item that waits is a prefix of a transfer: its bytes are read as the packets it has accepted, and
its cursors agree with each other. Putting a packet into it and sealing it keep that. Without QoS
the packet begins where the header ends.
-/

namespace Ndis.Tlp

open Framing Memory Transport

variable {a : Adapter} {item : Item}

/-! ## The packet -/

/-- A frame that may be stripped has a packet behind its Ethernet header, and the 16-bit fields hold
the lengths that are written into them. -/
def FieldsFit (a : Adapter) (data : List UInt8) : Prop :=
  let len := (acceptedPacket a data).length
  (a.stripEthernet = true → 14 < data.length) ∧
    match a.mode with
    | .mbim | .plain => True
    | .tlp => len < 65536
    | mode => len + mode.paddingBytes len + (mode.headerLen - 4) < 65536

instance (a : Adapter) (data : List UInt8) : Decidable (FieldsFit a data) :=
  let len := (acceptedPacket a data).length
  have : ∀ mode : Mode, Decidable (match mode with
      | .mbim | .plain => True
      | .tlp => len < 65536
      | mode => len + mode.paddingBytes len + (mode.headerLen - 4) < 65536)
    | .mbim | .plain => .isTrue trivial
    | .tlp | .qmapV1 | .qmapV2 | .qmapV3 | .qmapV4 => inferInstanceAs (Decidable (_ < _))
  inferInstanceAs (Decidable (_ ∧ _))

theorem acceptedPacket_ne_nil {data : List UInt8} (hdata : data ≠ [])
    (hlen : a.stripEthernet = true → 14 < data.length) : acceptedPacket a data ≠ [] := by
  unfold acceptedPacket
  split
  next hstrips =>
    have hshort := hlen (Bool.and_eq_true_iff.mp hstrips).1
    exact List.ne_nil_of_length_pos (by simp; omega)
  next => exact hdata

theorem acceptedPacket_length_le (data : List UInt8) :
    (acceptedPacket a data).length ≤ data.length := by
  unfold acceptedPacket
  split <;> simp

/-- The packet lands behind its header, and nothing before it changes. -/
theorem Item.placePacket_spec (item : Item) (usb : Nat) {data : List UInt8}
    (hqos : a.qosEnabled = false)
    (hlen : a.stripEthernet = true → 14 < data.length) :
    ∃ buffer, item.placePacket a usb data
        = ({ item with buffer := buffer }, (acceptedPacket a data).length) ∧
      slice buffer usb (acceptedPacket a data).length = acceptedPacket a data ∧
      ∀ i < usb, buffer i = item.buffer i := by
  have hnone : a.qosLen = 0 := by simp [Adapter.qosLen, hqos]
  obtain ⟨placed, hplaced⟩ : ∃ placed, copyIn item.buffer usb data = placed := ⟨_, rfl⟩
  have hwhole : slice placed usb data.length = data := hplaced ▸ slice_copyIn_self _ _ _
  have hbelow : ∀ i < usb, placed i = item.buffer i := fun i hi =>
    hplaced ▸ copyIn_outside _ _ _ (.inl hi)
  have hbyte : ∀ i < data.length, placed (usb + i) = data.getD i 0 := fun i hi => by
    rw [← getD_slice placed usb hi 0, hwhole]
  have hstrips : strips a (fun i => placed (usb + i)) = strips a (fun i => data.getD i 0) := by
    cases hstrip : a.stripEthernet with
    | false => simp [strips, hstrip]
    | true =>
      have hshort := hlen hstrip
      simp only [strips, beWord, hbyte 12 (by omega), hbyte (12 + 1) (by omega)]
  simp only [Item.placePacket, hnone, Nat.add_zero, Item.write, hplaced, hstrips, acceptedPacket]
  cases strips a (fun i => data.getD i 0) with
  | false => exact ⟨placed, rfl, hwhole, hbelow⟩
  | true =>
    have hrest : slice placed (usb + 14) (data.length - 0 - 14) = data.drop 14 := by
      rw [Nat.sub_zero, ← slice_drop, hwhole]
    simp only [if_pos, hrest]
    refine ⟨_, by rw [List.length_drop], slice_copyIn_self _ _ _, fun i hi => ?_⟩
    exact (copyIn_outside _ _ _ (.inl hi)).trans (hbelow i hi)

/-! ## QMAP frames -/

theorem checksumFilled_none {p : Nat → UInt8}
    (h : ∀ ck, ckOffset p = some ck → fragPacket p ≠ false) :
    checksumFilled p = p := by
  unfold checksumFilled
  split
  next ck hck hfrag => exact absurd hfrag (h ck hck)
  next => rfl

/-- The checksum header is written, and the checksum field of the packet is filled in. -/
theorem Item.fillChecksum_spec (item : Item) {header ip : Nat} (h : header + 4 ≤ ip) :
    ∃ buffer, item.fillChecksum header ip = { item with buffer := buffer } ∧
      (∀ i < header, buffer i = item.buffer i) ∧
      ∀ n, slice buffer ip n = slice (checksumFilled fun i => item.buffer (ip + i)) 0 n := by
  have hbehind : ∀ bytes : List UInt8, bytes.length = 4 → ∀ i,
      copyIn item.buffer header bytes (ip + i) = item.buffer (ip + i) := fun bytes hbytes i =>
    copyIn_outside _ _ _ (by omega)
  have hbefore : ∀ (bytes : List UInt8), ∀ i < header,
      copyIn item.buffer header bytes i = item.buffer i := fun bytes i hi =>
    copyIn_outside _ _ _ (.inl hi)
  simp only [Item.fillChecksum]
  split
  next ck hck hfrag =>
    refine ⟨_, rfl, fun i hi => ?_, fun n => ?_⟩
    · exact (copyIn_outside _ _ _ (by omega)).trans (hbefore _ i hi)
    · simp only [checksumFilled, hck, hfrag, Item.write, slice_copyIn_add]
      congr 2
      exact funext (hbehind _ rfl)
  next hnot =>
    have hsame : checksumFilled (fun i => item.buffer (ip + i)) = fun i => item.buffer (ip + i) :=
      checksumFilled_none fun ck hck hfrag => hnot ck hck hfrag
    refine ⟨_, rfl, hbefore _, fun n => ?_⟩
    rw [hsame]
    refine List.map_congr_left fun k _ => ?_
    rw [Nat.zero_add]
    exact hbehind _ rfl k

/-- The part of a frame behind the `QMAP_STRUCT`: the checksum header and the packet, as the device
gets them. -/
theorem Item.writeHeader_spec {header ip : Nat} (hip : ip = header + (a.mode.headerLen - 4))
    (hck : a.mode.fillsChecksum = true → header + 4 ≤ ip) {x : List UInt8}
    (hx : slice item.buffer ip x.length = x) :
    ∃ buffer, (if a.mode.fillsChecksum then item.fillChecksum header ip
        else item.write header (List.replicate (a.mode.headerLen - 4) 0))
          = { item with buffer := buffer } ∧
      (∀ i < header, buffer i = item.buffer i) ∧ Delivered a.mode (slice buffer ip x.length) x := by
  unfold Delivered
  cases hfills : a.mode.fillsChecksum with
  | true =>
    obtain ⟨buffer, heq, hbefore, hslice⟩ := item.fillChecksum_spec (hck hfills)
    refine ⟨buffer, heq, hbefore, fun i => item.buffer (ip + i), ?_, hslice _⟩
    exact Eq.trans (List.map_congr_left fun k _ => by rw [Nat.zero_add]) hx
  | false =>
    refine ⟨_, rfl, fun i hi => copyIn_outside _ _ _ (.inl hi), ?_⟩
    exact (slice_copyIn_of_disjoint (.inr (by simp [hip]))).trans hx

theorem Mode.paddingBytes_lt (mode : Mode) (n : Nat) : mode.paddingBytes n < 4 := by
  unfold Mode.paddingBytes
  split <;> omega

/-- The QMAP branches put a frame behind what is there. -/
theorem Item.writeQmap_spec {n : Nat} {x : List UInt8} (hqos : a.qosEnabled = false)
    (hmode : 4 ≤ a.mode.headerLen) (hck : a.mode.fillsChecksum = true → a.mode.headerLen = 8)
    (hn : item.currentPtr = n)
    (hx : slice item.buffer (n + a.mode.headerLen) x.length = x)
    (hfits : x.length + a.mode.paddingBytes x.length + (a.mode.headerLen - 4) < 65536) :
    ∃ buffer received, item.writeQmap a (n + a.mode.headerLen) x.length
        = ({ item with buffer := buffer } : Item).advance
            (x.length + a.mode.paddingBytes x.length + a.mode.headerLen) ∧
      (∀ i < n, buffer i = item.buffer i) ∧
      Encodes (qmapReader (a.mode.headerLen - 4))
        (slice buffer n (x.length + a.mode.paddingBytes x.length + a.mode.headerLen)) received ∧
      Delivered a.mode received x := by
  have hnone : a.qosLen = 0 := by simp [Adapter.qosLen, hqos]
  have hsmall := a.mode.paddingBytes_lt x.length
  obtain ⟨pad, hpad⟩ : ∃ pad, a.mode.paddingBytes x.length = pad := ⟨_, rfl⟩
  obtain ⟨ckLen, hckLen⟩ := Nat.exists_eq_add_of_le hmode
  have hckLen' : a.mode.headerLen - 4 = ckLen := by omega
  rw [hpad, hckLen'] at hfits
  -- the padding and the `QMAP_STRUCT` leave the packet alone
  let struct := [UInt8.ofNat pad, a.muxId] ++ swappedBytes (UInt16.ofNat (x.length + pad + ckLen))
  let padded := item.write (n + a.mode.headerLen + x.length) (List.replicate pad 0)
  let begun := padded.write n struct
  have hstruct : struct.length = 4 := rfl
  have hx' : slice begun.buffer (n + a.mode.headerLen) x.length = x := by
    refine (slice_copyIn_of_disjoint (.inr (by omega))).trans ?_
    exact (slice_copyIn_of_disjoint (.inl (Nat.le_refl _))).trans hx
  have hip : n + a.mode.headerLen = n + 4 + (a.mode.headerLen - 4) := by omega
  obtain ⟨buffer, heq, hbefore, hdelivered⟩ := Item.writeHeader_spec (a := a) hip
    (fun h => by have := hck h; omega) hx'
  have hpacket : (slice buffer (n + a.mode.headerLen) x.length).length = x.length :=
    slice_length _ _ _
  refine ⟨buffer, slice buffer (n + a.mode.headerLen) x.length, ?_, fun i hi => ?_, ?_, hdelivered⟩
  · have hwritten := congrArg (Item.advance · (x.length + pad + a.mode.headerLen)) heq
    simpa only [Item.writeQmap, hnone, Nat.add_zero, hpad, hckLen', Item.write, hn, padded, begun,
      struct] using hwritten
  · have hpadded : padded.buffer i = item.buffer i := copyIn_outside _ _ _ (by omega)
    have hbegun : begun.buffer i = padded.buffer i := copyIn_outside _ _ _ (.inl hi)
    exact (hbefore i (by omega)).trans (hbegun.trans hpadded)
  · have hhead : slice buffer n 4 = struct := by
      have hsame : slice buffer n 4 = slice begun.buffer n 4 :=
        List.map_congr_left fun k hk => by
          have hlt := List.mem_range.mp hk
          exact hbefore _ (by omega)
      exact hsame.trans (slice_copyIn_self _ _ struct)
    have hsplit : slice buffer n (x.length + pad + a.mode.headerLen)
        = struct ++ (slice buffer (n + 4) ckLen ++ slice buffer (n + a.mode.headerLen) x.length ++
            slice buffer (n + a.mode.headerLen + x.length) pad) := by
      have htotal : x.length + pad + a.mode.headerLen = 4 + (ckLen + x.length + pad) := by omega
      have hpos : n + 4 + ckLen = n + a.mode.headerLen := by omega
      have hpos' : n + 4 + (ckLen + x.length) = n + a.mode.headerLen + x.length := by omega
      rw [htotal, slice_add, slice_add, slice_add, hhead, hpos, hpos']
    have hencodes := qmapReader_encodes a.muxId (slice buffer (n + 4) ckLen)
      (slice buffer (n + a.mode.headerLen) x.length)
      (slice_length buffer (n + a.mode.headerLen + x.length) pad) (hpad ▸ hsmall)
      (by simpa using hfits)
    rw [hpad, hckLen', hsplit]
    simpa [struct] using hencodes

/-- The modes whose transfers consist of frames. -/
def Mode.Frames (mode : Mode) : Prop := mode ≠ .mbim ∧ mode ≠ .plain

theorem receive_frames {mode : Mode} (h : mode.Frames) (bytes : List UInt8) :
    receive mode bytes = readAll (frameReader mode) bytes := by
  obtain ⟨hmbim, hplain⟩ := h
  cases mode with
  | mbim => exact absurd rfl hmbim
  | plain => exact absurd rfl hplain
  | _ => rfl

theorem copyIn_nil (mem : Nat → UInt8) (off : Nat) : copyIn mem off [] = mem := by
  funext i
  exact copyIn_outside mem off [] (by simp; omega)

/-- A frame of the mode is put behind what is there. -/
theorem Item.frame_spec (item : Item) {n : Nat} {x data : List UInt8} (ntbSequence : UInt16)
    (hqos : a.qosEnabled = false) (hmode : a.mode.Frames) (hn : item.currentPtr = n)
    (hx : slice item.buffer (n + a.mode.headerLen) x.length = x)
    (hdata : acceptedPacket a data = x) (hfits : FieldsFit a data) :
    ∃ buffer received total, item.frame a ntbSequence (n + a.mode.headerLen) x.length
        = ({ item with buffer := buffer } : Item).advance total ∧
      (∀ i < n, buffer i = item.buffer i) ∧
      Encodes (frameReader a.mode) (slice buffer n total) received ∧
      Delivered a.mode received x ∧ total ≤ x.length + 3 + a.mode.headerLen := by
  obtain ⟨hmbim, hplain⟩ := hmode
  have hlen := hdata ▸ hfits.2
  by_cases htlp : a.mode = .tlp
  · have hheader : a.mode.headerLen = 2 := by rw [htlp]; rfl
    rw [hheader] at hx ⊢
    refine ⟨copyIn item.buffer n (wordBytes (UInt16.ofNat x.length)), x, x.length + 2, ?_,
      fun i hi => copyIn_outside _ _ _ (.inl hi), ?_, ?_, by omega⟩
    · simp only [Item.frame, htlp, Item.write, hn]
    · have hpacket : slice (copyIn item.buffer n (wordBytes (UInt16.ofNat x.length))) (n + 2) x.length
          = x := (slice_copyIn_of_disjoint (.inr (Nat.le_refl _))).trans hx
      have hfield := slice_copyIn_self item.buffer n (wordBytes (UInt16.ofNat x.length))
      rw [frameReader, if_pos htlp, Nat.add_comm, slice_add, hpacket]
      simp only [htlp] at hlen
      exact hfield.symm ▸ tlpReader_encodes hlen
    · rw [Delivered, htlp]
      exact if_neg Bool.false_ne_true ▸ rfl
  · have hqmap : 4 ≤ a.mode.headerLen ∧ (a.mode.fillsChecksum = true → a.mode.headerLen = 8) ∧
        x.length + a.mode.paddingBytes x.length + (a.mode.headerLen - 4) < 65536 ∧
        item.frame a ntbSequence (n + a.mode.headerLen) x.length
          = item.writeQmap a (n + a.mode.headerLen) x.length := by
      cases hcase : a.mode with
      | mbim => exact absurd hcase hmbim
      | plain => exact absurd hcase hplain
      | tlp => exact absurd hcase htlp
      | _ =>
        simp only [hcase] at hlen
        refine ⟨by decide, by decide, hlen, ?_⟩
        simp only [Item.frame, hcase]
    obtain ⟨hheader, hck, hlen, hframe⟩ := hqmap
    obtain ⟨buffer, received, heq, hbelow, hencodes, hdelivered⟩ :=
      Item.writeQmap_spec hqos hheader hck hn hx hlen
    have hpad := a.mode.paddingBytes_lt x.length
    refine ⟨buffer, received, _, hframe.trans heq, hbelow, ?_, hdelivered, by omega⟩
    rw [frameReader, if_neg htlp]
    exact hencodes

/-! ## MBIM blocks -/

/-- A block of `n` bytes that is being built, with the entries and the packets it has. Its header
says how long it is so far. -/
structure Block (mem : Nat → UInt8) (n : Nat) (entries : List Datagram)
    (accepted : List (List UInt8)) : Prop where
  long : 12 ≤ n
  magic : slice mem 0 4 = [0x4e, 0x43, 0x4d, 0x48]
  length : leWord (mem 8) (mem 9) = UInt16.ofNat n
  table : List.Forall₂ (Datagram.Holds mem n) entries accepted

section

variable {mem mem' : Nat → UInt8} {n : Nat} {entries : List Datagram}
  {accepted : List (List UInt8)}

theorem leWord_copyIn (mem : Nat → UInt8) (off : Nat) (w : UInt16) :
    leWord (copyIn mem off (wordBytes w) off) (copyIn mem off (wordBytes w) (off + 1)) = w := by
  have hlo : copyIn mem off (wordBytes w) off = UInt8.ofNat w.toNat :=
    copyIn_inside mem off (wordBytes w) (k := 0) Nat.zero_lt_two
  have hhi : copyIn mem off (wordBytes w) (off + 1) = UInt8.ofNat (w.toNat / 256) :=
    copyIn_inside mem off (wordBytes w) (k := 1) Nat.one_lt_two
  rw [hlo, hhi, leWord_swappedBytes]

/-- The first packet starts a block. -/
theorem Block.start (mem : Nat → UInt8) (ntbSequence : UInt16) :
    Block (copyIn mem 0 (ntbBytes ntbSequence)) 12 [] [] := by
  refine ⟨Nat.le_refl _, ?_, rfl, .nil⟩
  exact (slice_take _ 0 (by decide : 4 ≤ 12)).symm.trans
    (congrArg (List.take 4) (slice_copyIn_self mem 0 (ntbBytes ntbSequence)))

/-- Bytes behind the block do not matter. -/
theorem Block.congr (h : Block mem n entries accepted) (hmem : ∀ i < n, mem' i = mem i) :
    Block mem' n entries accepted := by
  have hlong := h.long
  refine ⟨hlong, ?_, ?_, h.table.imp fun d x hd => hd.mono (Nat.le_refl _) fun i _ => hmem i⟩
  · refine Eq.trans (List.map_congr_left fun k hk => ?_) h.magic
    have hlt := List.mem_range.mp hk
    exact hmem _ (by omega)
  · rw [hmem 8 (by omega), hmem 9 (by omega), h.length]

/-- A packet that lies behind the block is added to it. -/
theorem Block.add (h : Block mem n entries accepted) {x : List UInt8} (hne : x ≠ [])
    (hx : slice mem n x.length = x) :
    Block (copyIn mem 8 (wordBytes (leWord (mem 8) (mem 9) + UInt16.ofNat x.length)))
      (n + x.length) (entries ++ [⟨UInt16.ofNat n, UInt16.ofNat x.length⟩]) (accepted ++ [x]) := by
  have hlong := h.long
  have hkeep : ∀ i, 12 ≤ i → copyIn mem 8 (wordBytes (leWord (mem 8) (mem 9) +
      UInt16.ofNat x.length)) i = mem i := fun i hi =>
    copyIn_outside _ _ _ (.inr (Nat.le_trans (by decide : 10 ≤ 12) hi))
  refine ⟨by omega, ?_, ?_, List.rel_append ?_ (.cons ?_ .nil)⟩
  · exact (slice_copyIn_of_disjoint (.inl (by decide))).trans h.magic
  · rw [leWord_copyIn mem 8, h.length, UInt16.ofNat_add]
  · exact h.table.imp fun d y hd => hd.mono (Nat.le_add_right _ _) fun i hi _ => hkeep i hi
  · refine ⟨n, rfl, hlong, Nat.le_refl _, hne, ?_⟩
    refine Eq.trans (List.map_congr_left fun k _ => ?_) hx
    exact hkeep _ (by omega)

/-- A block that is closed with an NDP is received. -/
theorem Block.close (h : Block mem n entries accepted) {ndp signature next : List UInt8} {len : Nat}
    (hlen : ndp.length = len) (hsignature : signature.length = 4) (hnext : next.length = 2)
    (hsmall : n + len < 65536)
    (hndp : ndp = signature ++ wordBytes (UInt16.ofNat len) ++ next ++
      (entries.flatMap Datagram.bytes ++ [0, 0, 0, 0])) :
    let written := copyIn mem n ndp
    let counted := copyIn written 8
      (wordBytes (leWord (written 8) (written 9) + UInt16.ofNat len))
    mbimReceive (slice (copyIn counted 10 (wordBytes (UInt16.ofNat n))) 0 (n + len))
      = some accepted := by
  intro written counted
  have hlong := h.long
  have hwritten : ∀ i < n, written i = mem i := fun i hi => copyIn_outside _ _ _ (.inl hi)
  have hcounted : ∀ i, 12 ≤ i → counted i = written i := fun i hi =>
    copyIn_outside _ _ _ (.inr (Nat.le_trans (by decide : 10 ≤ 12) hi))
  have hindexed : ∀ i, 12 ≤ i → copyIn counted 10 (wordBytes (UInt16.ofNat n)) i = written i :=
    fun i hi => (copyIn_outside _ _ _ (.inr hi)).trans (hcounted i hi)
  have hlength : leWord (counted 8) (counted 9) = UInt16.ofNat (n + len) := by
    refine (leWord_copyIn written 8 _).trans ?_
    rw [hwritten 8 (by omega), hwritten 9 (by omega), h.length, UInt16.ofNat_add]
  have hheader : ∀ i < 10, copyIn counted 10 (wordBytes (UInt16.ofNat n)) i = counted i :=
    fun i hi => copyIn_outside _ _ _ (.inl hi)
  refine mbimReceive_block entries hlong hsmall hsignature hnext ?_ ?_ ?_ ?_ ?_
  · have hmagic : slice counted 0 4 = slice written 0 4 :=
      slice_copyIn_of_disjoint (.inl (by decide))
    have hmagic' : slice written 0 4 = slice mem 0 4 :=
      slice_copyIn_of_disjoint (.inl (by omega))
    exact (slice_copyIn_of_disjoint (.inl (by decide))).trans
      (hmagic.trans (hmagic'.trans h.magic))
  · rw [hheader 8 (by decide), hheader 9 (by decide), hlength]
  · exact leWord_copyIn counted 10 _
  · refine Eq.trans (List.map_congr_left fun k _ => hindexed _ (by omega)) ?_
    exact (hlen ▸ slice_copyIn_self mem n ndp).trans hndp
  · exact h.table.imp fun d x hd => hd.mono (Nat.le_refl _) fun i hi hlt =>
      (hindexed i hi).trans (hwritten i hlt)

end

/-! ## Items -/

/-- The entries of the packets in the item. -/
def Item.entries (item : Item) : List Datagram :=
  (List.range item.aggregationCount).map item.dataGrams

/-- In MBIM mode an item is empty or a block with room for its NDP. The table is zero behind its
entries and behind what a purge left there. -/
structure Item.BlockGood (item : Item) : Prop where
  block : (item.currentPtr = 0 ∧ item.aggregationCount = 0 ∧ item.accepted = []) ∨
    Block item.buffer item.currentPtr item.entries item.accepted ∧
      (item.ndpLength : Int) ≤ item.remainingCapacity
  unused : ∀ i, item.thrownOut ≤ i → item.aggregationCount ≤ i → item.dataGrams i = ⟨0, 0⟩
  length : item.ndpHeader.wLength = 0

/-- An item that is not in USB. -/
structure Item.Good (a : Adapter) (item : Item) : Prop where
  pointer : item.currentPtr = item.dataLength
  capacity : (item.dataLength : Int) + item.remainingCapacity = a.uplinkTLPSize
  room : 0 ≤ item.remainingCapacity
  frames : a.mode.Frames → ∃ received, Framed (frameReader a.mode) item.sendBuffer received ∧
    List.Forall₂ (Delivered a.mode) received item.accepted
  whole : a.mode = .plain →
    item.accepted = if item.dataLength = 0 then [] else [item.sendBuffer]
  block : a.mode = .mbim → item.BlockGood

/-- An item without bytes is good. -/
theorem Item.good_of_empty (hptr : item.currentPtr = 0) (hlen : item.dataLength = 0)
    (hcapacity : item.remainingCapacity = a.uplinkTLPSize) (hcount : item.aggregationCount = 0)
    (haccepted : item.accepted = [])
    (hmbim : a.mode = .mbim → (∀ i, item.thrownOut ≤ i → item.dataGrams i = ⟨0, 0⟩) ∧
      item.ndpHeader.wLength = 0) : item.Good a := by
  refine ⟨hptr.trans hlen.symm, by omega, by omega, fun _ => ⟨[], ?_, ?_⟩, fun _ => ?_, fun hmode => ?_⟩
  · rw [Item.sendBuffer, hlen]
    exact Framed.nil
  · rw [haccepted]
    exact .nil
  · rw [haccepted, if_pos hlen]
  · obtain ⟨hunused, hlength⟩ := hmbim hmode
    exact ⟨.inl ⟨hptr, hcount, haccepted⟩, fun i hi _ => hunused i hi, hlength⟩

theorem Item.initial_good (a : Adapter) : (Item.initial a).Good a :=
  Item.good_of_empty rfl rfl rfl rfl rfl fun _ => ⟨fun _ _ => rfl, rfl⟩

theorem Item.recycle_good (a : Adapter) (item : Item) : (item.recycle a).Good a :=
  Item.good_of_empty rfl rfl rfl rfl rfl fun _ => ⟨fun _ _ => rfl, rfl⟩

theorem Item.Good.purge (h : item.Good a) : (item.purge a).Good a := by
  refine Item.good_of_empty rfl rfl rfl rfl rfl fun hmode => ⟨fun i hi => ?_, (h.block hmode).length⟩
  obtain ⟨hthrown, hcount⟩ := max_le_iff.mp (show max item.thrownOut item.aggregationCount ≤ i from hi)
  exact (h.block hmode).unused i hthrown hcount

/-! ## Filling an item -/

theorem Item.fill_spec {ntbSequence : UInt16} {packet : Packet} {filled : Item}
    (hqos : a.qosEnabled = false) (hlen : a.stripEthernet = true → 14 < packet.data.length)
    (hfill : item.fill a ntbSequence packet = some filled) :
    Item.Fits a item packet.data.length ∧
    ∃ buffer, slice buffer (item.usbBuffer a) (acceptedPacket a packet.data).length
        = acceptedPacket a packet.data ∧
      (∀ i < item.usbBuffer a, buffer i = item.buffer i) ∧
      filled = { ({ item with buffer := buffer } : Item).frame a ntbSequence (item.usbBuffer a)
          (acceptedPacket a packet.data).length with
        aggregationCount := item.aggregationCount + 1
        accepted := item.accepted ++ [acceptedPacket a packet.data] } := by
  have hnone : a.qosLen = 0 := by simp [Adapter.qosLen, hqos]
  have hheader : qosHeader a packet.flowId = [] := by simp [qosHeader, hqos]
  obtain ⟨hfits, hfill⟩ := Option.ite_none_right_eq_some.mp hfill
  obtain ⟨buffer, hplace, hpacket, hbelow⟩ :=
    item.placePacket_spec (item.usbBuffer a) hqos hlen
  rw [hnone, Nat.add_zero] at hfits
  simp only [hplace, hheader, Item.write, copyIn_nil] at hfill
  exact ⟨hfits, buffer, hpacket, hbelow, (Option.some.inj hfill).symm⟩

/-- In a mode with frames, one frame is put behind the others. -/
theorem Item.Good.fill_frames {ntbSequence : UInt16} {packet : Packet} {filled : Item}
    (hqos : a.qosEnabled = false) (h : item.Good a) (hmode : a.mode.Frames)
    (hfields : FieldsFit a packet.data) (hfill : item.fill a ntbSequence packet = some filled) :
    filled.Good a := by
  obtain ⟨hmbim, hplain⟩ := hmode
  obtain ⟨hfits, buffer, hpacket, hbelow, rfl⟩ := Item.fill_spec hqos hfields.1 hfill
  obtain ⟨x, hx⟩ : ∃ x, acceptedPacket a packet.data = x := ⟨_, rfl⟩
  have husb : item.usbBuffer a = item.dataLength + a.mode.headerLen := by
    simp [Item.usbBuffer, hmbim, h.pointer]
  have hshort : x.length ≤ packet.data.length := hx ▸ acceptedPacket_length_le packet.data
  have hroom : (packet.data.length + 3 + a.mode.headerLen : Int) ≤ item.remainingCapacity := by
    unfold Item.Fits at hfits
    cases hcase : a.mode with
    | mbim => exact absurd hcase hmbim
    | plain => exact absurd hcase hplain
    | _ =>
      simp only [hcase] at hfits
      simp only [Mode.headerLen, Nat.cast_ofNat]
      omega
  rw [husb, hx] at hpacket
  rw [husb] at hbelow
  obtain ⟨buffer', received, total, hframe, hkeep, hencodes, hdelivered, htotal⟩ :=
    Item.frame_spec { item with buffer := buffer } ntbSequence hqos ⟨hmbim, hplain⟩ h.pointer
      hpacket hx hfields
  obtain ⟨before, hframed, hbefore⟩ := h.frames ⟨hmbim, hplain⟩
  have hcapacity := h.capacity
  rw [husb, hx, hframe]
  refine ⟨congrArg (· + total) h.pointer, ?_, ?_, fun _ => ⟨before ++ [received], ?_, ?_⟩,
    fun hmode => absurd hmode hplain, fun hmode => absurd hmode hmbim⟩
  · show ((item.dataLength + total : Nat) : Int) + (item.remainingCapacity - total)
      = a.uplinkTLPSize
    omega
  · show 0 ≤ item.remainingCapacity - total
    omega
  · have hold : slice buffer' 0 item.dataLength = item.sendBuffer :=
      List.map_congr_left fun k hk => by
        have hlt := List.mem_range.mp hk
        exact (hkeep _ (by omega)).trans (hbelow _ (by omega))
    show Framed _ (slice buffer' 0 (item.dataLength + total)) _
    rw [slice_add, hold, Nat.zero_add]
    exact hframed.snoc hencodes
  · exact List.rel_append hbefore (.cons hdelivered .nil)

/-- Without a mode the packet is the transfer. -/
theorem Item.Good.fill_plain {ntbSequence : UInt16} {packet : Packet} {filled : Item}
    (hqos : a.qosEnabled = false) (h : item.Good a) (hmode : a.mode = .plain)
    (hempty : item.dataLength = 0) (hdata : packet.data ≠ []) (hfields : FieldsFit a packet.data)
    (hfill : item.fill a ntbSequence packet = some filled) : filled.Good a := by
  obtain ⟨hfits, buffer, hpacket, hbelow, rfl⟩ := Item.fill_spec hqos hfields.1 hfill
  obtain ⟨x, hx⟩ : ∃ x, acceptedPacket a packet.data = x := ⟨_, rfl⟩
  have hne : x ≠ [] := hx ▸ acceptedPacket_ne_nil hdata hfields.1
  have hshort : x.length ≤ packet.data.length := hx ▸ acceptedPacket_length_le packet.data
  have husb : item.usbBuffer a = 0 := by
    simp [Item.usbBuffer, hmode, h.pointer, hempty, Mode.headerLen]
  have hnone : item.accepted = [] := (h.whole hmode).trans (if_pos hempty)
  have hcapacity := h.capacity
  simp only [Item.Fits, hmode] at hfits
  simp only [husb, hx, Item.frame, hmode, Item.advance, hnone] at hpacket ⊢
  refine ⟨congrArg (· + x.length) h.pointer, ?_, ?_, fun hframes => absurd hmode hframes.2,
    fun _ => ?_, fun hmbim => absurd (hmode.symm.trans hmbim) (by decide)⟩
  · show ((item.dataLength + x.length : Nat) : Int) + (item.remainingCapacity - x.length)
      = a.uplinkTLPSize
    omega
  · show 0 ≤ item.remainingCapacity - x.length
    omega
  · have hpos := List.length_pos_of_ne_nil hne
    have hslice : slice buffer 0 (item.dataLength + x.length) = x := by
      rw [hempty, Nat.zero_add, hpacket]
    show [] ++ [x] = if item.dataLength + x.length = 0 then []
      else [slice buffer 0 (item.dataLength + x.length)]
    rw [if_neg (by omega), hslice]
    rfl

/-- The first packet of an item starts the block, and the others find it there. -/
theorem Item.BlockGood.startBlock {usb : Nat} (h : item.BlockGood) (ntbSequence : UInt16)
    (husb : usb = item.currentPtr + if item.currentPtr = 0 then 12 else 0) :
    ∃ buffer ndpHeader, item.startBlock a ntbSequence
        = ({ item with buffer := buffer, ndpHeader := ndpHeader } : Item).advance
            (usb - item.currentPtr) ∧
      ndpHeader.wLength = 0 ∧ (∀ i, 12 ≤ i → buffer i = item.buffer i) ∧
      Block buffer usb item.entries item.accepted := by
  unfold Item.startBlock
  split
  next hzero =>
    rw [if_pos hzero, hzero, Nat.zero_add] at husb
    have hstart : usb - item.currentPtr = 12 := by omega
    rw [hstart, husb]
    refine ⟨copyIn item.buffer 0 (ntbBytes ntbSequence),
      { item.ndpHeader with dwSignature := ndpSignatureOf a, wNextNdpIndex := 0 }, rfl, h.length,
      fun i hi => copyIn_outside _ _ _ (.inr hi), ?_⟩
    · rcases h.block with ⟨-, hcount, hnone⟩ | ⟨hblock, -⟩
      · rw [Item.entries, hcount, hnone]
        exact Block.start item.buffer ntbSequence
      · have hlong := hblock.long
        omega
  next hstarted =>
    rw [if_neg hstarted, Nat.add_zero] at husb
    subst husb
    rcases h.block with ⟨hzero, -⟩ | ⟨hblock, -⟩
    · exact absurd hzero hstarted
    · refine ⟨item.buffer, item.ndpHeader, ?_, h.length, fun _ _ => rfl, hblock⟩
      simp [Item.advance]

theorem entries_succ (dataGrams : Nat → Datagram) (n : Nat) (d : Datagram) :
    (List.range (n + 1)).map (Function.update dataGrams n d)
      = (List.range n).map dataGrams ++ [d] := by
  rw [List.range_succ, List.map_append, List.map_singleton, Function.update_self]
  congr 1
  exact List.map_congr_left fun i hi => Function.update_of_ne (List.mem_range.mp hi).ne _ _

/-- In MBIM mode a datagram is added to the block. -/
theorem Item.Good.fill_mbim {ntbSequence : UInt16} {packet : Packet} {filled : Item}
    (hqos : a.qosEnabled = false) (h : item.Good a) (hmode : a.mode = .mbim)
    (hdata : packet.data ≠ []) (hfields : FieldsFit a packet.data)
    (hfill : item.fill a ntbSequence packet = some filled) : filled.Good a := by
  obtain ⟨hfits, buffer, hpacket, hbelow, rfl⟩ := Item.fill_spec hqos hfields.1 hfill
  obtain ⟨x, hx⟩ : ∃ x, acceptedPacket a packet.data = x := ⟨_, rfl⟩
  have hne : x ≠ [] := hx ▸ acceptedPacket_ne_nil hdata hfields.1
  have hshort : x.length ≤ packet.data.length := hx ▸ acceptedPacket_length_le packet.data
  obtain ⟨usb, husb⟩ : ∃ usb, item.usbBuffer a = usb := ⟨_, rfl⟩
  have husb' : usb = item.currentPtr + if item.currentPtr = 0 then 12 else 0 := by
    simp [← husb, Item.usbBuffer, hmode, Mode.headerLen]
  have hgood := h.block hmode
  have hplaced : ({ item with buffer := buffer } : Item).BlockGood := by
    refine ⟨hgood.block.imp id fun hblock => ⟨hblock.1.congr fun i hi => ?_, hblock.2⟩,
      hgood.unused, hgood.length⟩
    exact hbelow i (by omega)
  obtain ⟨begun, ndpHeader, heq, hlength, hkeep, hblock⟩ :=
    hplaced.startBlock (a := a) ntbSequence husb'
  have hx' : slice begun usb x.length = x := by
    rw [husb, hx] at hpacket
    have hlong := hblock.long
    exact Eq.trans (List.map_congr_left fun k _ => hkeep _ (by omega)) hpacket
  have hcapacity := h.capacity
  have hpointer := h.pointer
  have hcursor : item.currentPtr + (usb - item.currentPtr) = usb := by omega
  have hcursor' : item.dataLength + (usb - item.currentPtr) = usb := by omega
  have hstart : ((usb - item.currentPtr : Nat) : Int) = if item.currentPtr = 0 then 12 else 0 := by
    rw [husb', Nat.add_sub_cancel_left]
    split <;> rfl
  simp only [Item.Fits, hmode, ← hstart] at hfits
  simp only [hx, Item.frame, hmode, heq, Item.addDatagram, Item.addWord, Item.write, Item.advance,
    hcursor, hcursor']
  refine ⟨rfl, ?_, ?_, fun hframes => absurd hmode hframes.1,
    fun hplain => absurd (hmode.symm.trans hplain) (by decide), fun _ => ?_⟩
  · show ((usb + x.length : Nat) : Int) +
      (item.remainingCapacity - (usb - item.currentPtr : Nat) - x.length) = a.uplinkTLPSize
    omega
  · show 0 ≤ item.remainingCapacity - (usb - item.currentPtr : Nat) - x.length
    omega
  · refine ⟨.inr ⟨?_, ?_⟩, fun i hold hi => ?_, hlength⟩
    · show Block _ (usb + x.length) ((List.range (item.aggregationCount + 1)).map
        (Function.update item.dataGrams item.aggregationCount _)) (item.accepted ++ [x])
      rw [entries_succ]
      exact hblock.add hne hx'
    · show ((8 + (item.aggregationCount + 1 + 1) * 4 : Nat) : Int)
        ≤ item.remainingCapacity - (usb - item.currentPtr : Nat) - x.length
      omega
    · exact (Function.update_of_ne (Nat.lt_of_succ_le hi).ne' _ _).trans
        (hgood.unused i hold (Nat.le_of_succ_le hi))

/-- A packet is put into an item. -/
theorem Item.Good.fill {ntbSequence : UInt16} {packet : Packet} {filled : Item}
    (hqos : a.qosEnabled = false) (h : item.Good a)
    (hempty : a.mode = .plain → item.dataLength = 0) (hdata : packet.data ≠ [])
    (hfields : FieldsFit a packet.data) (hfill : item.fill a ntbSequence packet = some filled) :
    filled.Good a := by
  by_cases hmbim : a.mode = .mbim
  · exact h.fill_mbim hqos hmbim hdata hfields hfill
  · by_cases hplain : a.mode = .plain
    · exact h.fill_plain hqos hplain (hempty hplain) hdata hfields hfill
    · exact h.fill_frames hqos ⟨hmbim, hplain⟩ hfields hfill

/-! ## Sealing an item -/

/-- An item in USB. In MBIM mode `CurrentPtr` is before the NDP. -/
structure Item.Sealed (a : Adapter) (item : Item) : Prop where
  pointer : item.dataLength
    = item.currentPtr + if a.mode = .mbim then item.ndpLength else 0
  capacity : (item.dataLength : Int) + item.remainingCapacity = a.uplinkTLPSize
  room : 0 ≤ item.remainingCapacity

theorem ndpBytes_length (header : NdpHeader) (dataGrams : Nat → Datagram) (n : Nat) :
    (ndpBytes header dataGrams n).length = 8 + n * 4 := by
  simp [ndpBytes, longBytes, wordBytes, List.length_flatMap]
  omega

/-- The table of an NDP with a zero entry at the end. -/
theorem ndpBytes_succ (header : NdpHeader) {dataGrams : Nat → Datagram} {n : Nat}
    (h : dataGrams n = ⟨0, 0⟩) :
    ndpBytes header dataGrams (n + 1) = longBytes header.dwSignature ++ wordBytes header.wLength ++
      wordBytes header.wNextNdpIndex ++
        (((List.range n).map dataGrams).flatMap Datagram.bytes ++ [0, 0, 0, 0]) := by
  have htable : (List.range n).flatMap (fun i =>
      wordBytes (dataGrams i).datagramPtr ++ wordBytes (dataGrams i).datagramLen)
      = ((List.range n).map dataGrams).flatMap Datagram.bytes := by
    rw [List.flatMap_map]
    rfl
  rw [ndpBytes, List.range_succ, List.flatMap_append, htable, List.flatMap_singleton, h]
  rfl

/-- A MBIM item is received, if nothing that a purge left stands behind its entries. -/
theorem Item.Good.writeNdp (h : item.Good a) (hmode : a.mode = .mbim) (hdata : item.dataLength ≠ 0)
    (hthrown : item.thrownOut ≤ item.aggregationCount)
    (hsmall : item.dataLength + item.ndpLength < 65536) :
    item.writeNdp.Sealed a ∧ mbimReceive item.writeNdp.sendBuffer = some item.accepted := by
  have hgood := h.block hmode
  have hpointer := h.pointer
  have hcapacity := h.capacity
  have hzero := hgood.unused item.aggregationCount hthrown (Nat.le_refl _)
  rcases hgood.block with ⟨hempty, -⟩ | ⟨hblock, hroom⟩
  · exact absurd (hpointer.symm.trans hempty) hdata
  · refine ⟨⟨?_, ?_, ?_⟩, ?_⟩
    · rw [if_pos hmode]
      exact congrArg (· + item.ndpLength) hpointer.symm
    · show ((item.dataLength + item.ndpLength : Nat) : Int)
        + (item.remainingCapacity - item.ndpLength) = a.uplinkTLPSize
      omega
    · show 0 ≤ item.remainingCapacity - item.ndpLength
      omega
    · let header := { item.ndpHeader with
        wLength := item.ndpHeader.wLength + UInt16.ofNat item.ndpLength }
      have hlength : header.wLength = UInt16.ofNat item.ndpLength := by
        rw [← UInt16.zero_add (UInt16.ofNat item.ndpLength), ← hgood.length]
      have hndp := ndpBytes_succ header hzero
      rw [hlength] at hndp
      have hclose := hblock.close (ndpBytes_length header _ _) (by rfl) (by rfl)
        (hpointer ▸ hsmall) hndp
      show mbimReceive (slice _ 0 (item.dataLength + item.ndpLength)) = some item.accepted
      rw [← hpointer]
      exact hclose

/-- An item with data is sealed, and what is handed to USB is received as what it had accepted. -/
theorem Item.Good.seal (h : item.Good a) (hdata : item.dataLength ≠ 0)
    (hmbim : a.mode = .mbim → item.thrownOut ≤ item.aggregationCount ∧
      item.dataLength + item.ndpLength < 65536) :
    (item.seal a).Sealed a ∧
      Received a.mode (item.seal a).sendBuffer (item.seal a).accepted := by
  unfold Item.seal
  by_cases hmode : a.mode = .mbim
  · obtain ⟨hthrown, hsmall⟩ := hmbim hmode
    obtain ⟨hsealed, hreceive⟩ := h.writeNdp hmode hdata hthrown hsmall
    rw [if_pos hmode]
    refine ⟨hsealed, item.accepted, ?_, List.forall₂_same.mpr fun x _ => ?_⟩
    · rw [hmode]
      exact hreceive
    · simp [Delivered, hmode, Mode.fillsChecksum]
  · rw [if_neg hmode]
    refine ⟨⟨?_, h.capacity, h.room⟩, ?_⟩
    · rw [if_neg hmode]
      exact h.pointer.symm
    · by_cases hplain : a.mode = .plain
      · refine ⟨[item.sendBuffer], by rw [hplain]; rfl, ?_⟩
        rw [h.whole hplain, if_neg hdata]
        exact .cons (by simp [Delivered, hplain, Mode.fillsChecksum]) .nil
      · obtain ⟨received, hframed, hdelivered⟩ := h.frames ⟨hmode, hplain⟩
        exact ⟨received, (receive_frames ⟨hmode, hplain⟩ _).trans hframed.readAll, hdelivered⟩

end Ndis.Tlp
