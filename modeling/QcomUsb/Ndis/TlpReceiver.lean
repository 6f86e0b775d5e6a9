-- SUMMARY: Receivers for the uplink: each follows the headers of its mode and gives the packets back.
import QcomUsb.Library.Framing
import QcomUsb.Ndis.TlpItem

/-!
# Receiving what is sent

A receiver sees the bytes of one transfer. In the QMAP and TLP modes these are frames, one behind
the other. In MBIM mode the header of the block gives its length and the index of the NDP, whose
table has the place of each datagram and ends with a zero entry.
-/

namespace Ndis.Tlp

open Framing Memory Transport

/-! ## The receivers -/

/-- Takes a QMAP frame. `PacketLen` counts the checksum header of `ckLen` bytes, the packet and the
padding. -/
def qmapReader (ckLen : Nat) : Reader UInt8 (List UInt8)
  | padCd :: _ :: hi :: lo :: rest =>
    let len := (leWord lo hi).toNat
    let pad := (padCd &&& 0x3f).toNat
    if len ≤ rest.length ∧ ckLen + pad ≤ len then
      some (((rest.take len).drop ckLen).take (len - ckLen - pad), rest.drop len)
    else none
  | _ => none

/-- Takes a TLP frame, which begins with the length of the packet. -/
def tlpReader : Reader UInt8 (List UInt8)
  | lo :: hi :: rest =>
    let len := (leWord lo hi).toNat
    if len ≤ rest.length then some (rest.take len, rest.drop len) else none
  | _ => none

/-- The 16-bit field at `i`. -/
def wordAt (bytes : List UInt8) (i : Nat) : Nat :=
  (leWord (bytes.getD i 0) (bytes.getD (i + 1) 0)).toNat

/-- Follows a table of datagrams up to its zero entry. -/
def mbimTable (block : List UInt8) : List UInt8 → Option (List (List UInt8))
  | ptrLo :: ptrHi :: lenLo :: lenHi :: table =>
    let ptr := (leWord ptrLo ptrHi).toNat
    let len := (leWord lenLo lenHi).toNat
    if ptr = 0 ∨ len = 0 then some []
    else if ptr + len ≤ block.length then
      (mbimTable block table).map ((block.drop ptr).take len :: ·)
    else none
  | _ => none

/-- Follows `wBlockLength` and `wNdpIndex` of the block, and `wLength` of the NDP. -/
def mbimReceive (bytes : List UInt8) : Option (List (List UInt8)) :=
  let blockLength := wordAt bytes 8
  let ndpIndex := wordAt bytes 10
  if bytes.take 4 = [0x4e, 0x43, 0x4d, 0x48] ∧ blockLength ≤ bytes.length then
    let block := bytes.take blockLength
    let length := wordAt block (ndpIndex + 4)
    if ndpIndex + length ≤ blockLength then
      mbimTable block ((block.drop (ndpIndex + 8)).take (length - 8))
    else none
  else none

/-- The frames of the mode. -/
def frameReader (mode : Mode) : Reader UInt8 (List UInt8) :=
  if mode = .tlp then tlpReader else qmapReader (mode.headerLen - 4)

/-- The packets that a receiver of the mode finds in a transfer. -/
def receive (mode : Mode) (bytes : List UInt8) : Option (List (List UInt8)) :=
  match mode with
  | .mbim => mbimReceive bytes
  | .plain => some [bytes]
  | mode => readAll (frameReader mode) bytes

/-! ## What is received of a packet -/

/-- The packet with the checksum field filled in for the device. -/
def checksumFilled (p : Nat → UInt8) : Nat → UInt8 :=
  match ckOffset p, fragPacket p with
  | some ck, false =>
    copyIn p ck (wordBytes (if ipVer p = 4 ∧ p 9 = 0x01 then 0 else checkSum (pseudoHeader p)))
  | _, _ => p

/-- The packet arrives as it was accepted, in V2 and V3 with its checksum field filled in. There `p`
is the packet with what lies behind it in the buffer. -/
def Delivered (mode : Mode) (received accepted : List UInt8) : Prop :=
  if mode.fillsChecksum then
    ∃ p, slice p 0 accepted.length = accepted ∧
      received = slice (checksumFilled p) 0 accepted.length
  else received = accepted

/-- The transfer is received as the accepted packets, in their order. -/
def Received (mode : Mode) (bytes : List UInt8) (accepted : List (List UInt8)) : Prop :=
  ∃ received, receive mode bytes = some received ∧
    List.Forall₂ (Delivered mode) received accepted

/-! ## Frames -/

/-- A QMAP frame with its checksum header and padding. -/
theorem qmapReader_encodes (muxId : UInt8) (header x : List UInt8) {padding : List UInt8}
    {pad : Nat}
    (hpad : padding.length = pad) (hsmall : pad < 4)
    (hfits : x.length + pad + header.length < 65536) :
    Encodes (qmapReader header.length)
      ([UInt8.ofNat pad, muxId] ++ swappedBytes (UInt16.ofNat (x.length + pad + header.length)) ++
        (header ++ x ++ padding)) x := by
  refine ⟨by simp, fun rest => ?_⟩
  have hlen : (leWord (UInt8.ofNat (UInt16.ofNat (x.length + pad + header.length)).toNat)
      (UInt8.ofNat ((UInt16.ofNat (x.length + pad + header.length)).toNat / 256))).toNat
      = x.length + pad + header.length := by
    rw [leWord_swappedBytes]
    exact UInt16.toNat_ofNat_of_lt' hfits
  have hmask : (UInt8.ofNat pad &&& 0x3f).toNat = pad := by
    interval_cases pad <;> rfl
  have hbody : (header ++ x ++ padding ++ rest).take (x.length + pad + header.length)
      = header ++ x ++ padding := List.take_left' (by simp; omega)
  have hrest : (header ++ x ++ padding ++ rest).drop (x.length + pad + header.length)
      = rest := List.drop_left' (by simp; omega)
  have hpacket : ((header ++ x ++ padding).drop header.length).take x.length = x := by
    simp
  have hleft : x.length + pad + header.length - header.length - pad = x.length := by omega
  simp only [swappedBytes, List.cons_append, List.nil_append, qmapReader, hlen, hmask]
  rw [if_pos ⟨by simp; omega, by omega⟩, hbody, hrest, hleft, hpacket]

/-- A TLP frame. -/
theorem tlpReader_encodes {x : List UInt8} (hfits : x.length < 65536) :
    Encodes tlpReader (wordBytes (UInt16.ofNat x.length) ++ x) x := by
  refine ⟨by simp [wordBytes], fun rest => ?_⟩
  have hlen : (leWord (UInt8.ofNat (UInt16.ofNat x.length).toNat)
      (UInt8.ofNat ((UInt16.ofNat x.length).toNat / 256))).toNat = x.length := by
    rw [leWord_swappedBytes]
    exact UInt16.toNat_ofNat_of_lt' hfits
  simp only [wordBytes, List.cons_append, List.nil_append, tlpReader, hlen]
  rw [if_pos (by simp), List.take_left, List.drop_left]

/-! ## Blocks -/

/-- The bytes of a `DATAGRAM_STRUCT`. -/
def Datagram.bytes (d : Datagram) : List UInt8 := wordBytes d.datagramPtr ++ wordBytes d.datagramLen

/-- The entry says where the packet is, in the `n` bytes behind the header of the block. -/
def Datagram.Holds (mem : Nat → UInt8) (n : Nat) (d : Datagram) (x : List UInt8) : Prop :=
  ∃ ptr, d = ⟨UInt16.ofNat ptr, UInt16.ofNat x.length⟩ ∧ 12 ≤ ptr ∧ ptr + x.length ≤ n ∧
    x ≠ [] ∧ slice mem ptr x.length = x

theorem Datagram.Holds.mono {mem mem' : Nat → UInt8} {n n' : Nat} {d : Datagram} {x : List UInt8}
    (h : d.Holds mem n x) (hn : n ≤ n') (hmem : ∀ i, 12 ≤ i → i < n → mem' i = mem i) :
    d.Holds mem' n' x := by
  obtain ⟨ptr, hd, hptr, hend, hne, hslice⟩ := h
  refine ⟨ptr, hd, hptr, by omega, hne, ?_⟩
  refine Eq.trans (List.map_congr_left fun k hk => ?_) hslice
  have hlt := List.mem_range.mp hk
  exact hmem _ (by omega) (by omega)

/-- A table with a zero entry behind the last is followed to its end. -/
theorem mbimTable_entries {mem : Nat → UInt8} {n m : Nat} {entries : List Datagram}
    {accepted : List (List UInt8)} (hn : n < 65536) (hle : n ≤ m)
    (h : List.Forall₂ (Datagram.Holds mem n) entries accepted) :
    mbimTable (slice mem 0 m) (entries.flatMap Datagram.bytes ++ [0, 0, 0, 0]) = some accepted := by
  induction h with
  | nil => rfl
  | cons hentry _ ih =>
    obtain ⟨ptr, rfl, hptr, hend, hne, hslice⟩ := hentry
    rename_i x _ xs _
    have hpos := List.length_pos_of_ne_nil hne
    have hptr' : (UInt16.ofNat ptr).toNat = ptr :=
      UInt16.toNat_ofNat_of_lt' (show ptr < 65536 by omega)
    have hlen' : (UInt16.ofNat x.length).toNat = x.length :=
      UInt16.toNat_ofNat_of_lt' (show x.length < 65536 by omega)
    have hpacket : ((slice mem 0 m).drop ptr).take x.length = x := by
      rw [slice_drop, slice_take _ _ (by omega), Nat.zero_add, hslice]
    simp only [List.flatMap_cons, Datagram.bytes, wordBytes, List.cons_append, List.nil_append,
      mbimTable, leWord_swappedBytes, slice_length]
    rw [hptr', hlen', if_neg (by omega), if_pos (by omega), hpacket]
    exact congrArg (Option.map (x :: ·)) ih

/-- A block is read back, if its header and its NDP say where things are. -/
theorem mbimReceive_block {mem : Nat → UInt8} {n len : Nat} (entries : List Datagram)
    {accepted : List (List UInt8)} {signature next : List UInt8} (hn : 12 ≤ n)
    (hsmall : n + len < 65536) (hsignature : signature.length = 4) (hnext : next.length = 2)
    (hmagic : slice mem 0 4 = [0x4e, 0x43, 0x4d, 0x48])
    (hblock : leWord (mem 8) (mem 9) = UInt16.ofNat (n + len))
    (hindex : leWord (mem 10) (mem 11) = UInt16.ofNat n)
    (hndp : slice mem n len = signature ++ wordBytes (UInt16.ofNat len) ++ next ++
      (entries.flatMap Datagram.bytes ++ [0, 0, 0, 0]))
    (h : List.Forall₂ (Datagram.Holds mem n) entries accepted) :
    mbimReceive (slice mem 0 (n + len)) = some accepted := by
  have hlen : 8 ≤ len := by
    have := congrArg List.length hndp
    simp [wordBytes, hsignature, hnext] at this
    omega
  have hword : ∀ i, i + 2 ≤ n + len →
      wordAt (slice mem 0 (n + len)) i = (leWord (mem i) (mem (i + 1))).toNat := by
    intro i hi
    rw [wordAt, getD_slice _ _ (by omega), getD_slice _ _ (by omega), Nat.zero_add, Nat.zero_add]
  have hblock' : wordAt (slice mem 0 (n + len)) 8 = n + len := by
    rw [hword 8 (by omega), hblock]
    exact UInt16.toNat_ofNat_of_lt' hsmall
  have hindex' : wordAt (slice mem 0 (n + len)) 10 = n := by
    rw [hword 10 (by omega), hindex]
    exact UInt16.toNat_ofNat_of_lt' (show n < 65536 by omega)
  have hbyte : ∀ i < len, mem (n + i) = (slice mem n len).getD i 0 := fun i hi =>
    (getD_slice mem n hi 0).symm
  have hlength : wordAt (slice mem 0 (n + len)) (n + 4) = len := by
    have hlo : mem (n + 4) = UInt8.ofNat (UInt16.ofNat len).toNat := by
      rw [hbyte 4 (by omega), hndp]
      simp [List.getD, List.append_assoc, hsignature, wordBytes]
    have hhi : mem (n + 4 + 1) = UInt8.ofNat ((UInt16.ofNat len).toNat / 256) := by
      rw [Nat.add_assoc, hbyte 5 (by omega), hndp]
      simp [List.getD, List.append_assoc, List.getElem?_append, hsignature, wordBytes]
    rw [hword (n + 4) (by omega), hlo, hhi, leWord_swappedBytes]
    exact UInt16.toNat_ofNat_of_lt' (show len < 65536 by omega)
  have htable : ((slice mem 0 (n + len)).drop (n + 8)).take (len - 8)
      = entries.flatMap Datagram.bytes ++ [0, 0, 0, 0] := by
    have hdrop : slice mem (n + 8) (len - 8) = (slice mem n len).drop 8 := by
      rw [slice_drop]
    rw [slice_drop, slice_take _ _ (by omega), Nat.zero_add, hdrop, hndp]
    exact List.drop_left' (by simp [wordBytes, hsignature, hnext])
  have hmagic' : (slice mem 0 (n + len)).take 4 = [0x4e, 0x43, 0x4d, 0x48] := by
    rw [slice_take _ _ (by omega), hmagic]
  have hwhole : (slice mem 0 (n + len)).take (n + len) = slice mem 0 (n + len) :=
    List.take_of_length_le (by simp)
  simp only [mbimReceive, hblock', hindex', hwhole, hlength, hmagic', slice_length]
  rw [if_pos ⟨trivial, Nat.le_refl _⟩, if_pos (Nat.le_refl _), htable]
  exact mbimTable_entries (by omega) (Nat.le_add_right n len) h

end Ndis.Tlp
