-- SUMMARY: The transport checksum that the read path writes into the packets of QMAP V2 and V3 frames.
import QcomUsb.Library.Memory

/-!
# Downlink checksums

In QMAP V2 and V3 the device adds a checksum trailer to every data frame. `USBMRD_ReadIrpCompletion`
computes the transport checksum from it and writes it into the packet, before the packet is copied
into a read. The functions take the packet as a view of the buffer from its first byte on, and read
the buffer as far as they like.
-/

namespace Transport

open Memory

/-- A `USHORT` in memory. -/
def leWord (lo hi : UInt8) : UInt16 := UInt16.ofNat (lo.toNat + 256 * hi.toNat)

/-- `RtlUshortByteSwap` of the `USHORT` in memory. -/
def beWord (p : Nat → UInt8) (i : Nat) : UInt16 := leWord (p (i + 1)) (p i)

/-- `RtlUshortByteSwap`. -/
def byteSwap (w : UInt16) : UInt16 := (w >>> 8) ||| (w <<< 8)

/-- The bytes of a `USHORT` that is stored byte-swapped. -/
def swappedBytes (w : UInt16) : List UInt8 := [UInt8.ofNat (w.toNat / 256), UInt8.ofNat w.toNat]

/-- A `USHORT` that is stored byte-swapped is read back. -/
theorem leWord_swappedBytes (w : UInt16) :
    leWord (UInt8.ofNat w.toNat) (UInt8.ofNat (w.toNat / 256)) = w := by
  have hw := w.toNat_lt
  apply UInt16.toNat.inj
  simp only [leWord, UInt16.toNat_ofNat', UInt8.toNat_ofNat']
  omega

/-- The loop of `CheckSum`, with a left-over byte at the end. -/
def sumWords : List UInt8 → UInt32
  | [] => 0
  | [a] => a.toUInt32
  | a :: b :: rest => (leWord a b).toUInt32 + sumWords rest

/-- The two steps that fold a sum to 16 bits. -/
def fold (sum : UInt32) : UInt32 :=
  let sum := (sum >>> 16) + (sum &&& 0xffff)
  sum + (sum >>> 16)

/-- `CheckSum`. -/
def checkSum (buffer : List UInt8) : UInt16 := (fold (sumWords buffer)).toUInt16

/-- `ipVer`. -/
def ipVer (p : Nat → UInt8) : UInt8 := (p 0 &&& 0xf0) >>> 4

/-- The length of the IPv4 header, as its first byte gives it. -/
def ipHdrLen (p : Nat → UInt8) : Nat := (p 0 &&& 0x0f).toNat * 4

/-- The length of the IP header. What is not IPv4 is taken for IPv6. -/
def hdrLen (p : Nat → UInt8) : Nat := if ipVer p = 4 then ipHdrLen p else 40

/-- Where the transport header of each protocol has its checksum. -/
def transportOffset (protocol : UInt8) : Option Nat :=
  if protocol = 0x06 then some 16
  else if protocol = 0x11 then some 6
  else if protocol = 0x01 then some 2
  else none

/-- `CkOffset`, if it is not zero. -/
def ckOffset (p : Nat → UInt8) : Option Nat :=
  (transportOffset (if ipVer p = 4 then p 9 else p 6)).map (hdrLen p + ·)

/-- `pseudoChkSum`, for IPv4 and for the rest. -/
def pseudoHeader (p : Nat → UInt8) : List UInt8 :=
  if ipVer p = 4 then
    slice p 12 4 ++ slice p 16 4 ++ [0, p 9] ++
      swappedBytes (beWord p 2 - UInt16.ofNat (ipHdrLen p))
  else slice p 8 16 ++ slice p 24 16 ++ [p 4, p 5, 0, 0] ++ [0, 0, 0, p 6]

/-- `FragPacket`: the packet is a fragment of an IPv4 packet. -/
def fragPacket (p : Nat → UInt8) : Bool :=
  ipVer p = 4 && (beWord p 6 &&& 0x2000 != 0 || beWord p 6 &&& 0x1fff != 0)

/-- `CheckSumTempShort`, for a packet of `pktLen` bytes with its checksum at `ck`. -/
def checkSumTempShort (v3 : Bool) (p : Nat → UInt8) (pktLen ck : Nat) : UInt16 :=
  let cksumValue := beWord p (pktLen + 6)
  let ipHdrChecksum := byteSwap (checkSum (slice p 0 (hdrLen p)))
  let temp :=
    if v3 then ((~~~ cksumValue) - 1).toUInt32 - ipHdrChecksum.toUInt32 - (beWord p ck).toUInt32
    else cksumValue.toUInt32 - (beWord p ck).toUInt32
  let temp :=
    if ipVer p = 4 ∧ p 9 = 0x01 then temp
    else temp + (byteSwap (checkSum (pseudoHeader p))).toUInt32
  (~~~ (fold temp)).toUInt16

/-- What is written into the packet, and where. -/
def checksumWrite (v3 : Bool) (p : Nat → UInt8) (pktLen : Nat) : Option (Nat × List UInt8) :=
  match ckOffset p with
  | none => none
  | some ck =>
    if fragPacket p then none else some (ck, swappedBytes (checkSumTempShort v3 p pktLen ck))

/-- The buffer after the checksum of the packet at `off` was written. -/
def writeChecksum (v3 : Bool) (buffer : Nat → UInt8) (off pktLen : Nat) : Nat → UInt8 :=
  match checksumWrite v3 (fun i => buffer (off + i)) pktLen with
  | none => buffer
  | some (ck, bytes) => copyIn buffer (off + ck) bytes

/-- The packet with its trailer holds the headers that are read and the checksum that is written. -/
def ChecksumInside (p : Nat → UInt8) (pktLen : Nat) : Prop :=
  ∀ ck ∈ ckOffset p, 20 ≤ pktLen + 8 ∧ ck + 2 ≤ pktLen + 8

instance (p : Nat → UInt8) (pktLen : Nat) : Decidable (ChecksumInside p pktLen) := by
  unfold ChecksumInside
  infer_instance

/-! ## What the checksum depends on -/

section

variable {p q : Nat → UInt8} {n : Nat}

theorem slice_congr (h : ∀ i < n, p i = q i) {off len : Nat} (hle : off + len ≤ n) :
    slice p off len = slice q off len := by
  refine List.map_congr_left fun k hk => ?_
  have hlt := List.mem_range.mp hk
  exact h _ (by omega)

theorem beWord_congr (h : ∀ i < n, p i = q i) {i : Nat} (hi : i + 2 ≤ n) :
    beWord p i = beWord q i := by
  rw [beWord, beWord, h i (by omega), h (i + 1) (by omega)]

theorem ipVer_congr (h : ∀ i < n, p i = q i) (hn : 1 ≤ n) : ipVer p = ipVer q := by
  rw [ipVer, ipVer, h 0 (by omega)]

theorem hdrLen_congr (h : ∀ i < n, p i = q i) (hn : 1 ≤ n) : hdrLen p = hdrLen q := by
  rw [hdrLen, hdrLen, ipVer_congr h hn, ipHdrLen, ipHdrLen, h 0 (by omega)]

theorem ckOffset_congr (h : ∀ i < n, p i = q i) (hn : 20 ≤ n) : ckOffset p = ckOffset q := by
  rw [ckOffset, ckOffset, ipVer_congr h (by omega), hdrLen_congr h (by omega), h 9 (by omega),
    h 6 (by omega)]

theorem transportOffset_pos {protocol : UInt8} {k : Nat} (h : transportOffset protocol = some k) :
    2 ≤ k := by
  unfold transportOffset at h
  split at h
  · cases h
    decide
  · split at h
    · cases h
      decide
    · split at h
      · cases h
        decide
      · cases h

/-- The IP header ends before the checksum. -/
theorem hdrLen_le {ck : Nat} (hck : ckOffset p = some ck) : hdrLen p + 2 ≤ ck := by
  obtain ⟨k, hk, rfl⟩ := Option.map_eq_some_iff.mp hck
  exact Nat.add_le_add_left (transportOffset_pos hk) _

/-- What is written depends on the packet and its trailer only, if they hold the headers. -/
theorem checksumWrite_congr {v3 : Bool} {pktLen : Nat} (h : ∀ i < pktLen + 8, p i = q i)
    (hinside : ChecksumInside p pktLen) (hsome : (ckOffset p).isSome) :
    checksumWrite v3 p pktLen = checksumWrite v3 q pktLen := by
  obtain ⟨ck, hck⟩ := Option.isSome_iff_exists.mp hsome
  obtain ⟨hip, hend⟩ := hinside ck hck
  have hck' : ckOffset q = some ck := (ckOffset_congr h hip).symm.trans hck
  have hhdr := hdrLen_le hck
  have hver : ipVer p = ipVer q := ipVer_congr h (by omega)
  have hlen : hdrLen p = hdrLen q := hdrLen_congr h (by omega)
  have hipLen : ipHdrLen p = ipHdrLen q := by rw [ipHdrLen, ipHdrLen, h 0 (by omega)]
  have hfrag : fragPacket p = fragPacket q := by
    rw [fragPacket, fragPacket, hver, beWord_congr h (i := 6) (by omega)]
  have hpseudo : pseudoHeader p = pseudoHeader q := by
    unfold pseudoHeader
    rw [hver, hipLen]
    split
    · rw [slice_congr h (by omega), slice_congr h (by omega), h 9 (by omega),
        beWord_congr h (i := 2) (by omega)]
    next hother =>
      rw [hdrLen, if_neg (hver ▸ hother)] at hhdr
      rw [slice_congr h (by omega), slice_congr h (by omega), h 4 (by omega), h 5 (by omega),
        h 6 (by omega)]
  have hsum : slice p 0 (hdrLen p) = slice q 0 (hdrLen q) := by
    rw [← hlen]
    exact slice_congr h (by omega)
  have hshort : checkSumTempShort v3 p pktLen ck = checkSumTempShort v3 q pktLen ck := by
    simp only [checkSumTempShort, hsum, hpseudo, hver, h 9 (by omega),
      beWord_congr h (i := pktLen + 6) (by omega), beWord_congr h (i := ck) hend]
  simp only [checksumWrite, hck, hck', hfrag, hshort]

theorem checksumWrite_none {v3 : Bool} {pktLen : Nat} (h : ckOffset p = none) :
    checksumWrite v3 p pktLen = none := by
  simp [checksumWrite, h]

/-- A packet that reads as none of the protocols does so for itself too. -/
theorem ckOffset_none_congr {pktLen : Nat} (h : ∀ i < pktLen + 8, p i = q i)
    (hzero : ∀ i, pktLen + 8 ≤ i → q i = 0) (hnone : ckOffset p = none) : ckOffset q = none := by
  have hver : ipVer p = ipVer q := ipVer_congr h (by omega)
  simp only [ckOffset, Option.map_eq_none_iff] at hnone ⊢
  rw [← hver]
  split
  next hv4 =>
    rw [if_pos hv4] at hnone
    rcases Nat.lt_or_ge 9 (pktLen + 8) with hlt | hge
    · rw [← h 9 hlt]
      exact hnone
    · rw [hzero 9 hge]
      rfl
  next hv6 =>
    rw [if_neg hv6] at hnone
    rw [← h 6 (by omega)]
    exact hnone

theorem checksumWrite_some {v3 : Bool} {pktLen ck : Nat} {bytes : List UInt8}
    (h : checksumWrite v3 p pktLen = some (ck, bytes)) :
    ckOffset p = some ck ∧ bytes.length = 2 := by
  unfold checksumWrite at h
  split at h
  next => cases h
  next hck =>
    split at h
    · cases h
    · obtain ⟨rfl, rfl⟩ := Prod.mk.inj (Option.some.inj h)
      exact ⟨hck, rfl⟩

/-- The checksum is written inside the packet and its trailer. -/
theorem writeChecksum_outside {v3 : Bool} {buffer : Nat → UInt8} {off pktLen i : Nat}
    (hinside : ChecksumInside (fun k => buffer (off + k)) pktLen)
    (hi : i < off ∨ off + pktLen + 8 ≤ i) : writeChecksum v3 buffer off pktLen i = buffer i := by
  cases hwrite : checksumWrite v3 (fun k => buffer (off + k)) pktLen with
  | none => simp only [writeChecksum, hwrite]
  | some write =>
    obtain ⟨ck, bytes⟩ := write
    obtain ⟨hck, hlen⟩ := checksumWrite_some hwrite
    obtain ⟨-, hend⟩ := hinside ck hck
    simp only [writeChecksum, hwrite]
    exact copyIn_outside _ _ _ (by omega)

/-- The packet as the checksum leaves it, read in the buffer and for itself. -/
theorem slice_writeChecksum {v3 : Bool} {buffer : Nat → UInt8} {off pktLen len : Nat}
    (h : ∀ i < pktLen + 8, buffer (off + i) = q i) (hzero : ∀ i, pktLen + 8 ≤ i → q i = 0)
    (hinside : ChecksumInside (fun k => buffer (off + k)) pktLen) (hlen : len ≤ pktLen + 8) :
    slice (writeChecksum v3 buffer off pktLen) off len
      = slice (writeChecksum v3 q 0 pktLen) 0 len := by
  have hsame : slice buffer off len = slice q 0 len := by
    refine List.map_congr_left fun k hk => ?_
    have hlt := List.mem_range.mp hk
    rw [Nat.zero_add]
    exact h k (by omega)
  simp only [writeChecksum, Nat.zero_add]
  cases hck : ckOffset (fun k => buffer (off + k)) with
  | none =>
    rw [checksumWrite_none hck, checksumWrite_none (ckOffset_none_congr h hzero hck)]
    exact hsame
  | some ck =>
    have hwrite : checksumWrite v3 (fun k => buffer (off + k)) pktLen = checksumWrite v3 q pktLen :=
      checksumWrite_congr h hinside (by simp [hck])
    rw [← hwrite]
    split
    next => exact hsame
    next ck' bytes _ =>
      refine List.map_congr_left fun k hk => ?_
      have hlt := List.mem_range.mp hk
      have hold : buffer (off + k) = q k := h k (by omega)
      rw [Nat.zero_add]
      rcases Nat.lt_or_ge k ck' with hbefore | hafter
      · rw [copyIn_outside _ _ _ (by omega), copyIn_outside _ _ _ (by omega), hold]
      · obtain ⟨d, rfl⟩ := Nat.exists_eq_add_of_le hafter
        rcases Nat.lt_or_ge d bytes.length with hin | hout
        · rw [← Nat.add_assoc, copyIn_inside _ _ _ hin, copyIn_inside _ _ _ hin]
        · rw [copyIn_outside _ _ _ (by omega), copyIn_outside _ _ _ (by omega), hold]

end

end Transport
