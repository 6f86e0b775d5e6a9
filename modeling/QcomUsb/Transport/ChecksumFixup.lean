-- SUMMARY: The transport checksum written into a good packet of a QMAP V2 frame is the one it came with.
import QcomUsb.Library.OnesComplement
import QcomUsb.Transport.QmapRead

/-!
# Checksums of good packets

The trailer of a frame in QMAP V2 has the ones' complement sum of the IP payload. The checksum field
is subtracted from it and the sum of the pseudo header is added, in 32 bits without a sign. For a
packet with a correct checksum the difference and the sum together never fall below zero, so the
result is the field that came with the packet.
-/

namespace Transport

open Memory OnesComplement

/-! ## Good packets -/

/-- The transport protocols whose checksum covers a pseudo header. -/
inductive Upper
  | tcp
  | udp
deriving DecidableEq

namespace Upper

def protocol : Upper → UInt8
  | .tcp => 0x06
  | .udp => 0x11

def headerLength : Upper → Nat
  | .tcp => 20
  | .udp => 8

def checksumOffset : Upper → Nat
  | .tcp => 16
  | .udp => 6

end Upper

/-- The extension headers of an unfragmented IPv6 packet, with their length in memory. -/
inductive Extension (p : Nat → UInt8) (off : Nat) : UInt8 → Nat → Prop
  | hopByHop : Extension p off 0 (8 * ((p (off + 1)).toNat + 1))
  | routing : Extension p off 43 (8 * ((p (off + 1)).toNat + 1))
  | atomicFragment : beWord p (off + 2) &&& 0xfff9 = 0 → Extension p off 44 8
  | authentication : Extension p off 51 (4 * ((p (off + 1)).toNat + 2))
  | destinationOptions : Extension p off 60 (8 * ((p (off + 1)).toNat + 1))
  | mobility : Extension p off 135 (8 * ((p (off + 1)).toNat + 1))
  | hostIdentity : Extension p off 139 (8 * ((p (off + 1)).toNat + 1))
  | shim6 : Extension p off 140 (8 * ((p (off + 1)).toNat + 1))

/-- From a header of a type at an offset, extension headers lead to the one of `upper` at `l4`. -/
inductive LeadsTo (p : Nat → UInt8) (upper : Upper) (l4 : Nat) : UInt8 → Nat → Prop
  | here : LeadsTo p upper l4 upper.protocol l4
  | extension {nextHdr : UInt8} {off len : Nat} : Extension p off nextHdr len →
      LeadsTo p upper l4 (p off) (off + len) → LeadsTo p upper l4 nextHdr off

/-- The length of the packet, as its header gives it. -/
def packetLength (p : Nat → UInt8) : Nat :=
  if ipVer p = 4 then (beWord p 2).toNat else 40 + (beWord p 4).toNat

/-- What the device sums up. -/
def ipPayload (p : Nat → UInt8) : List UInt8 := slice p (hdrLen p) (packetLength p - hdrLen p)

/-- The two addresses in the header. -/
def addresses (p : Nat → UInt8) : List UInt8 := if ipVer p = 4 then slice p 12 8 else slice p 8 32

/-- The words that the transport checksum is the complement of the sum of, with the checksum. -/
def checksummedWords (p : Nat → UInt8) (upper : Upper) (l4 : Nat) : List Nat :=
  words (addresses p) ++ [upper.protocol.toNat, packetLength p - l4] ++
    words (slice p l4 (packetLength p - l4))

/-- The packet in a frame of `pktLen` bytes is an unfragmented IPv4 or IPv6 packet, its header of
`upper` is at `l4`, and its transport checksum is correct. -/
structure GoodPacket (p : Nat → UInt8) (pktLen : Nat) (upper : Upper) (l4 : Nat) : Prop where
  header : (ipVer p = 4 ∧ 20 ≤ ipHdrLen p ∧ p 9 = upper.protocol ∧ l4 = ipHdrLen p ∧
      fragPacket p = false) ∨ (ipVer p = 6 ∧ LeadsTo p upper l4 (p 6) 40)
  upperHeader : l4 + upper.headerLength ≤ packetLength p
  inFrame : packetLength p ≤ pktLen
  nonzero : upper = .udp → beWord p (l4 + upper.checksumOffset) ≠ 0
  correct : sum 0xffff (checksummedWords p upper l4) = 0xffff

/-- Equal checksums. There are two zeros. -/
def SameChecksum (a b : UInt16) : Prop := a = b ∨ (a = 0 ∧ b = 0xffff) ∨ (a = 0xffff ∧ b = 0)

instance (a b : UInt16) : Decidable (SameChecksum a b) := by
  unfold SameChecksum
  infer_instance

theorem SameChecksum.refl (a : UInt16) : SameChecksum a a := .inl rfl

theorem sameChecksum_of_modEq {a b : UInt16} (h : a.toNat ≡ b.toNat [MOD 0xffff]) :
    SameChecksum a b := by
  have ha : a.toNat ≤ 0xffff := Nat.le_of_lt_succ a.toNat_lt
  have hb : b.toNat ≤ 0xffff := Nat.le_of_lt_succ b.toNat_lt
  rcases eq_or_zeros ha hb h with heq | ⟨hzero, hones⟩ | ⟨hones, hzero⟩
  · exact .inl (UInt16.toNat.inj heq)
  · exact .inr (.inl ⟨UInt16.toNat.inj hzero, UInt16.toNat.inj hones⟩)
  · exact .inr (.inr ⟨UInt16.toNat.inj hones, UInt16.toNat.inj hzero⟩)

/-! ## The sums of the code -/

theorem leWord_toNat (lo hi : UInt8) : (leWord lo hi).toNat = lo.toNat + 256 * hi.toNat := by
  have hlo := lo.toNat_lt
  have hhi := hi.toNat_lt
  rw [leWord, UInt16.toNat_ofNat']
  omega

theorem beWord_toNat (p : Nat → UInt8) (i : Nat) :
    (beWord p i).toNat = 256 * (p i).toNat + (p (i + 1)).toNat := by
  rw [beWord, leWord_toNat, Nat.add_comm]

theorem sumWords_toNat {bytes : List UInt8} (h : bytes.length < 2 ^ 16) :
    (sumWords bytes).toNat = swappedSum bytes := by
  induction bytes using words.induct with
  | case1 => rfl
  | case2 a => rfl
  | case3 a b rest ih =>
      have hle := swappedSum_le (a :: b :: rest)
      rw [List.length_cons, List.length_cons] at h hle
      have hrest := ih (by omega)
      have hword : (leWord a b).toUInt32.toNat = a.toNat + 256 * b.toNat := leWord_toNat a b
      simp only [swappedSum] at hle
      rw [sumWords, swappedSum, UInt32.toNat_add, hrest, hword]
      omega

/-- `fold` and the truncation to 16 bits are two steps of folding. -/
theorem fold_toNat (s : UInt32) :
    (Transport.fold s).toUInt16.toNat
      = OnesComplement.fold 0xffff (OnesComplement.fold 0xffff s.toNat) := by
  have hs := s.toNat_lt
  have hand : s.toNat &&& 0xffff = s.toNat % 65536 := Nat.and_two_pow_sub_one_eq_mod _ 16
  have hshift : ∀ n : UInt32, (n >>> 16).toNat = n.toNat / 65536 := fun n => by
    rw [UInt32.toNat_shiftRight]
    exact Nat.shiftRight_eq_div_pow _ 16
  simp only [Transport.fold, OnesComplement.fold, UInt32.toNat_toUInt16, UInt32.toNat_add,
    hshift, UInt32.toNat_and, UInt32.reduceToNat, hand]
  omega

theorem fold_modEq_toNat (s : UInt32) :
    (Transport.fold s).toUInt16.toNat ≡ s.toNat [MOD 0xffff] := by
  rw [fold_toNat]
  exact fold_fold_modEq _

theorem byteSwap_toNat (w : UInt16) :
    (byteSwap w).toNat = 256 * (w.toNat % 256) + w.toNat / 256 := by
  have hw := w.toNat_lt
  have hhigh : (w >>> 8).toNat = w.toNat / 256 := by
    rw [UInt16.toNat_shiftRight]
    exact Nat.shiftRight_eq_div_pow _ 8
  have hlow : (w <<< 8).toNat = (w.toNat % 256) <<< 8 := by
    rw [UInt16.toNat_shiftLeft]
    change w.toNat <<< 8 % 65536 = _
    rw [Nat.shiftLeft_eq, Nat.shiftLeft_eq]
    omega
  rw [byteSwap, UInt16.toNat_or, hhigh, hlow, Nat.or_comm,
    ← Nat.shiftLeft_add_eq_or_of_lt (by omega), Nat.shiftLeft_eq]
  omega

theorem byteSwap_modEq (w : UInt16) : (byteSwap w).toNat ≡ 256 * w.toNat [MOD 0xffff] := by
  rw [byteSwap_toNat]
  have hcarry : 256 * w.toNat
      = 256 * (w.toNat % 256) + w.toNat / 256 + 0xffff * (w.toNat / 256) := by omega
  rw [hcarry]
  exact (Nat.add_mul_mod_self_left _ _ _).symm

theorem byteSwap_eq_zero {w : UInt16} (h : byteSwap w = 0) : w = 0 := by
  have hnat : (byteSwap w).toNat = 0 := by rw [h]; rfl
  rw [byteSwap_toNat] at hnat
  apply UInt16.toNat.inj
  change w.toNat = 0
  omega

/-- `CheckSum`, in the byte order of the host, is the ones' complement sum of the words. -/
theorem byteSwap_checkSum_modEq {bytes : List UInt8} (h : bytes.length < 2 ^ 16) :
    (byteSwap (checkSum bytes)).toNat ≡ (words bytes).sum [MOD 0xffff] := by
  calc (byteSwap (checkSum bytes)).toNat
      ≡ 256 * (checkSum bytes).toNat [MOD 0xffff] := byteSwap_modEq _
    _ ≡ 256 * (sumWords bytes).toNat [MOD 0xffff] := (fold_modEq_toNat _).mul_left 256
    _ = 256 * swappedSum bytes := by rw [sumWords_toNat h]
    _ ≡ (words bytes).sum [MOD 0xffff] := swappedSum_modEq bytes

/-- It is zero only if all bytes are. -/
theorem byteSwap_checkSum_pos {bytes : List UInt8} (h : bytes.length < 2 ^ 16)
    (hne : ∃ a ∈ bytes, a ≠ 0) : 0 < (byteSwap (checkSum bytes)).toNat := by
  apply Nat.pos_of_ne_zero
  intro hzero
  have hsum : (checkSum bytes).toNat = 0 := by
    rw [byteSwap_eq_zero (UInt16.toNat.inj hzero)]
    rfl
  rw [checkSum, fold_toNat] at hsum
  have hwords : (sumWords bytes).toNat = 0 := by
    have := OnesComplement.fold_eq_zero.mp (OnesComplement.fold_eq_zero.mp hsum)
    exact this
  rw [sumWords_toNat h] at hwords
  obtain ⟨a, ha, hne⟩ := hne
  exact hne (swappedSum_eq_zero.mp hwords a ha)

/-! ## The written checksum -/

/-- The field that is written, from the trailer's sum, the field and the pseudo header's sum. -/
theorem complement_toNat (s : UInt32) :
    (~~~ s).toUInt16.toNat = 0xffff - s.toUInt16.toNat := by
  rw [UInt32.toUInt16_not, UInt16.toNat_not]
  rfl

/-- If the two sums make up a multiple of the largest word that is not zero, the field is not
above them, and the result is the field. -/
theorem written_modEq {value pseudo : UInt16} (field : UInt16)
    (hzero : value.toNat + pseudo.toNat ≡ 0 [MOD 0xffff]) (hpos : 0 < pseudo.toNat) :
    (~~~ (Transport.fold (value.toUInt32 - field.toUInt32 + pseudo.toUInt32))).toUInt16.toNat
      ≡ field.toNat [MOD 0xffff] := by
  have hvalue := value.toNat_lt
  have hfield := field.toNat_lt
  have hpseudo := pseudo.toNat_lt
  have hge : 0xffff ≤ value.toNat + pseudo.toNat :=
    Nat.le_of_dvd (by omega) (Nat.modEq_zero_iff_dvd.mp hzero)
  have htemp : (value.toUInt32 - field.toUInt32 + pseudo.toUInt32).toNat
      = value.toNat + pseudo.toNat - field.toNat := by
    rw [UInt32.toNat_add, UInt32.toNat_sub, UInt16.toNat_toUInt32, UInt16.toNat_toUInt32,
      UInt16.toNat_toUInt32]
    omega
  rw [complement_toNat]
  have hrest : value.toNat + pseudo.toNat - field.toNat + field.toNat ≡ 0 [MOD 0xffff] := by
    rw [Nat.sub_add_cancel (by omega)]
    exact hzero
  apply complement_modEq hrest
  · rw [← htemp]
    exact fold_modEq_toNat _
  · exact Nat.le_of_lt_succ (UInt16.toNat_lt _)

theorem words_append {xs ys : List UInt8} (h : Even xs.length) :
    words (xs ++ ys) = words xs ++ words ys := by
  induction xs using words.induct with
  | case1 => rfl
  | case2 a => simp at h
  | case3 a b rest ih =>
      have hrest : Even rest.length := by
        rw [List.length_cons, List.length_cons] at h
        simpa [Nat.even_add_one] using h
      simp only [List.cons_append, words, ih hrest]

theorem words_swappedBytes (w : UInt16) : words (swappedBytes w) = [w.toNat] := by
  have hw := w.toNat_lt
  simp only [swappedBytes, words, UInt8.toNat_ofNat', List.cons.injEq, and_true]
  omega

section

variable {p : Nat → UInt8} {pktLen l4 : Nat} {upper : Upper}

theorem Upper.transportOffset (upper : Upper) :
    transportOffset upper.protocol = some upper.checksumOffset := by
  cases upper <;> decide

/-- Behind extension headers no checksum is written. -/
theorem LeadsTo.cases (h : LeadsTo p upper l4 (p 6) 40) :
    (p 6 = upper.protocol ∧ l4 = 40) ∨ transportOffset (p 6) = none := by
  generalize hnext : p 6 = nextHdr at h
  cases h with
  | here => exact .inl ⟨rfl, rfl⟩
  | extension hext _ =>
      right
      cases hext <;> decide

/-- What the code takes for the headers of a packet is what they are. -/
structure Headers (p : Nat → UInt8) (upper : Upper) (l4 : Nat) : Prop where
  hdrLen : hdrLen p = l4
  ckOffset : ckOffset p = some (l4 + upper.checksumOffset)
  pseudo : (words (pseudoHeader p)).sum
    = (words (addresses p)).sum + upper.protocol.toNat + (packetLength p - l4)
  length : (pseudoHeader p).length < 2 ^ 16
  nonzero : ∃ a ∈ pseudoHeader p, a ≠ 0
  notIcmp : ¬ (ipVer p = 4 ∧ p 9 = 0x01)

theorem Upper.protocol_ne (upper : Upper) : upper.protocol ≠ 0 ∧ upper.protocol ≠ 0x01 := by
  cases upper <;> decide

theorem headers_ipv4 (hver : ipVer p = 4) (hproto : p 9 = upper.protocol)
    (hle : ipHdrLen p ≤ packetLength p) : Headers p upper (ipHdrLen p) := by
  have hlen : packetLength p = (beWord p 2).toNat := by rw [packetLength, if_pos hver]
  have hihl : ipHdrLen p < 2 ^ 16 := by
    have hnibble : (p 0 &&& 0x0f).toNat ≤ 15 := by
      rw [UInt8.toNat_and]
      exact Nat.and_le_right
    unfold ipHdrLen
    omega
  have hpseudo : pseudoHeader p = slice p 12 8 ++ [0, upper.protocol] ++
      swappedBytes (beWord p 2 - UInt16.ofNat (ipHdrLen p)) := by
    rw [pseudoHeader, if_pos hver, hproto, slice_add p 12 4 4]
  have hlength : (beWord p 2 - UInt16.ofNat (ipHdrLen p)).toNat = packetLength p - ipHdrLen p := by
    have hlt := (beWord p 2).toNat_lt
    rw [UInt16.toNat_sub, UInt16.toNat_ofNat', hlen]
    rw [hlen] at hle
    omega
  exact {
    hdrLen := by rw [hdrLen, if_pos hver]
    ckOffset := by
      rw [ckOffset, if_pos hver, hproto, upper.transportOffset, hdrLen, if_pos hver]
      rfl
    pseudo := by
      rw [hpseudo, words_append (by simp [Nat.even_add_one]), words_append (by simp; decide),
        words_swappedBytes, hlength, addresses, if_pos hver]
      simp [words, Nat.add_assoc]
    length := by
      rw [hpseudo]
      simp [swappedBytes]
    nonzero := ⟨upper.protocol, by rw [hpseudo]; simp, upper.protocol_ne.1⟩
    notIcmp := fun h => upper.protocol_ne.2 (hproto.symm.trans h.2) }

theorem headers_ipv6 (hver : ipVer p ≠ 4) (hproto : p 6 = upper.protocol) : Headers p upper 40 := by
  have hlen : packetLength p = 40 + (beWord p 4).toNat := by rw [packetLength, if_neg hver]
  have hpseudo : pseudoHeader p
      = slice p 8 32 ++ ([p 4, p 5, 0, 0] ++ [0, 0, 0, upper.protocol]) := by
    rw [pseudoHeader, if_neg hver, hproto, slice_add p 8 16 16, List.append_assoc]
  exact {
    hdrLen := by rw [hdrLen, if_neg hver]
    ckOffset := by
      rw [ckOffset, if_neg hver, hproto, upper.transportOffset, hdrLen, if_neg hver]
      rfl
    pseudo := by
      rw [hpseudo, words_append (by simp; decide), addresses, if_neg hver, hlen, beWord_toNat]
      simp [words]
      omega
    length := by
      rw [hpseudo]
      simp
    nonzero := ⟨upper.protocol, by rw [hpseudo]; simp, upper.protocol_ne.1⟩
    notIcmp := fun h => hver h.1 }

theorem GoodPacket.headers (h : GoodPacket p pktLen upper l4) :
    Headers p upper l4 ∨ ckOffset p = none := by
  have hle := h.upperHeader
  rcases h.header with ⟨hver, -, hproto, rfl, -⟩ | ⟨hver, hleads⟩
  · exact .inl (headers_ipv4 hver hproto (by omega))
  · have hne : ipVer p ≠ 4 := by rw [hver]; decide
    rcases hleads.cases with ⟨hproto, rfl⟩ | hnone
    · exact .inl (headers_ipv6 hne hproto)
    · right
      rw [ckOffset, if_neg hne, hnone]
      rfl

/-- The sums of the payload and of the pseudo header make up zero. -/
theorem GoodPacket.sum_modEq (h : GoodPacket p pktLen upper l4) (hheaders : Headers p upper l4) :
    (words (ipPayload p)).sum + (words (pseudoHeader p)).sum ≡ 0 [MOD 0xffff] := by
  have hall : (checksummedWords p upper l4).sum
      = (words (ipPayload p)).sum + (words (pseudoHeader p)).sum := by
    rw [checksummedWords, ipPayload, hheaders.hdrLen, hheaders.pseudo]
    simp only [List.sum_append, List.sum_cons, List.sum_nil]
    omega
  rw [← hall]
  calc (checksummedWords p upper l4).sum
      ≡ sum 0xffff (checksummedWords p upper l4) [MOD 0xffff] := (OnesComplement.sum_modEq _).symm
    _ = 0xffff := h.correct
    _ ≡ 0 [MOD 0xffff] := Nat.modEq_zero_iff_dvd.mpr (dvd_refl _)

/-- What is written into a good packet is the checksum it has. -/
theorem GoodPacket.checksumWrite (h : GoodPacket p pktLen upper l4)
    (hvalue : (beWord p (pktLen + 6)).toNat = sum 0xffff (words (ipPayload p)))
    {ck : Nat} {bytes : List UInt8} (hwrite : checksumWrite false p pktLen = some (ck, bytes)) :
    ck = l4 + upper.checksumOffset ∧
      ∃ w, bytes = swappedBytes w ∧ SameChecksum w (beWord p ck) := by
  obtain ⟨hck, -⟩ := checksumWrite_some hwrite
  rcases h.headers with hheaders | hnone
  · obtain rfl : l4 + upper.checksumOffset = ck :=
      Option.some.inj (hheaders.ckOffset.symm.trans hck)
    refine ⟨rfl, checkSumTempShort false p pktLen (l4 + upper.checksumOffset), ?_, ?_⟩
    · simp only [Transport.checksumWrite, hck] at hwrite
      split at hwrite
      · cases hwrite
      · exact (Prod.mk.inj (Option.some.inj hwrite)).2.symm
    · apply sameChecksum_of_modEq
      have hpos := byteSwap_checkSum_pos hheaders.length hheaders.nonzero
      have hzero : (beWord p (pktLen + 6)).toNat + (byteSwap (checkSum (pseudoHeader p))).toNat
          ≡ 0 [MOD 0xffff] := by
        rw [hvalue]
        calc sum 0xffff (words (ipPayload p)) + (byteSwap (checkSum (pseudoHeader p))).toNat
            ≡ (words (ipPayload p)).sum + (words (pseudoHeader p)).sum [MOD 0xffff] :=
              (OnesComplement.sum_modEq _).add (byteSwap_checkSum_modEq hheaders.length)
          _ ≡ 0 [MOD 0xffff] := h.sum_modEq hheaders
      have hwritten := written_modEq (beWord p (l4 + upper.checksumOffset)) hzero hpos
      simp only [checkSumTempShort, Bool.false_eq_true, if_false, if_neg hheaders.notIcmp]
      exact hwritten
  · cases hnone.symm.trans hck

end

/-! ## The packet in the buffer -/

/-- The memory is the same but for a checksum, which is equal. -/
structure SameButChecksum (mem mem' : Nat → UInt8) (ck : Nat) : Prop where
  checksum : SameChecksum (beWord mem' ck) (beWord mem ck)
  others : ∀ i, i < ck ∨ ck + 2 ≤ i → mem' i = mem i

theorem SameButChecksum.refl (mem : Nat → UInt8) (ck : Nat) : SameButChecksum mem mem ck :=
  ⟨.refl _, fun _ _ => rfl⟩

theorem beWord_copyIn (mem : Nat → UInt8) (ck : Nat) (w : UInt16) :
    beWord (copyIn mem ck (swappedBytes w)) ck = w := by
  have hhigh := copyIn_inside mem ck (swappedBytes w) (k := 0) Nat.two_pos
  have hlow := copyIn_inside mem ck (swappedBytes w) (k := 1) Nat.one_lt_two
  rw [Nat.add_zero] at hhigh
  rw [beWord, hhigh, hlow]
  exact leWord_swappedBytes w

/-- The fix-up leaves a good packet as it is. -/
theorem GoodPacket.writeChecksum {buffer : Nat → UInt8} {off pktLen l4 : Nat} {upper : Upper}
    (h : GoodPacket (fun i => buffer (off + i)) pktLen upper l4)
    (hvalue : (beWord (fun i => buffer (off + i)) (pktLen + 6)).toNat
      = sum 0xffff (words (ipPayload fun i => buffer (off + i)))) :
    SameButChecksum buffer (writeChecksum false buffer off pktLen)
      (off + (l4 + upper.checksumOffset)) := by
  cases hwrite : Transport.checksumWrite false (fun i => buffer (off + i)) pktLen with
  | none =>
      simp only [Transport.writeChecksum, hwrite]
      exact .refl _ _
  | some write =>
      obtain ⟨ck, bytes⟩ := write
      obtain ⟨rfl, w, rfl, hsame⟩ := h.checksumWrite hvalue hwrite
      simp only [Transport.writeChecksum, hwrite]
      constructor
      · rw [beWord_copyIn]
        exact hsame
      · intro i hi
        exact copyIn_outside _ _ _ hi

/-! ## Calls of the read path -/

namespace State

/-- The memory of the level-2 buffers. -/
def buffers (s : State) : List (Nat → UInt8) := s.pL2ReadBuffer.map (·.buffer)

section

variable {dev : DevExt} {s : State}

end

end State

/-- A frame with an IPv4 UDP packet, and its checksum trailer. -/
def udpFrame : List UInt8 :=
  [0, 1, 0, 28] ++
    [0x45, 0, 0, 28, 0, 0, 0, 0, 64, 0x11, 0, 0, 10, 0, 0, 1, 10, 0, 0, 2] ++
    [0, 53, 0, 53, 0, 8, 0xeb, 0x71] ++ [0x80, 0, 0, 20, 0, 8, 0xeb, 0xe3]

end Transport
