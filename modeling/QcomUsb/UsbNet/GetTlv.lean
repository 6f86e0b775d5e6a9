-- SUMMARY: The TLV scan of the QMI response parsers: when it ends, and when it agrees with the TLV grammar.
import QcomUsb.Library.Loop
import QcomUsb.Library.Tlv
import QcomUsb.UsbNet.Device

/-!
# The TLV scan

`GetTLV` walks over the TLVs of a QMI message with a 16-bit position. It checks that a
TLV header and one more byte lie in the message, but not where the value ends.
-/

namespace UsbNet

open Memory

/-- `ENOMEM`. -/
abbrev enomem : Int := 12

/-- `EFAULT`. -/
abbrev efault : Int := 14

/-- `ENOMSG`. -/
abbrev enomsg : Int := 42

/-- `ENODATA`. -/
abbrev enodata : Int := 61

/-- `pQMIMessage` and `messageLen`: memory from the message on, and how much of it is the
message. -/
structure QmiMessage where
  data : Nat → UInt8
  messageLen : UInt16

/-- The bytes behind the message id and the length of the message. -/
def QmiMessage.tlvBytes (msg : QmiMessage) : List UInt8 :=
  slice msg.data 4 (msg.messageLen.toNat - 4)

/-- An output buffer of `n` bytes. -/
abbrev Buf (n : Nat) := Fin n → UInt8

/-- Bytes written from the start of a buffer on. -/
def Buf.overwrite {n : Nat} (out : Buf n) (value : List UInt8) : Buf n := fun i =>
  value.getD i (out i)

/-- What a call of `GetTLV` returns, and the output buffer it leaves. -/
structure TlvResult (bufferLen : Nat) where
  result : Int
  pOutDataBuf : Buf bufferLen
  deriving DecidableEq

/-- One turn of the scan: the blocks of the message it reads, each as its offset and
length, and the result or the next position. -/
structure ScanTurn (bufferLen : Nat) where
  reads : List (Nat × Nat)
  next : TlvResult bufferLen ⊕ UInt16

variable {bufferLen : Nat}

/-- The body of the scan loop, with the guard in front of it. -/
def scanTurn (msg : QmiMessage) (type : UInt8) (pOutDataBuf : Buf bufferLen) (pos : UInt16) :
    ScanTurn bufferLen :=
  if pos.toNat + 3 < msg.messageLen.toNat then
    let tlvSize := ofBytes (msg.data (pos.toNat + 1)) (msg.data (pos.toNat + 2))
    let header := [(pos.toNat + 1, 2), (pos.toNat, 1)]
    if msg.data pos.toNat = type then
      if bufferLen < tlvSize.toNat then ⟨header, .inl ⟨-enomem, pOutDataBuf⟩⟩
      else
        ⟨header ++ [(pos.toNat + 3, tlvSize.toNat)],
          .inl ⟨tlvSize.toNat,
            pOutDataBuf.overwrite (slice msg.data (pos.toNat + 3) tlvSize.toNat)⟩⟩
    -- the position wraps around at 65536
    else ⟨header, .inr (pos + (tlvSize + 3))⟩
  else ⟨[], .inl ⟨-enomsg, pOutDataBuf⟩⟩

/-- The scan loop. -/
def scan (msg : QmiMessage) (type : UInt8) (pOutDataBuf : Buf bufferLen) (pos : UInt16) :
    TlvResult bufferLen ⊕ UInt16 := (scanTurn msg type pOutDataBuf pos).next

/-- `GetTLV`, for at most `fuel` turns of its loop. -/
def getTLV (fuel : Nat) (msg : QmiMessage) (type : UInt8) (pOutDataBuf : Buf bufferLen) :
    Option (TlvResult bufferLen) := Loop.run (scan msg type pOutDataBuf) fuel 4

/-! ## The chain of positions -/

/-- The length field of the TLV at `pos`. -/
def QmiMessage.tlvSize (msg : QmiMessage) (pos : UInt16) : Nat := Tlv.sizeAt msg.data pos.toNat

/-- A TLV header and one more byte lie in the message. -/
def InScan (msg : QmiMessage) (pos : UInt16) : Prop := pos.toNat + 3 < msg.messageLen.toNat

/-- The scan passes over the TLV at `pos`. -/
def Passed (msg : QmiMessage) (type : UInt8) (pos : UInt16) : Prop :=
  InScan msg pos ∧ msg.data pos.toNat ≠ type

/-- Where TLV number `k` of the chain from `start` on begins: each follows the value of the
one before it, modulo 65536. -/
def tlvPos (msg : QmiMessage) (start : UInt16) : Nat → UInt16
  | 0 => start
  | k + 1 => tlvPos msg start k + UInt16.ofNat (msg.tlvSize (tlvPos msg start k) + 3)

/-- The bytes that the TLVs from number `i` up to number `j` take up. -/
def tlvSpan (msg : QmiMessage) (start : UInt16) (i j : Nat) : Nat :=
  ∑ k ∈ Finset.Ico i j, (msg.tlvSize (tlvPos msg start k) + 3)

/-- No run of TLVs that the scan passes over takes up a multiple of 65536 bytes. -/
def NoFullTurn (msg : QmiMessage) (type : UInt8) (start : UInt16) : Prop :=
  ∀ i j, i < j → (∀ k < j, Passed msg type (tlvPos msg start k)) →
    ¬ 65536 ∣ tlvSpan msg start i j

theorem ofBytes_toNat (low high : UInt8) : (ofBytes low high).toNat = Tlv.lengthField low high := by
  have h := Tlv.lengthField_lt low high
  rw [ofBytes, UInt16.toNat_ofNat']
  exact Nat.mod_eq_of_lt h

theorem tlvPos_toNat (msg : QmiMessage) (start : UInt16) (k : Nat) :
    (tlvPos msg start k).toNat = (start.toNat + tlvSpan msg start 0 k) % 65536 := by
  induction k with
  | zero => simp [tlvPos, tlvSpan, Nat.mod_eq_of_lt start.toNat_lt]
  | succ k ih =>
    have hspan : tlvSpan msg start 0 (k + 1) =
        tlvSpan msg start 0 k + (msg.tlvSize (tlvPos msg start k) + 3) := by
      rw [tlvSpan, Finset.sum_Ico_succ_top (Nat.zero_le k), tlvSpan]
    rw [tlvPos, UInt16.toNat_add, UInt16.toNat_ofNat', ih, hspan]
    omega

/-- A run of TLVs leads back to where it began exactly if it takes up a multiple of 65536
bytes. -/
theorem tlvPos_eq_iff (msg : QmiMessage) (start : UInt16) {i j : Nat} (hij : i ≤ j) :
    tlvPos msg start j = tlvPos msg start i ↔ 65536 ∣ tlvSpan msg start i j := by
  have hsplit : tlvSpan msg start 0 j = tlvSpan msg start 0 i + tlvSpan msg start i j :=
    (Finset.sum_Ico_consecutive _ (Nat.zero_le i) hij).symm
  rw [← UInt16.toNat_inj, tlvPos_toNat, tlvPos_toNat, hsplit]
  omega

/-! ## One turn -/

variable {msg : QmiMessage} {type : UInt8} {out : Buf bufferLen} {pos start : UInt16}

/-- The blocks a turn reads of a TLV header. -/
def headerReads (pos : UInt16) : List (Nat × Nat) := [(pos.toNat + 1, 2), (pos.toNat, 1)]

theorem scanTurn_end (h : ¬ InScan msg pos) :
    scanTurn msg type out pos = ⟨[], .inl ⟨-enomsg, out⟩⟩ := if_neg h

theorem scanTurn_passed (h : Passed msg type pos) :
    scanTurn msg type out pos =
      ⟨headerReads pos, .inr (pos + UInt16.ofNat (msg.tlvSize pos + 3))⟩ := by
  have hsize : ofBytes (msg.data (pos.toNat + 1)) (msg.data (pos.toNat + 2)) + 3 =
      UInt16.ofNat (msg.tlvSize pos + 3) := by
    apply UInt16.toNat.inj
    rw [UInt16.toNat_add, ofBytes_toNat, UInt16.toNat_ofNat']
    rfl
  rw [scanTurn, if_pos (by exact h.1), if_neg h.2, hsize]
  rfl

/-- A TLV of the type, taken. -/
theorem scanTurn_found (h : InScan msg pos) (heq : msg.data pos.toNat = type)
    (hfit : msg.tlvSize pos ≤ bufferLen) :
    scanTurn msg type out pos =
      ⟨headerReads pos ++ [(pos.toNat + 3, msg.tlvSize pos)],
        .inl ⟨msg.tlvSize pos,
          out.overwrite (slice msg.data (pos.toNat + 3) (msg.tlvSize pos))⟩⟩ := by
  rw [scanTurn, if_pos (by exact h), if_pos heq, ofBytes_toNat]
  exact if_neg (Nat.not_lt.mpr hfit)

/-- A TLV of the type that the output buffer cannot take. -/
theorem scanTurn_tooLong (h : InScan msg pos) (heq : msg.data pos.toNat = type)
    (hlong : bufferLen < msg.tlvSize pos) :
    scanTurn msg type out pos = ⟨headerReads pos, .inl ⟨-enomem, out⟩⟩ := by
  rw [scanTurn, if_pos (by exact h), if_pos heq, ofBytes_toNat]
  exact if_pos hlong

theorem scan_end (h : ¬ InScan msg pos) : scan msg type out pos = .inl ⟨-enomsg, out⟩ :=
  congrArg ScanTurn.next (scanTurn_end h)

theorem scan_passed (h : Passed msg type pos) :
    scan msg type out pos = .inr (pos + UInt16.ofNat (msg.tlvSize pos + 3)) :=
  congrArg ScanTurn.next (scanTurn_passed h)

theorem scan_found (h : InScan msg pos) (heq : msg.data pos.toNat = type)
    (hfit : msg.tlvSize pos ≤ bufferLen) :
    scan msg type out pos = .inl ⟨msg.tlvSize pos,
      out.overwrite (slice msg.data (pos.toNat + 3) (msg.tlvSize pos))⟩ :=
  congrArg ScanTurn.next (scanTurn_found h heq hfit)

theorem scan_tooLong (h : InScan msg pos) (heq : msg.data pos.toNat = type)
    (hlong : bufferLen < msg.tlvSize pos) : scan msg type out pos = .inl ⟨-enomem, out⟩ :=
  congrArg ScanTurn.next (scanTurn_tooLong h heq hlong)

variable (out) in
/-- The scan stops at a TLV of the type with anything but `-ENOMSG`. -/
theorem scan_match (h : InScan msg pos) (heq : msg.data pos.toNat = type) :
    ∃ r, scan msg type out pos = .inl r ∧ r.result ≠ -enomsg := by
  rcases Nat.lt_or_ge bufferLen (msg.tlvSize pos) with hlong | hfit
  · exact ⟨_, scan_tooLong h heq hlong, by simp⟩
  · refine ⟨_, scan_found h heq hfit, ?_⟩
    simp only [enomsg]
    omega

/-! ## The turns of the scan -/

/-- The turns of the scan start at the TLVs of the chain, as far as it passes over them. -/
theorem turn_scan_iff {k : Nat} :
    Loop.turn (scan msg type out) k start = some pos ↔
      pos = tlvPos msg start k ∧ ∀ i < k, Passed msg type (tlvPos msg start i) := by
  induction k generalizing pos with
  | zero => simp [Loop.turn, tlvPos, eq_comm]
  | succ k ih =>
    rw [Loop.turn_add]
    by_cases hall : ∀ i < k, Passed msg type (tlvPos msg start i)
    · rw [ih.mpr ⟨rfl, hall⟩, Option.bind_some]
      by_cases hp : Passed msg type (tlvPos msg start k)
      · rw [Loop.turn_succ_of_inr (scan_passed hp)]
        simp only [Loop.turn, tlvPos, Option.some.injEq]
        refine ⟨fun h => ⟨h.symm, fun i hi => ?_⟩, fun h => h.1.symm⟩
        rcases Nat.lt_succ_iff_lt_or_eq.mp hi with hlt | rfl
        · exact hall i hlt
        · exact hp
      · obtain ⟨r, hr⟩ : ∃ r, scan msg type out (tlvPos msg start k) = .inl r := by
          by_cases hin : InScan msg (tlvPos msg start k)
          · obtain ⟨r, hr, -⟩ := scan_match out hin (by_contra fun hne => hp ⟨hin, hne⟩)
            exact ⟨r, hr⟩
          · exact ⟨_, scan_end hin⟩
        rw [Loop.turn_succ_of_inl hr]
        refine ⟨fun h => ?_, fun h => absurd (h.2 k (Nat.lt_succ_self k)) hp⟩
        cases h
    · have hnone : Loop.turn (scan msg type out) k start = none := by
        refine Option.eq_none_iff_forall_ne_some.mpr fun t ht => hall (ih.mp ht).2
      rw [hnone]
      refine ⟨fun h => ?_, fun h => absurd (fun i hi => h.2 i (Nat.lt_succ_of_lt hi)) hall⟩
      cases h

variable (out) in
/-- The scan ends exactly if it does not come back to a position. -/
theorem scan_ends_iff : Loop.Ends (scan msg type out) start ↔ NoFullTurn msg type start := by
  rw [Loop.ends_iff_no_return]
  constructor
  · intro hno i j hij hall hdvd
    have hback := (tlvPos_eq_iff msg start hij.le).mpr hdvd
    refine hno i j (tlvPos msg start i) hij ?_ ?_
    · exact turn_scan_iff.mpr ⟨rfl, fun k hk => hall k (hk.trans hij)⟩
    · exact turn_scan_iff.mpr ⟨hback.symm, hall⟩
  · intro hno i j t hij hi hj
    obtain ⟨rfl, -⟩ := turn_scan_iff.mp hi
    obtain ⟨hback, hall⟩ := turn_scan_iff.mp hj
    exact hno i j hij hall ((tlvPos_eq_iff msg start hij.le).mp hback.symm)

/-- There are 65536 positions, so that many turns give every result. -/
theorem getTLV_positions {r : TlvResult bufferLen} :
    getTLV 65536 msg type out = some r ↔ Loop.Returns (scan msg type out) 4 r :=
  ⟨fun h => ⟨_, h⟩, Loop.run_of_returns (f := UInt16.toFin) fun _ _ => UInt16.toFin_inj.mp⟩

/-! ## Termination -/

/-- `GetTLV` reaches a result exactly if the scan meets no run of TLVs that takes up a
multiple of 65536 bytes. -/
theorem getTLV_ends_iff (msg : QmiMessage) (type : UInt8) (pOutDataBuf : Buf bufferLen) :
    (∃ fuel r, getTLV fuel msg type pOutDataBuf = some r) ↔ NoFullTurn msg type 4 := by
  rw [← scan_ends_iff pOutDataBuf]
  exact exists_comm

/-- A message in which one TLV of another type spans 65536 bytes. -/
def fullTurnMessage : QmiMessage where
  data := fun i => [0x20, 0, 4, 0, 1, 0xfd, 0xff, 0].getD i 0
  messageLen := 8

theorem getTLV_loops :
    ∃ (msg : QmiMessage) (type : UInt8) (pOutDataBuf : Buf 4),
      ∀ fuel, getTLV fuel msg type pOutDataBuf = none := by
  refine ⟨fullTurnMessage, 2, fun _ => 0, fun fuel => ?_⟩
  have hback : ¬ Loop.Ends (scan fullTurnMessage 2 (fun _ => 0 : Buf 4)) 4 :=
    Loop.not_ends_of_turn_eq Nat.zero_lt_one rfl (by decide)
  exact Option.eq_none_iff_forall_ne_some.mpr fun r hr => hback ⟨r, fuel, hr⟩

/-! ## Agreement with the grammar -/

/-- The TLVs from `pos` on to the end of the message. -/
def QmiMessage.tlvBytesFrom (msg : QmiMessage) (pos : UInt16) : List UInt8 :=
  slice msg.data pos.toNat (msg.messageLen.toNat - pos.toNat)

/-- No TLV at which the scan looks is of the type. -/
def NoneOnTheWay (msg : QmiMessage) (type : UInt8) (start : UInt16) : Prop :=
  ∀ k, (∀ i < k, Passed msg type (tlvPos msg start i)) → InScan msg (tlvPos msg start k) →
    msg.data (tlvPos msg start k).toNat ≠ type

/-- The scan finds no TLV exactly if it ends and meets none of the type. -/
theorem returns_enomsg_iff :
    Loop.Returns (scan msg type out) start ⟨-enomsg, out⟩ ↔
      NoFullTurn msg type start ∧ NoneOnTheWay msg type start := by
  rw [← scan_ends_iff out]
  constructor
  · refine fun hret => ⟨⟨_, hret⟩, fun k hall hin heq => ?_⟩
    obtain ⟨r, hr, hne⟩ := scan_match out hin heq
    have hret' := Loop.returns_iff_turn.mpr ⟨k, _, turn_scan_iff.mpr ⟨rfl, hall⟩, hr⟩
    exact hne (congrArg TlvResult.result (Loop.returns_unique hret' hret))
  · rintro ⟨⟨r, hret⟩, hnone⟩
    obtain ⟨k, t, ht, hr⟩ := Loop.returns_iff_turn.mp hret
    obtain ⟨rfl, hall⟩ := turn_scan_iff.mp ht
    by_cases hin : InScan msg (tlvPos msg start k)
    · -- it would have passed over this TLV
      rw [scan_passed ⟨hin, hnone k hall hin⟩] at hr
      cases hr
    · rw [scan_end hin] at hr
      obtain rfl := Sum.inl.inj hr
      exact hret

theorem tlvPos_succ' (k : Nat) :
    tlvPos msg start (k + 1) = tlvPos msg (tlvPos msg start 1) k := by
  induction k with
  | zero => rfl
  | succ k ih => rw [tlvPos, ih]; rfl

/-- Behind a complete TLV the position has not wrapped around. -/
theorem tlvPos_one_toNat
    (hfit : start.toNat + 3 + msg.tlvSize start ≤ msg.messageLen.toNat) :
    (tlvPos msg start 1).toNat = start.toNat + (3 + msg.tlvSize start) := by
  have hlen := msg.messageLen.toNat_lt
  rw [tlvPos_toNat, tlvSpan]
  simp only [Nat.Ico_succ_singleton, Finset.sum_singleton, tlvPos]
  omega

/-- The scan comes to the first TLV of the type over complete TLVs of other types. -/
theorem reaches_first {item : Tlv.Item} (h : Tlv.first? (msg.tlvBytesFrom start) type = some item) :
    ∃ k, (∀ i < k, Passed msg type (tlvPos msg start i)) ∧
      (tlvPos msg start k).toNat + 3 + msg.tlvSize (tlvPos msg start k) ≤ msg.messageLen.toNat ∧
      msg.data (tlvPos msg start k).toNat = type ∧
      item.value = slice msg.data ((tlvPos msg start k).toNat + 3)
        (msg.tlvSize (tlvPos msg start k)) ∧
      (Tlv.EndsWithEmpty (msg.tlvBytesFrom start) type ↔
        ¬ InScan msg (tlvPos msg start k)) := by
  -- each complete TLV brings the scan nearer to the end of the message
  induction hn : msg.messageLen.toNat - start.toNat using Nat.strong_induction_on
    generalizing start with
  | _ n ih =>
    rw [QmiMessage.tlvBytesFrom] at h ⊢
    by_cases hfit : 3 + Tlv.sizeAt msg.data start.toNat ≤ msg.messageLen.toNat - start.toNat
    · have hin : start.toNat + 3 + msg.tlvSize start ≤ msg.messageLen.toNat := by
        unfold QmiMessage.tlvSize
        omega
      rw [Tlv.first?_slice_complete hfit] at h
      by_cases heq : msg.data start.toNat = type
      · rw [if_pos heq, Option.some.injEq] at h
        refine ⟨0, nofun, hin, heq, by rw [← h]; rfl, ?_⟩
        rw [Tlv.endsWithEmpty_of_eq hfit heq, InScan, tlvPos]
        omega
      · rw [if_neg heq] at h
        have hone := tlvPos_one_toNat hin
        have hrest : msg.tlvBytesFrom (tlvPos msg start 1) =
            slice msg.data (start.toNat + (3 + Tlv.sizeAt msg.data start.toNat))
              (msg.messageLen.toNat - start.toNat - (3 + Tlv.sizeAt msg.data start.toNat)) := by
          rw [QmiMessage.tlvBytesFrom, hone, Nat.sub_sub]
          rfl
        have hmore : start.toNat + 3 < msg.messageLen.toNat := by
          by_contra hend
          have hnil : msg.tlvBytesFrom (tlvPos msg start 1) = [] := by
            rw [QmiMessage.tlvBytesFrom, Nat.sub_eq_zero_of_le (by omega), Tlv.slice_zero]
          simp [← hrest, hnil, Tlv.first?] at h
        obtain ⟨k, hall, hk⟩ := ih (msg.messageLen.toNat - (tlvPos msg start 1).toNat)
          (by omega) (hrest ▸ h) rfl
        refine ⟨k + 1, ?_, ?_⟩
        · rintro (_ | i) hi
          · exact ⟨hmore, heq⟩
          · exact tlvPos_succ' i ▸ hall i (by omega)
        · rw [tlvPos_succ', Tlv.endsWithEmpty_of_ne hfit heq, ← hrest]
          exact hk
    · rw [Tlv.first?_slice_malformed (Nat.not_le.mp hfit)] at h
      cases h

/-! ## The contract of the scan -/

/-- `GetTLV` agrees with the grammar: it reads nothing behind the message, it returns the
first TLV of the type when that is complete and fits, and it finds nothing when no
complete TLV of the type precedes the end or the first malformed TLV. -/
structure Agrees (msg : QmiMessage) (type : UInt8) (pOutDataBuf : Buf bufferLen) : Prop where
  reads : ∀ k pos, Loop.turn (scan msg type pOutDataBuf) k 4 = some pos →
    ∀ block ∈ (scanTurn msg type pOutDataBuf pos).reads, ∀ i, block.1 ≤ i →
      i < block.1 + block.2 → i < msg.messageLen.toNat
  found : ∀ item, Tlv.first? msg.tlvBytes type = some item → item.value.length ≤ bufferLen →
    ∃ fuel, getTLV fuel msg type pOutDataBuf =
      some ⟨item.value.length, pOutDataBuf.overwrite item.value⟩
  missing : Tlv.first? msg.tlvBytes type = none →
    ∃ fuel, getTLV fuel msg type pOutDataBuf = some ⟨-enomsg, pOutDataBuf⟩

/-- The scan can tell what the message holds: the first TLV of the type is not an empty
one at the very end, and without a complete TLV of the type the scan meets no other one
and ends. -/
def Readable (msg : QmiMessage) (type : UInt8) : Prop :=
  ¬ Tlv.EndsWithEmpty msg.tlvBytes type ∧
    (Tlv.first? msg.tlvBytes type = none →
      NoFullTurn msg type 4 ∧ NoneOnTheWay msg type 4)

theorem headerReads_lt (h : InScan msg pos) :
    ∀ block ∈ headerReads pos, ∀ i, block.1 ≤ i → i < block.1 + block.2 →
      i < msg.messageLen.toNat := by
  unfold InScan at h
  intro block hblock i hlow hhigh
  simp only [headerReads, List.mem_cons, List.not_mem_nil, or_false] at hblock
  obtain rfl | rfl := hblock <;> simp only at hlow hhigh <;> omega

/-- A turn reads behind the message only where it takes a value that ends there. -/
theorem scanTurn_reads_lt
    (h : InScan msg pos → msg.data pos.toNat = type → msg.tlvSize pos ≤ bufferLen →
      pos.toNat + 3 + msg.tlvSize pos ≤ msg.messageLen.toNat) :
    ∀ block ∈ (scanTurn msg type out pos).reads, ∀ i, block.1 ≤ i → i < block.1 + block.2 →
      i < msg.messageLen.toNat := by
  by_cases hin : InScan msg pos
  · by_cases heq : msg.data pos.toNat = type
    · rcases Nat.lt_or_ge bufferLen (msg.tlvSize pos) with hlong | hfit
      · rw [scanTurn_tooLong hin heq hlong]
        exact headerReads_lt hin
      · rw [scanTurn_found hin heq hfit]
        intro block hblock i hlow hhigh
        rcases List.mem_append.mp hblock with hheader | hvalue
        · exact headerReads_lt hin block hheader i hlow hhigh
        · obtain rfl := List.mem_singleton.mp hvalue
          have hend := h hin heq hfit
          simp only at hlow hhigh
          omega
    · rw [scanTurn_passed ⟨hin, heq⟩]
      exact headerReads_lt hin
  · rw [scanTurn_end hin]
    nofun

/-- `GetTLV` agrees with the grammar exactly on the messages its scan can read. -/
theorem getTLV_agrees_iff (msg : QmiMessage) (type : UInt8) (pOutDataBuf : Buf bufferLen) :
    Agrees msg type pOutDataBuf ↔ Readable msg type := by
  cases hfirst : Tlv.first? msg.tlvBytes type with
  | none =>
    have hnotEmpty : ¬ Tlv.EndsWithEmpty msg.tlvBytes type := fun hempty => by
      rw [Tlv.first?_of_endsWithEmpty hempty] at hfirst
      cases hfirst
    constructor
    · exact fun hagrees => ⟨hnotEmpty, fun _ => returns_enomsg_iff.mp (hagrees.missing hfirst)⟩
    · intro hreadable
      obtain ⟨hends, hnone⟩ := hreadable.2 hfirst
      refine ⟨fun k pos hturn => ?_, fun item hitem => ?_, fun _ => ?_⟩
      · obtain ⟨rfl, hall⟩ := turn_scan_iff.mp hturn
        exact scanTurn_reads_lt fun hin heq => absurd heq (hnone k hall hin)
      · rw [hfirst] at hitem
        cases hitem
      · exact returns_enomsg_iff.mpr ⟨hends, hnone⟩
  | some item =>
    obtain ⟨k, hall, hcomplete, heq, hvalue, hempty⟩ :=
      reaches_first (show Tlv.first? (msg.tlvBytesFrom 4) type = some item from hfirst)
    have hlength : item.value.length = msg.tlvSize (tlvPos msg 4 k) := by
      rw [hvalue, slice_length]
    have hturn : Loop.turn (scan msg type pOutDataBuf) k 4 = some (tlvPos msg 4 k) :=
      turn_scan_iff.mpr ⟨rfl, hall⟩
    constructor
    · intro hagrees
      refine ⟨fun hend => ?_, fun hnone => by rw [hfirst] at hnone; cases hnone⟩
      -- the scan stops in front of an empty TLV at the end
      have hout := hempty.mp hend
      have hzero : item.value.length = 0 := by
        unfold InScan at hout
        omega
      have hfound := hagrees.found item hfirst (hzero ▸ Nat.zero_le _)
      have hstop := Loop.returns_iff_turn.mpr ⟨k, _, hturn, scan_end hout⟩
      have hsame := congrArg TlvResult.result (Loop.returns_unique hstop hfound)
      simp only [enomsg, hzero] at hsame
      omega
    · intro hreadable
      have hin : InScan msg (tlvPos msg 4 k) := by
        by_contra hout
        exact hreadable.1 (hempty.mpr hout)
      refine ⟨fun j pos hj => ?_, fun item' hitem' hfit => ?_, fun hnone => ?_⟩
      · obtain ⟨rfl, hbefore⟩ := turn_scan_iff.mp hj
        refine scanTurn_reads_lt fun hin' heq' _ => ?_
        -- both are the first TLV of the type on the chain
        rcases Nat.lt_trichotomy j k with hlt | rfl | hgt
        · exact absurd heq' (hall j hlt).2
        · exact hcomplete
        · exact absurd heq (hbefore k hgt).2
      · obtain rfl := Option.some.inj (hfirst.symm.trans hitem')
        refine Loop.returns_iff_turn.mpr ⟨k, _, hturn, ?_⟩
        rw [scan_found hin heq (hlength ▸ hfit), hlength, hvalue]
      · rw [hfirst] at hnone
        cases hnone

/-- A message that ends in an empty TLV. -/
def emptyTailMessage : QmiMessage where
  data := fun i => [0x20, 0, 3, 0, 0x10, 0, 0].getD i 0
  messageLen := 7

/-- A message whose TLV claims four bytes and has one. -/
def overlongMessage : QmiMessage where
  data := fun i => [0x20, 0, 4, 0, 0x10, 4, 0, 1].getD i 0
  messageLen := 8

/-- The empty TLV is not found, and the overlong one is copied with three bytes from behind
the message. -/
theorem getTLV_disagrees :
    ¬ Agrees emptyTailMessage 0x10 (fun _ => 0 : Buf 4) ∧
      ¬ Agrees overlongMessage 0x10 (fun _ => 0 : Buf 4) := by
  constructor
  · intro hagrees
    have hfirst : Tlv.first? emptyTailMessage.tlvBytes 0x10 = some ⟨0x10, []⟩ := by decide +kernel
    have hfound := hagrees.found _ hfirst (Nat.zero_le _)
    have hstop : ∃ fuel, getTLV fuel emptyTailMessage 0x10 (fun _ => 0 : Buf 4) =
        some ⟨-enomsg, fun _ => 0⟩ := ⟨1, rfl⟩
    exact absurd (congrArg TlvResult.result (Loop.returns_unique hstop hfound)) (by decide)
  · intro hagrees
    have hlast := hagrees.reads 0 4 rfl (7, 4) (by decide) 10 (by decide) (by decide)
    exact absurd hlast (by decide)

end UsbNet
