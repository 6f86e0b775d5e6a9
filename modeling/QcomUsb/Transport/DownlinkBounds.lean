-- SUMMARY: When a call of the downlink parsers stays inside its transfer, and when it sets the pointer of another one.
import QcomUsb.Transport.DownlinkReads

/-!
# Bounds of the downlink parsers

A call accesses headers, tables, commands and checksums before it checks where the packet ends, so it
stays inside the transfer exactly if these are inside. The packet itself and all that TLP reads are
checked.
-/

namespace Transport.Downlink.Transfer

open Footprint TlpReads

variable {dev : Device} {reads : Reads} {s t : Transfer} {mode : QmapMode} {reqLength : UInt32}
  {dataPtr pktLen pad n : Nat} {behind bad : Traced Transfer}

/-! ## A packet for a read -/

theorem inside_fillIrpData {off len : Nat} (h : off + len ≤ n) :
    ∀ r ∈ dev.fillIrpData reqLength off len, r.Inside n := by
  unfold Device.fillIrpData
  split_ifs <;> simp [h]

/-- What is copied was checked. -/
theorem inside_takePacket (hbad : bad.Inside s.length) :
    (s.takePacket dev reqLength dataPtr pktLen pad behind bad).Inside s.length ↔
      (s.GoesOn dev reqLength dataPtr pktLen pad → behind.Inside s.length) := by
  unfold takePacket GoesOn
  split_ifs with haccepts hle hlong hwhole
  · have hcopied : dataPtr + (pktLen - pad) ≤ s.length := by
      have hend := haccepts.2.2.2
      omega
    have hinside : ∀ r ∈ dev.fillIrpData reqLength dataPtr (pktLen - pad), r.Inside s.length :=
      inside_fillIrpData hcopied
    simp only [Traced.inside_touch, haccepts, hle, true_or, and_self, forall_const]
    exact and_iff_right hinside
  · simp [hle, hwhole]
  · simp [haccepts, hlong, hwhole]
  · simp [hle, hlong]
  · simp [haccepts, hbad]

theorem inside_takePacket_of (hbehind : behind.Inside s.length) (hbad : bad.Inside s.length) :
    (s.takePacket dev reqLength dataPtr pktLen pad behind bad).Inside s.length :=
  (inside_takePacket hbad).mpr fun _ => hbehind

/-- A packet for a read goes on behind it, drops the whole transfer, or is left. -/
theorem takePacket_next {P : Transfer → Prop}
    (hbehind : s.GoesOn dev reqLength dataPtr pktLen pad → P behind.next)
    (hwhole : P { s with tlpBufferState := .error }.recycleL2FillBuffer)
    (hshort : reqLength.toNat < pktLen → pktLen < ethMaxPacketSize → P s) (hbad : P bad.next) :
    P (s.takePacket dev reqLength dataPtr pktLen pad behind bad).next := by
  unfold takePacket
  split_ifs with haccepts hle hlong hfull
  · exact hbehind ⟨haccepts, .inl hle⟩
  · exact hwhole
  · exact hbehind ⟨haccepts, .inr ⟨hlong, hfull⟩⟩
  · exact hshort (by omega) (by omega)
  · exact hbad

/-! ## QMAP -/

theorem inside_processControlMessage {b : Nat → UInt8} {off size : Nat} :
    (∀ r ∈ processControlMessage reads b off size, r.Inside n) ↔
      CommandInside reads b n off size := by
  unfold processControlMessage CommandInside
  split_ifs with hsize hflow hanswer
  · simp [hsize]
  · simp [not_not.mp hsize, hflow, hanswer]
  · have hsilent : ¬ZeroAt b (off + 4) → ¬reads.answers = true := fun hid hsends => hanswer ⟨hid, hsends⟩
    rw [not_not.mp hsize]
    simp [hflow]
    exact fun _ _ hid hsends => absurd hsends (hsilent hid)
  · simp [not_not.mp hsize, hflow]

theorem inside_checksumAccesses {v3 : Bool} {b : Nat → UInt8} {off : Nat} :
    (∀ r ∈ checksumAccesses v3 b off pktLen, r.Inside n) ↔ PacketInside b n off pktLen := by
  by_cases hver : (ipVer fun i => b (off + i)) = 4
  · cases hck : ckOffset fun i => b (off + i) with
    | none =>
        simp only [checksumAccesses, PacketInside, hck, hver, if_true]
        simp
        omega
    | some ck =>
        have hhdr := hdrLen_le hck
        cases v3 <;> simp [checksumAccesses, PacketInside, hck, hver] <;> omega
  · cases hck : ckOffset fun i => b (off + i) with
    | none =>
        simp [checksumAccesses, PacketInside, hck, hver]
        omega
    | some ck =>
        have hhdr := hdrLen_le hck
        cases v3 <;> simp [checksumAccesses, PacketInside, hck, hver] <;> omega

theorem inside_controlFrame :
    (s.controlFrame dev reads).Inside s.length ↔
      (s.Fits dev →
        CommandInside reads s.buffer s.length (s.dataPtr + 4) (s.packetLen - s.padBytes dev)) := by
  unfold controlFrame
  split_ifs with hfits
  · simp only [Traced.inside_touch, inside_processControlMessage, Traced.inside_of, and_true]
    exact ⟨fun h _ => h, fun h => h hfits⟩
  · exact ⟨fun _ h => absurd h hfits, fun _ => Traced.inside_of _⟩

/-- The frame is the same one, whether its buffer was dropped or not. -/
theorem inside_withoutRead {readQueueEmpty : Bool} :
    ((s.withoutRead dev readQueueEmpty).controlFrame dev reads).Inside n ↔
      (s.controlFrame dev reads).Inside n := by
  have haccesses : ((s.withoutRead dev readQueueEmpty).controlFrame dev reads).accesses =
      (s.controlFrame dev reads).accesses := by
    unfold withoutRead
    split_ifs
    · rfl
    · unfold controlFrame
      change (if s.Fits dev then _ else _ : Traced Transfer).accesses = _
      split_ifs <;> rfl
  rw [Traced.Inside, haccesses, Traced.Inside]

theorem inside_dataFrame :
    (s.dataFrame dev mode reqLength).Inside s.length ↔
      (mode.checksum.isSome → PacketInside s.buffer s.length (s.dataPtr + 4) s.packetLen) := by
  unfold dataFrame
  cases mode.checksum with
  | none => simpa using inside_takePacket_of (Traced.inside_of _) (Traced.inside_of _)
  | some v3 =>
      simp only [Traced.inside_touch, inside_checksumAccesses, Option.isSome_some, forall_const]
      exact and_iff_left (inside_takePacket_of (Traced.inside_of _) (Traced.inside_of _))

theorem inside_qmapFrame (hptr : s.dataPtr ≤ s.length) :
    (s.qmapFrame dev reads mode).Inside s.length ↔ s.QmapInside dev reads mode := by
  unfold qmapFrame QmapInside
  by_cases hend : s.AtEnd mode
  · simp [hend]
  · have hheader : s.dataPtr + 4 ≤ s.length := by
      unfold AtEnd at hend
      omega
    simp only [hend, if_false, Traced.inside_touch, List.forall_mem_singleton, Range.inside_mk,
      hheader, true_and, not_false_eq_true, forall_const]
    cases hread : dev.getAdapterReadDataItemIrp reads (s.buffer (s.dataPtr + 1)) with
    | mk read readQueueEmpty =>
      cases read with
      | none =>
          by_cases hcommand : s.IsCommand
          · simpa [hcommand, inside_withoutRead] using inside_controlFrame
          · simp [hcommand]
      | some reqLength =>
          by_cases hcommand : s.IsCommand
          · simpa [hcommand] using inside_controlFrame
          · simpa [hcommand] using inside_dataFrame

/-! ## TLP -/

theorem inside_keepRest {needed : UInt16} {st : TlpBufState} (h : dataPtr ≤ s.length) :
    (s.keepRest dataPtr needed st).Inside s.length := by
  simp [keepRest, h]

theorem inside_takePayload {pktLen : UInt16} (h : dataPtr ≤ s.length) :
    (s.takePayload dev reqLength dataPtr pktLen).Inside s.length := by
  apply inside_takePacket_of (Traced.inside_of _)
  split_ifs
  · exact inside_keepRest h
  · exact Traced.inside_of _
  · exact Traced.inside_of _
  · exact Traced.inside_of _

theorem inside_takeHeader (hptr : s.dataPtr ≤ s.length) :
    (s.takeHeader dev reqLength).Inside s.length := by
  simp only [takeHeader]
  split_ifs with hheader
  · have hpayload : s.dataPtr + 2 ≤ s.length := by omega
    simp [hpayload, inside_takePayload]
  · exact inside_keepRest hptr
  · exact inside_keepRest hptr
  · exact Traced.inside_of _

/-! ## MBIM -/

theorem inside_nextDatagram {entry : Nat} :
    (s.nextDatagram entry).Inside n ↔
      entry + 4 ≤ n ∧ (ZeroAt s.buffer entry → s.nextIndex ≠ 0 → s.nextIndex + 8 ≤ n) := by
  unfold nextDatagram
  by_cases hlast : ZeroAt s.buffer entry
  · by_cases hnext : s.nextIndex = 0
    · simp [hlast, hnext]
    · simp [hlast, hnext]
  · simp [hlast]

theorem inside_takeDatagram {entry : Nat} :
    (s.takeDatagram dev reqLength entry).Inside s.length ↔
      entry + 4 ≤ s.length ∧
      (s.GoesOn dev reqLength (word s.buffer entry) (word s.buffer (entry + 2)) 0 →
        entry + 8 ≤ s.length ∧
        (ZeroAt s.buffer (entry + 4) → s.nextIndex ≠ 0 → s.nextIndex + 8 ≤ s.length)) := by
  simp [takeDatagram, inside_takePacket, inside_nextDatagram]

theorem inside_mbimDatagram :
    (s.mbimDatagram dev reqLength).Inside s.length ↔ s.MbimInside dev reqLength := by
  unfold mbimDatagram MbimInside
  by_cases hstart : s.dataPtr = 0
  · by_cases hblock : word s.buffer 8 = s.length
    · have htake : (s.enterNdp.takeDatagram dev reqLength s.entry).Inside s.enterNdp.length ↔ _ :=
        inside_takeDatagram
      simp only [hstart, hblock, if_true, ne_eq, not_true_eq_false, if_false, Traced.inside_touch,
        List.forall_mem_cons, Range.inside_mk, forall_const, and_assoc]
      simp only [List.not_mem_nil, false_implies, implies_true, true_and]
      exact and_congr_right' (and_congr_right' (and_congr_right' htake))
    · simp [hstart, hblock]
  · have hfollowing : s.following = s.nextIndex := if_neg hstart
    simp only [hstart, if_false, false_implies, true_and, hfollowing, forall_const]
    exact inside_takeDatagram

/-! ## A call -/

/-- What holds of a transfer between the calls. -/
structure Inv (dev : Device) (s : Transfer) : Prop where
  inBuffer : s.recycled = false → s.dataPtr ≤ s.length
  uncut : dev.mode ≠ .tlp → s.tlpBufferState = .idle ∨ s.tlpBufferState = .error
  header : s.tlpBufferState = .partialHdr → s.frame.bytesNeeded = 1
  rest : s.recycled = false → s.tlpBufferState = .partialHdr ∨ s.tlpBufferState = .partialFill →
    s.dataPtr = 0 ∧ 0 < s.length
  walked : dev.mode = .mbim → s.recycled = false → s.dataPtr = 0 → ∀ x ∈ s.walked, x = s.ndpIndex

theorem inside_discard : (s.discard dev).Inside n := by
  unfold discard
  split_ifs <;> exact Traced.inside_of _

theorem inside_completeHeader (h : s.Inv dev) (hrecycled : s.recycled = false)
    (hstate : s.tlpBufferState = .partialHdr) : s.completeHeader.Inside s.length := by
  obtain ⟨hstart, hpos⟩ := h.rest hrecycled (.inl hstate)
  have hone : s.frame.bytesNeeded.toNat = 1 := by
    rw [h.header hstate]
    rfl
  simp only [completeHeader, Traced.inside_touch, List.forall_mem_singleton, Range.inside_mk,
    Traced.inside_of, and_true]
  omega

theorem inside_secondLeg (h : s.Inv dev) (hrecycled : s.recycled = false)
    (hstate : s.tlpBufferState = .partialFill) : s.secondLeg.Inside s.length := by
  obtain ⟨hstart, -⟩ := h.rest hrecycled (.inr hstate)
  simp only [secondLeg]
  split_ifs with hneeded
  · exact Traced.inside_of _
  · simp only [Traced.inside_touch, List.forall_mem_singleton, Range.inside_mk, Traced.inside_of,
      and_true]
    omega

theorem inside_tlp (h : s.Inv dev) (hrecycled : s.recycled = false) (hmode : dev.mode = .tlp) :
    (s.readIrpCompletion dev reads).Inside s.length := by
  unfold readIrpCompletion
  cases hown : reads.own with
  | none => simp [hmode]
  | some reqLength =>
      simp only [hmode]
      cases hstate : s.tlpBufferState with
      | idle => exact inside_takeHeader (h.inBuffer hrecycled)
      | hdrOnly => exact inside_takePayload (h.inBuffer hrecycled)
      | partialHdr => exact inside_completeHeader h hrecycled hstate
      | partialFill => exact inside_secondLeg h hrecycled hstate
      | error => exact inside_discard

/-- A call stays inside the transfer exactly if the headers that it reads do. -/
theorem inside_call (h : s.Inv dev) :
    (s.call dev reads).Inside s.length ↔ s.HeadersInside dev reads := by
  unfold call HeadersInside
  cases hrecycled : s.recycled with
  | true => simp
  | false =>
      simp only [Bool.false_eq_true, if_false, forall_const]
      cases hmode : dev.mode with
      | qmap mode =>
          by_cases herror : s.tlpBufferState = .error
          · simp [readIrpCompletion, hmode, herror, inside_discard]
          · simpa [readIrpCompletion, hmode, herror] using inside_qmapFrame (h.inBuffer hrecycled)
      | tlp => simpa using inside_tlp h hrecycled hmode
      | mbim =>
          cases hown : reads.own with
          | none => simp [readIrpCompletion, hmode, hown]
          | some reqLength =>
              by_cases herror : s.tlpBufferState = .error
              · simp [readIrpCompletion, hmode, hown, herror, inside_discard]
              · simpa [readIrpCompletion, hmode, hown, herror] using inside_mbimDatagram

/-! ## The pointer of the buffer behind -/

theorem strayed_advance (h : s.recycled = false) : (s.advance dataPtr).strayed = s.strayed := by
  unfold Transfer.advance
  simp only [h, Bool.false_eq_true, if_false]
  split_ifs <;> rfl

theorem strayed_takePacket (hbehind : behind.next.strayed = s.strayed)
    (hbad : bad.next.strayed = s.strayed) :
    (s.takePacket dev reqLength dataPtr pktLen pad behind bad).next.strayed = s.strayed :=
  takePacket_next (P := fun t => t.strayed = s.strayed) (fun _ => hbehind) rfl (fun _ _ => rfl) hbad

theorem strayed_controlFrame (h : s.recycled = false) :
    (s.controlFrame dev reads).next.strayed = s.strayed := by
  unfold controlFrame
  split_ifs
  · exact strayed_advance h
  · rfl

theorem strayed_advance_recycled (h : s.strayed = false) :
    (s.recycleL2FillBuffer.advance dataPtr).strayed = true ↔ dataPtr < s.length := by
  unfold Transfer.advance
  by_cases hend : dataPtr ≥ s.length
  · have hsame : dataPtr ≥ s.recycleL2FillBuffer.length := hend
    simp only [hsame, if_true]
    simp only [recycleL2FillBuffer, h, Bool.false_eq_true, false_iff]
    omega
  · have hsame : ¬dataPtr ≥ s.recycleL2FillBuffer.length := hend
    simp only [hsame, if_false]
    simp only [recycleL2FillBuffer, if_true, true_iff]
    omega

/-- Behind a command frame whose buffer was dropped `DataPtr` is that of another buffer. -/
theorem strayed_controlFrame_recycled (h : s.strayed = false) :
    (s.recycleL2FillBuffer.controlFrame dev reads).next.strayed = true ↔
      s.Fits dev ∧ s.dataPtr + 4 + s.packetLen < s.length := by
  have hnext : (s.recycleL2FillBuffer.controlFrame dev reads).next =
      if s.Fits dev then s.recycleL2FillBuffer.advance (s.dataPtr + 4 + s.packetLen)
      else s.recycleL2FillBuffer := by
    unfold controlFrame
    change (if s.Fits dev then _ else _ : Traced Transfer).next = _
    split_ifs <;> rfl
  rw [hnext]
  split_ifs with hfits
  · simpa [hfits] using strayed_advance_recycled h
  · simp [hfits, recycleL2FillBuffer, h]

theorem strayed_dataFrame (h : s.recycled = false) :
    (s.dataFrame dev mode reqLength).next.strayed = s.strayed := by
  unfold dataFrame
  cases mode.checksum with
  | none => exact strayed_takePacket (strayed_advance h) rfl
  | some v3 =>
      exact strayed_takePacket (s := { s with buffer := _ }) (strayed_advance h) rfl

theorem strayed_qmapFrame (hrecycled : s.recycled = false) (hstrayed : s.strayed = false) :
    (s.qmapFrame dev reads mode).next.strayed = true ↔
      ¬s.AtEnd mode ∧
      dev.getAdapterReadDataItemIrp reads (s.buffer (s.dataPtr + 1)) = (none, false) ∧
      s.IsCommand ∧ s.Fits dev ∧ s.dataPtr + 4 + s.packetLen < s.length := by
  unfold qmapFrame
  by_cases hend : s.AtEnd mode
  · simp [hend, recycleL2FillBuffer, hstrayed]
  · simp only [hend, if_false, Traced.next_touch, not_false_eq_true, true_and]
    cases hread : dev.getAdapterReadDataItemIrp reads (s.buffer (s.dataPtr + 1)) with
    | mk read readQueueEmpty =>
      cases read with
      | none =>
          cases readQueueEmpty with
          | false =>
              have hdrop : s.withoutRead dev false = s.recycleL2FillBuffer :=
                if_neg fun h => absurd h.1 Bool.false_ne_true
              by_cases hcommand : s.IsCommand
              · simpa [hdrop, hcommand] using strayed_controlFrame_recycled hstrayed
              · simp [hdrop, hcommand, recycleL2FillBuffer, hstrayed]
          | true =>
              by_cases hfits : s.Fits dev
              · have hsame : s.withoutRead dev true = s := if_pos ⟨rfl, hfits⟩
                simp only [hsame]
                by_cases hcommand : s.IsCommand
                · simp [hcommand, strayed_controlFrame hrecycled, hstrayed]
                · simp [hcommand, hstrayed]
              · have hdrop : s.withoutRead dev true = s.recycleL2FillBuffer :=
                  if_neg fun h => hfits h.2
                simp only [hdrop]
                by_cases hcommand : s.IsCommand
                · simp [hcommand, strayed_controlFrame_recycled hstrayed, hfits]
                · simp [hcommand, recycleL2FillBuffer, hstrayed]
      | some reqLength =>
          by_cases hcommand : s.IsCommand
          · simp [hcommand, strayed_controlFrame hrecycled, hstrayed]
          · simp [hcommand, strayed_dataFrame hrecycled, hstrayed]

theorem strayed_discard : (s.discard dev).next.strayed = s.strayed := by
  unfold discard
  split_ifs <;> rfl

theorem strayed_takePayload {pktLen : UInt16} (h : s.recycled = false) :
    (s.takePayload dev reqLength dataPtr pktLen).next.strayed = s.strayed := by
  apply strayed_takePacket (strayed_advance h)
  split_ifs <;> rfl

theorem strayed_tlp (hmode : dev.mode = .tlp) (h : s.recycled = false) :
    (s.readIrpCompletion dev reads).next.strayed = s.strayed := by
  unfold readIrpCompletion
  cases reads.own with
  | none => simp [hmode]
  | some reqLength =>
      simp only [hmode]
      cases s.tlpBufferState with
      | idle =>
          simp only [takeHeader]
          split_ifs
          · exact strayed_takePayload h
          · rfl
          · rfl
          · rfl
      | hdrOnly => exact strayed_takePayload h
      | partialHdr => exact strayed_advance h
      | partialFill =>
          simp only [secondLeg]
          split_ifs
          · rfl
          · exact strayed_advance h
      | error => exact strayed_discard

theorem strayed_takeDatagram {entry : Nat} :
    (s.takeDatagram dev reqLength entry).next.strayed = s.strayed := by
  apply strayed_takePacket
  · simp only [nextDatagram, Traced.next_touch]
    split_ifs <;> rfl
  · rfl

theorem strayed_mbimDatagram : (s.mbimDatagram dev reqLength).next.strayed = s.strayed := by
  unfold mbimDatagram
  split_ifs
  · rfl
  · exact strayed_takeDatagram
  · exact strayed_takeDatagram

/-- A call sets the pointer of another buffer behind a command frame without an adapter only. -/
theorem strayed_call (hrecycled : s.recycled = false) (hstrayed : s.strayed = false) :
    (s.call dev reads).next.strayed = true ↔ s.Strays dev reads := by
  simp only [call, hrecycled, Bool.false_eq_true, if_false, Strays, true_and]
  cases hmode : dev.mode with
  | qmap mode =>
      by_cases herror : s.tlpBufferState = .error
      · simp [readIrpCompletion, hmode, herror, strayed_discard, hstrayed]
      · simpa [readIrpCompletion, hmode, herror] using strayed_qmapFrame hrecycled hstrayed
  | tlp => simp [strayed_tlp hmode hrecycled, hstrayed]
  | mbim =>
      cases hown : reads.own with
      | none => simp [readIrpCompletion, hmode, hown, hstrayed]
      | some reqLength =>
          by_cases herror : s.tlpBufferState = .error
          · simp [readIrpCompletion, hmode, hown, herror, strayed_discard, hstrayed]
          · simp [readIrpCompletion, hmode, hown, herror, strayed_mbimDatagram, hstrayed]

end Transport.Downlink.Transfer
