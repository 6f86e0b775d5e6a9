-- SUMMARY: Runs of the downlink parsers over a transfer: what a call leads to, and when the buffer is recycled.
import QcomUsb.Library.Loop
import QcomUsb.Transport.DownlinkBounds

/-!
# Runs of the downlink parsers

A call recycles the buffer, waits for a read, or goes on in the transfer. Where it goes on it moves
`DataPtr` forward or follows the chain of NDPs, so a walk that leads back only finitely often comes to
its end.
-/

namespace Transport.Downlink.Transfer

open Footprint TlpReads

variable {dev : Device} {reads : Reads} {s t : Transfer} {mode : QmapMode} {reqLength : UInt32}
  {dataPtr pktLen pad n : Nat} {behind bad : Traced Transfer}

/-! ## What a call leads to -/

/-- No part of a packet waits for the next transfer. -/
def Uncut (s : Transfer) : Prop :=
  s.tlpBufferState ≠ .partialHdr ∧ s.tlpBufferState ≠ .partialFill

/-- The NDPs that were walked are still those, or those that were passed on the way. -/
def Walks (dev : Device) (s t : Transfer) : Prop :=
  t.walked = s.walked ∨ dev.mode = .mbim ∧ t.walked = s.passed

/-- The transfer after a call. -/
inductive Outcome (dev : Device) (reads : Reads) (s t : Transfer) : Prop
  | recycles (hrecycled : t.recycled = true)
  | waits (hlive : t.recycled = false) (hshort : reads.Available → s.TooShort dev reads)
      (hptr : t.dataPtr = s.dataPtr) (hindex : dev.mode = .mbim → t.ndpIndex = s.ndpIndex)
      (hstate : t.tlpBufferState = s.tlpBufferState ∨ t.tlpBufferState = .idle)
      (hwalks : Walks dev s t)
  | advances (hlive : t.recycled = false) (hlt : s.dataPtr < t.dataPtr)
      (hle : t.dataPtr ≤ s.length) (huncut : t.Uncut) (hwalks : Walks dev s t)
  | completes (hlive : t.recycled = false) (hptr : t.dataPtr = s.dataPtr)
      (hfill : s.tlpBufferState = .partialFill) (hidle : t.tlpBufferState = .idle)
      (hwalked : t.walked = s.walked) (hmode : dev.mode = .tlp)
  | follows (hlive : t.recycled = false) (hptr : t.dataPtr = s.following + 8)
      (hle : s.following + 8 ≤ s.length) (huncut : t.Uncut)
      (hback : s.LeadsBack dev ∨ s.following ∉ s.passed) (hmode : dev.mode = .mbim)
      (hwalked : t.walked = s.following :: s.passed)

/-- What the call keeps, and where it leads. -/
structure Steps (dev : Device) (reads : Reads) (s t : Transfer) : Prop where
  length : t.length = s.length
  uncut : dev.mode ≠ .tlp → t.tlpBufferState = .idle ∨ t.tlpBufferState = .error
  header : t.tlpBufferState = .partialHdr → t.frame.bytesNeeded = 1
  outcome : Outcome dev reads s t

/-- Bytes of the transfer are done with. -/
theorem Steps.advance (hlength : t.length = s.length)
    (huncut : dev.mode ≠ .tlp → t.tlpBufferState = .idle ∨ t.tlpBufferState = .error)
    (hcut : t.Uncut) (hrecycled : t.recycled = false) (hwalked : t.walked = s.walked)
    (hlt : s.dataPtr < dataPtr) :
    Steps dev reads s (t.advance dataPtr) := by
  unfold Transfer.advance
  simp only [hrecycled, Bool.false_eq_true, if_false]
  split_ifs with hend
  · exact ⟨hlength, huncut, fun h => absurd h hcut.1, .recycles rfl⟩
  · have hle : dataPtr ≤ s.length := hlength ▸ Nat.le_of_not_le hend
    exact ⟨hlength, huncut, fun h => absurd h hcut.1, .advances rfl hlt hle hcut (.inl hwalked)⟩

/-! ### QMAP -/

theorem not_available_of_wait {muxId : UInt8}
    (h : dev.getAdapterReadDataItemIrp reads muxId = (none, true)) : ¬reads.Available := by
  rintro ⟨hown, hadapter⟩
  unfold Device.getAdapterReadDataItemIrp at h
  split_ifs at h
  · cases hread : reads.adapter muxId with
    | none => simp [hread] at h
    | some read =>
        simp only [hread, Prod.mk.injEq] at h
        exact hadapter muxId (h.1 ▸ hread)
  · simp only [Prod.mk.injEq] at h
    simp [h.1] at hown

theorem Inv.uncut_of_ne (h : s.Inv dev) (hmode : dev.mode ≠ .tlp) : s.Uncut := by
  rcases h.uncut hmode with hstate | hstate <;> simp [Uncut, hstate]

theorem steps_controlFrame (h : s.Inv dev) (hmode : dev.mode = .qmap mode)
    (hrecycled : s.recycled = false) :
    Steps dev reads s (s.controlFrame dev reads).next := by
  unfold controlFrame
  split_ifs
  · exact .advance rfl h.uncut (h.uncut_of_ne (by simp [hmode])) hrecycled rfl (by omega)
  · exact ⟨rfl, h.uncut, h.header, .recycles rfl⟩

/-- The command of a frame whose buffer was dropped. -/
theorem steps_controlFrame_recycled (h : s.Inv dev) :
    Steps dev reads s (s.recycleL2FillBuffer.controlFrame dev reads).next := by
  unfold controlFrame
  split_ifs
  · simp only [Traced.next_touch, Traced.next_of, Transfer.advance, recycleL2FillBuffer]
    split_ifs <;> exact ⟨rfl, h.uncut, h.header, .recycles rfl⟩
  · exact ⟨rfl, h.uncut, h.header, .recycles rfl⟩

theorem steps_dataFrame (h : s.Inv dev) (hmode : dev.mode = .qmap mode)
    (hrecycled : s.recycled = false)
    (hread : (dev.getAdapterReadDataItemIrp reads (s.buffer (s.dataPtr + 1))).1 = some reqLength) :
    Steps dev reads s (s.dataFrame dev mode reqLength).next := by
  have htake (b : Nat → UInt8) : Steps dev reads s
      ({ s with buffer := b }.takePacket dev reqLength (s.dataPtr + 4) s.packetLen (s.padBytes dev)
        (.of ({ s with buffer := b }.advance (s.dataPtr + 4 + s.packetLen + mode.trailer)))
        (.of { s with buffer := b }.recycleL2FillBuffer)).next := by
    apply takePacket_next
    case hbehind =>
      intro _
      exact .advance rfl h.uncut (h.uncut_of_ne (by simp [hmode])) hrecycled rfl (by omega)
    case hwhole => exact ⟨rfl, fun _ => .inr rfl, by rintro ⟨⟩, .recycles rfl⟩
    case hbad => exact ⟨rfl, h.uncut, h.header, .recycles rfl⟩
    case hshort =>
      intro hlt hle
      have hfound : s.found dev reads = some (s.packetLen, reqLength) := by
        simp [found, hmode, hread]
      refine ⟨rfl, h.uncut, h.header, .waits hrecycled ?_ rfl ?_ (.inl rfl) (.inl rfl)⟩
      · exact fun _ => ⟨hrecycled, _, _, hfound, hlt, hle⟩
      · simp [hmode]
  unfold dataFrame
  cases mode.checksum with
  | none => exact htake s.buffer
  | some v3 => exact htake _

theorem steps_qmapFrame (h : s.Inv dev) (hmode : dev.mode = .qmap mode)
    (hrecycled : s.recycled = false) : Steps dev reads s (s.qmapFrame dev reads mode).next := by
  have hdropped : Steps dev reads s s.recycleL2FillBuffer := ⟨rfl, h.uncut, h.header, .recycles rfl⟩
  unfold qmapFrame
  by_cases hend : s.AtEnd mode
  · simpa [hend] using hdropped
  · simp only [hend, if_false, Traced.next_touch]
    cases hread : dev.getAdapterReadDataItemIrp reads (s.buffer (s.dataPtr + 1)) with
    | mk read readQueueEmpty =>
      cases read with
      | none =>
          by_cases hwait : readQueueEmpty ∧ s.Fits dev
          · have hsame : s.withoutRead dev readQueueEmpty = s := if_pos hwait
            by_cases hcommand : s.IsCommand
            · simpa [hsame, hcommand] using steps_controlFrame h hmode hrecycled
            · have hnone : ¬reads.Available := not_available_of_wait (by rw [hread, hwait.1])
              have hwaits : Outcome dev reads s s := .waits hrecycled (absurd · hnone) rfl
                (fun _ => rfl) (.inl rfl) (.inl rfl)
              simpa [hsame, hcommand] using ⟨rfl, h.uncut, h.header, hwaits⟩
          · have hdrop : s.withoutRead dev readQueueEmpty = s.recycleL2FillBuffer := if_neg hwait
            by_cases hcommand : s.IsCommand
            · simpa [hdrop, hcommand] using steps_controlFrame_recycled h
            · simpa [hdrop, hcommand] using hdropped
      | some reqLength =>
          by_cases hcommand : s.IsCommand
          · simpa [hcommand] using steps_controlFrame h hmode hrecycled
          · simpa [hcommand] using steps_dataFrame h hmode hrecycled (by rw [hread])

/-! ### TLP -/

theorem steps_keepRest {needed : UInt16} {st : TlpBufState} (hmode : dev.mode = .tlp)
    (hlength : t.length = s.length) (hheader : st = .partialHdr → needed - UInt16.ofNat (t.length - dataPtr) = 1) :
    Steps dev reads s (t.keepRest dataPtr needed st).next :=
  ⟨hlength, absurd hmode, hheader, .recycles rfl⟩

/-- The packet `pktLen` is the one that the call finds, and it begins behind `DataPtr`. -/
theorem steps_takePayload {pktLen : UInt16} (hmode : dev.mode = .tlp)
    (hfound : s.found dev reads = some (pktLen.toNat, reqLength))
    (hrecycled : s.recycled = false) (hlength : t.length = s.length) (hptr : t.dataPtr = s.dataPtr)
    (hwalked : t.walked = s.walked) (hidle : t.tlpBufferState = .idle) (hlive : t.recycled = false)
    (hle : s.dataPtr ≤ dataPtr) :
    Steps dev reads s (t.takePayload dev reqLength dataPtr pktLen).next := by
  have hlong (h1 : ¬pktLen.toNat ≤ reqLength.toNat) (h2 : ¬pktLen.toNat ≥ ethMaxPacketSize) :
      Steps dev reads s t := by
    refine ⟨hlength, absurd hmode, fun h => ?_, .waits hlive ?_ hptr ?_ (.inr hidle) (.inl hwalked)⟩
    · simp [hidle] at h
    · exact fun _ => ⟨hrecycled, _, _, hfound, by omega, by omega⟩
    · simp [hmode]
  apply takePacket_next
  case hbehind =>
    intro hgoes
    have hpos : pktLen.toNat ≠ 0 := hgoes.1.1
    exact .advance hlength (absurd hmode) (by simp [Uncut, hidle]) hlive hwalked (by omega)
  case hwhole => exact ⟨hlength, absurd hmode, by rintro ⟨⟩, .recycles rfl⟩
  case hshort => exact fun h1 h2 => hlong (by omega) (by omega)
  case hbad =>
    split_ifs with h1 h2 h3
    · exact steps_keepRest hmode hlength (by rintro ⟨⟩)
    · exact ⟨hlength, absurd hmode, by rintro ⟨⟩, .recycles rfl⟩
    · exact ⟨hlength, absurd hmode, fun h => by simp [recycleL2FillBuffer, hidle] at h, .recycles rfl⟩
    · exact hlong h1 h2

theorem steps_takeHeader (h : s.Inv dev) (hmode : dev.mode = .tlp)
    (hown : reads.own = some reqLength) (hrecycled : s.recycled = false)
    (hidle : s.tlpBufferState = .idle) : Steps dev reads s (s.takeHeader dev reqLength).next := by
  have hfound : s.found dev reads = some (s.tlpLength.toNat, reqLength) := by
    simp [found, hmode, hown, hidle]
  have hptr : s.dataPtr ≤ s.length := h.inBuffer hrecycled
  simp only [takeHeader]
  split_ifs with hheader hword hbyte
  · exact steps_takePayload hmode hfound hrecycled rfl rfl rfl hidle hrecycled (by omega)
  · exact steps_keepRest hmode rfl (by rintro ⟨⟩)
  · have hone : s.length - s.dataPtr = 1 := by omega
    exact steps_keepRest hmode rfl fun _ => by rw [hone]; rfl
  · exact ⟨rfl, h.uncut, h.header, .recycles rfl⟩

theorem steps_completeHeader (h : s.Inv dev) (hmode : dev.mode = .tlp)
    (hrecycled : s.recycled = false) (hstate : s.tlpBufferState = .partialHdr) :
    Steps dev reads s s.completeHeader.next := by
  have hone : s.frame.bytesNeeded.toNat = 1 := by
    rw [h.header hstate]
    rfl
  exact .advance rfl (absurd hmode) ⟨by rintro ⟨⟩, by rintro ⟨⟩⟩ hrecycled rfl (by omega)

theorem steps_secondLeg (h : s.Inv dev) (hmode : dev.mode = .tlp) (hrecycled : s.recycled = false)
    (hstate : s.tlpBufferState = .partialFill) : Steps dev reads s s.secondLeg.next := by
  simp only [secondLeg]
  split_ifs
  · exact ⟨rfl, absurd hmode, by rintro ⟨⟩, .recycles rfl⟩
  · rcases Nat.eq_zero_or_pos s.frame.bytesNeeded.toNat with hnone | hpos
    -- nothing is missing, and the buffer is read from where it was
    · obtain ⟨hstart, hlength⟩ := h.rest hrecycled (.inr hstate)
      have hlt : ¬(0 ≥ s.length) := by omega
      simp only [Traced.next_touch, Traced.next_of, Transfer.advance, recycleFrameBuffer, hnone,
        hstart, Nat.add_zero, hlt, if_false, hrecycled, Bool.false_eq_true]
      exact ⟨rfl, absurd hmode, by rintro ⟨⟩, .completes rfl hstart.symm hstate rfl rfl hmode⟩
    · exact .advance rfl (absurd hmode) ⟨by rintro ⟨⟩, by rintro ⟨⟩⟩ hrecycled rfl (by omega)

theorem steps_discard (h : s.Inv dev) : Steps dev reads s (s.discard dev).next := by
  unfold discard
  split_ifs
  · exact ⟨rfl, fun _ => .inl rfl, by rintro ⟨⟩, .recycles rfl⟩
  · exact ⟨rfl, h.uncut, h.header, .recycles rfl⟩

/-- A call without a read that it needs. -/
theorem steps_of_none (h : s.Inv dev) (hown : reads.own = none) (hrecycled : s.recycled = false) :
    Steps dev reads s s := by
  have hnone : ¬reads.Available := by
    rintro ⟨hsome, -⟩
    simp [hown] at hsome
  exact ⟨rfl, h.uncut, h.header, .waits hrecycled (absurd · hnone) rfl (fun _ => rfl) (.inl rfl) (.inl rfl)⟩

theorem steps_tlp (h : s.Inv dev) (hmode : dev.mode = .tlp) (hrecycled : s.recycled = false) :
    Steps dev reads s (s.readIrpCompletion dev reads).next := by
  unfold readIrpCompletion
  cases hown : reads.own with
  | none => simpa [hmode] using steps_of_none h hown hrecycled
  | some reqLength =>
      simp only [hmode]
      cases hstate : s.tlpBufferState with
      | idle => exact steps_takeHeader h hmode hown hrecycled hstate
      | hdrOnly =>
          have hfound : s.found dev reads = some (s.keptLength.toNat, reqLength) := by
            simp [found, hmode, hown, hstate]
          exact steps_takePayload hmode hfound hrecycled rfl rfl rfl rfl hrecycled (Nat.le_refl _)
      | partialHdr => exact steps_completeHeader h hmode hrecycled hstate
      | partialFill => exact steps_secondLeg h hmode hrecycled hstate
      | error => exact steps_discard h

/-! ### MBIM -/

theorem le_entry (s : Transfer) : s.dataPtr ≤ s.entry := by
  unfold entry
  split_ifs with hstart
  · omega
  · exact Nat.le_refl _

theorem enterNdp_of_ne (h : s.dataPtr ≠ 0) : s.enterNdp = s := by
  simp [enterNdp, following, passed, h]

theorem steps_takeDatagram (h : s.Inv dev) (hmode : dev.mode = .mbim)
    (hown : reads.own = some reqLength) (hrecycled : s.recycled = false)
    (hinside : (s.enterNdp.takeDatagram dev reqLength s.entry).Inside s.length) :
    Steps dev reads s (s.enterNdp.takeDatagram dev reqLength s.entry).next := by
  have hne : dev.mode ≠ .tlp := by simp [hmode]
  have hcut : s.Uncut := h.uncut_of_ne hne
  have hentry := s.le_entry
  apply takePacket_next
  case hbehind =>
    intro hgoes
    obtain ⟨hend, hchain⟩ := (inside_takeDatagram (s := s.enterNdp)).mp hinside |>.2 hgoes
    simp only [nextDatagram, Traced.next_touch]
    split_ifs with hlast hnext
    · refine ⟨rfl, h.uncut, h.header, .follows hrecycled rfl (hchain hlast hnext) hcut ?_ hmode rfl⟩
      by_cases hpassed : s.following ∈ s.passed
      · exact .inl ⟨hrecycled, hmode, hlast, hnext, hpassed⟩
      · exact .inr hpassed
    · exact ⟨rfl, h.uncut, h.header, .recycles rfl⟩
    · have hlt : s.dataPtr < s.entry + 4 := by omega
      have hle : s.entry + 4 ≤ s.length := Nat.le_trans (Nat.le_add_right _ 4) hend
      exact ⟨rfl, h.uncut, h.header, .advances hrecycled hlt hle hcut (.inr ⟨hmode, rfl⟩)⟩
  case hwhole => exact ⟨rfl, fun _ => .inr rfl, by rintro ⟨⟩, .recycles rfl⟩
  case hbad => exact ⟨rfl, h.uncut, h.header, .recycles rfl⟩
  case hshort =>
    intro hlt hle
    have hfound : s.found dev reads = some (word s.buffer (s.entry + 2), reqLength) := by
      simp [found, hmode, hown]
    refine ⟨rfl, h.uncut, h.header, .waits hrecycled ?_ rfl (fun _ => rfl) (.inl rfl) (.inr ⟨hmode, rfl⟩)⟩
    exact fun _ => ⟨hrecycled, _, _, hfound, hlt, hle⟩

theorem steps_mbimDatagram (h : s.Inv dev) (hmode : dev.mode = .mbim)
    (hown : reads.own = some reqLength) (hrecycled : s.recycled = false)
    (hinside : (s.mbimDatagram dev reqLength).Inside s.length) :
    Steps dev reads s (s.mbimDatagram dev reqLength).next := by
  unfold mbimDatagram at hinside ⊢
  by_cases hstart : s.dataPtr = 0
  · simp only [if_pos hstart, Traced.inside_touch, Traced.next_touch] at hinside ⊢
    by_cases hblock : word s.buffer 8 = s.length
    · simp only [hblock, ne_eq, not_true_eq_false, if_false, Traced.inside_touch,
        Traced.next_touch] at hinside ⊢
      exact steps_takeDatagram h hmode hown hrecycled hinside.2.2
    · simp only [ne_eq, hblock, not_false_eq_true, if_true]
      exact ⟨rfl, h.uncut, h.header, .recycles rfl⟩
  · simp only [if_neg hstart] at hinside ⊢
    have hsame : s.enterNdp = s := enterNdp_of_ne hstart
    have hsteps := steps_takeDatagram h hmode hown hrecycled
    rw [hsame] at hsteps
    exact hsteps hinside

/-- What a call leads to, if it stays inside the transfer. -/
theorem steps_call (h : s.Inv dev) (hrecycled : s.recycled = false)
    (hinside : (s.call dev reads).Inside s.length) :
    Steps dev reads s (s.call dev reads).next := by
  simp only [call, hrecycled, Bool.false_eq_true, if_false] at hinside ⊢
  cases hmode : dev.mode with
  | tlp => exact steps_tlp h hmode hrecycled
  | qmap mode =>
      simp only [readIrpCompletion, hmode]
      split_ifs
      · exact steps_discard h
      · exact steps_qmapFrame h hmode hrecycled
  | mbim =>
      cases hown : reads.own with
      | none => simpa [readIrpCompletion, hmode, hown] using steps_of_none h hown hrecycled
      | some reqLength =>
          simp only [readIrpCompletion, hmode, hown] at hinside ⊢
          split_ifs at hinside ⊢
          · exact steps_discard h
          · exact steps_mbimDatagram h hmode hown hrecycled hinside

/-! ## Between the calls -/

theorem Steps.inv (h : s.Inv dev) (hrecycled : s.recycled = false) (hsteps : Steps dev reads s t) :
    t.Inv dev where
  uncut := hsteps.uncut
  header := hsteps.header
  inBuffer := by
    intro hlive
    rw [hsteps.length]
    cases hsteps.outcome with
    | recycles hdone => simp [hdone] at hlive
    | waits _ _ hptr => exact hptr ▸ h.inBuffer hrecycled
    | advances _ _ hle => exact hle
    | completes _ hptr => exact hptr ▸ h.inBuffer hrecycled
    | follows _ hptr hle => exact hptr ▸ hle
  rest := by
    intro hlive hpartial
    rw [hsteps.length]
    cases hsteps.outcome with
    | recycles hdone => simp [hdone] at hlive
    | waits _ _ hptr _ hstate =>
        rcases hstate with hsame | hidle
        · rw [hptr]
          exact h.rest hrecycled (hsame ▸ hpartial)
        · simp [hidle] at hpartial
    | advances _ _ _ huncut => exact absurd hpartial (not_or.mpr huncut)
    | completes _ _ _ hidle => simp [hidle] at hpartial
    | follows _ _ _ huncut => exact absurd hpartial (not_or.mpr huncut)
  walked := by
    intro hmode hlive hstart x hx
    cases hsteps.outcome with
    | recycles hdone => simp [hdone] at hlive
    | waits _ _ hptr hindex _ hwalks =>
        rw [hptr] at hstart
        rw [hindex hmode]
        rcases hwalks with hwalked | ⟨-, hwalked⟩
        · exact h.walked hmode hrecycled hstart x (hwalked ▸ hx)
        · rw [hwalked, passed, if_pos hstart] at hx
          exact List.mem_singleton.mp hx
    | advances _ hlt => omega
    | completes _ _ _ _ _ htlp => simp [htlp] at hmode
    | follows _ hptr => omega

/-- What was walked is passed. -/
theorem Inv.walked_subset (h : s.Inv dev) (hmode : dev.mode = .mbim)
    (hrecycled : s.recycled = false) :
    ∀ x ∈ s.walked, x ∈ s.passed := by
  intro x hx
  unfold passed
  split_ifs with hstart
  · exact List.mem_singleton.mpr (h.walked hmode hrecycled hstart x hx)
  · exact hx

theorem Walks.subset (h : s.Inv dev) (hrecycled : s.recycled = false) (hwalks : Walks dev s t) :
    ∀ x ∈ s.walked, x ∈ t.walked := by
  intro x hx
  rcases hwalks with hwalked | ⟨hmode, hwalked⟩
  · exact hwalked ▸ hx
  · exact hwalked ▸ h.walked_subset hmode hrecycled x hx

/-! ## What is left of a transfer -/

/-- The offsets where the walk has met no NDP. -/
def unwalked (s : Transfer) : Finset Nat := (Finset.range s.length).filter (· ∉ s.walked)

theorem unwalked_subset (hlength : t.length = s.length) (hwalked : ∀ x ∈ s.walked, x ∈ t.walked) :
    t.unwalked ⊆ s.unwalked := by
  intro x hx
  obtain ⟨hlt, hnot⟩ := Finset.mem_filter.mp hx
  exact Finset.mem_filter.mpr ⟨hlength ▸ hlt, fun hmem => hnot (hwalked x hmem)⟩

/-- Every call that goes on lowers it: the NDPs that are left, then the bytes behind `DataPtr`, then
the part of a packet that waits. -/
def left (s : Transfer) : Nat :=
  (s.unwalked.card * (s.length + 1) + (s.length - s.dataPtr)) * 2 +
    if s.tlpBufferState = .partialFill then 1 else 0

theorem left_lt_of_dataPtr (hlength : t.length = s.length) (hsub : t.unwalked ⊆ s.unwalked)
    (hlt : s.dataPtr < t.dataPtr) (hle : t.dataPtr ≤ s.length) : t.left < s.left := by
  have hcard : t.unwalked.card * (s.length + 1) ≤ s.unwalked.card * (s.length + 1) :=
    Nat.mul_le_mul_right _ (Finset.card_le_card hsub)
  simp only [left, hlength]
  split_ifs <;> omega

theorem left_lt_of_unwalked (hlength : t.length = s.length) (hsub : t.unwalked ⊂ s.unwalked) :
    t.left < s.left := by
  have hcard : (t.unwalked.card + 1) * (s.length + 1) ≤ s.unwalked.card * (s.length + 1) :=
    Nat.mul_le_mul_right _ (Finset.card_lt_card hsub)
  rw [Nat.succ_mul] at hcard
  simp only [left, hlength]
  split_ifs <;> omega

theorem left_of_dataPtr_eq (hlength : t.length = s.length) (hsub : t.unwalked ⊆ s.unwalked)
    (hptr : t.dataPtr = s.dataPtr) (hidle : t.tlpBufferState ≠ .partialFill) :
    t.left ≤ s.left ∧ (s.tlpBufferState = .partialFill → t.left < s.left) := by
  have hcard : t.unwalked.card * (s.length + 1) ≤ s.unwalked.card * (s.length + 1) :=
    Nat.mul_le_mul_right _ (Finset.card_le_card hsub)
  simp only [left, hlength, hptr, hidle, if_false]
  split_ifs with hfill
  · exact ⟨by omega, fun _ => by omega⟩
  · exact ⟨by omega, fun h => absurd h hfill⟩

/-- A call that does not recycle the buffer waits or lowers what is left, unless the chain leads
back. -/
theorem Steps.left_cases (h : s.Inv dev) (hrecycled : s.recycled = false)
    (hsteps : Steps dev reads s t) (hlive : t.recycled = false) (hforward : ¬s.LeadsBack dev) :
    t.left < s.left ∨ (reads.Available → s.TooShort dev reads) ∧ t.left ≤ s.left := by
  cases hsteps.outcome with
  | recycles hdone => simp [hdone] at hlive
  | waits _ hshort hptr _ hstate hwalks =>
      have hsub := unwalked_subset hsteps.length (hwalks.subset h hrecycled)
      refine .inr ⟨hshort, ?_⟩
      rcases hstate with hsame | hidle
      · have hcard : t.unwalked.card * (s.length + 1) ≤ s.unwalked.card * (s.length + 1) :=
          Nat.mul_le_mul_right _ (Finset.card_le_card hsub)
        simp only [left, hsteps.length, hptr, hsame]
        omega
      · exact (left_of_dataPtr_eq hsteps.length hsub hptr (by simp [hidle])).1
  | advances _ hlt hle _ hwalks =>
      have hsub := unwalked_subset hsteps.length (hwalks.subset h hrecycled)
      exact .inl (left_lt_of_dataPtr hsteps.length hsub hlt hle)
  | completes _ hptr hfill hidle hwalked =>
      have hsub := unwalked_subset hsteps.length fun x hx => hwalked ▸ hx
      exact .inl ((left_of_dataPtr_eq hsteps.length hsub hptr (by simp [hidle])).2 hfill)
  | follows _ _ hle _ hback hmode hwalked =>
      have hnot : s.following ∉ s.passed := hback.resolve_left hforward
      have hsub := unwalked_subset hsteps.length fun x hx =>
        hwalked ▸ List.mem_cons_of_mem _ (h.walked_subset hmode hrecycled x hx)
      -- the NDP that is followed was not walked before
      have hnew : s.following ∈ s.unwalked :=
        Finset.mem_filter.mpr ⟨Finset.mem_range.mpr (by omega),
          fun hmem => hnot (h.walked_subset hmode hrecycled _ hmem)⟩
      have hgone : s.following ∉ t.unwalked := by
        intro hmem
        apply (Finset.mem_filter.mp hmem).2
        rw [hwalked]
        exact List.mem_cons_self
      exact .inl (left_lt_of_unwalked hsteps.length ⟨hsub, fun hall => hgone (hall hnew)⟩)

/-! ## Runs -/

theorem Fresh.inv (h : Fresh dev s) : s.Inv dev where
  inBuffer := fun _ => h.start ▸ Nat.zero_le _
  uncut := h.uncut
  header := h.header
  rest := fun _ _ => ⟨h.start, h.nonempty⟩
  walked := fun _ _ _ x hx => by simp [h.walked] at hx

theorem call_of_recycled (h : s.recycled = true) : s.call dev reads = .of s := by
  simp [call, h]

section

variable {rs : Nat → Reads}

theorem after_of_recycled {k j : Nat} (h : (s.after dev rs k).recycled = true) (hle : k ≤ j) :
    s.after dev rs j = s.after dev rs k := by
  induction j, hle using Nat.le_induction with
  | base => rfl
  | succ j hle ih => rw [after, ih, call_of_recycled h, Traced.next_of]

/-- The invariant holds as long as the calls stay inside. -/
theorem after_inv (hfresh : Fresh dev s) {k : Nat}
    (hinside : ∀ j < k, ((s.after dev rs j).call dev (rs j)).Inside s.length) :
    (s.after dev rs k).Inv dev ∧ (s.after dev rs k).length = s.length := by
  induction k with
  | zero => exact ⟨hfresh.inv, rfl⟩
  | succ k ih =>
      obtain ⟨hinv, hlength⟩ := ih fun j hj => hinside j (Nat.lt_succ_of_lt hj)
      cases hrecycled : (s.after dev rs k).recycled with
      | true =>
          rw [after_of_recycled hrecycled (Nat.le_succ k)]
          exact ⟨hinv, hlength⟩
      | false =>
          have hin := hinside k (Nat.lt_succ_self k)
          have hsteps := steps_call hinv hrecycled (hlength ▸ hin)
          exact ⟨hsteps.inv hinv hrecycled, hsteps.length.trans hlength⟩

/-- The calls stay inside exactly if the headers that they read do. -/
theorem inside_iff_headers (hfresh : Fresh dev s) :
    (∀ k, ((s.after dev rs k).call dev (rs k)).Inside s.length) ↔
      ∀ k, (s.after dev rs k).HeadersInside dev (rs k) := by
  constructor
  · intro hinside k
    obtain ⟨hinv, hlength⟩ := after_inv hfresh fun j _ => hinside j
    exact (inside_call hinv).mp (hlength ▸ hinside k)
  · intro hheaders k
    induction k using Nat.strong_induction_on with
    | _ k ih =>
      obtain ⟨hinv, hlength⟩ := after_inv hfresh ih
      have hin := (inside_call hinv).mpr (hheaders k)
      exact hlength ▸ hin

theorem strayed_iff_strays (hfresh : Fresh dev s) :
    (∀ k, (s.after dev rs k).strayed = false) ↔ ∀ k, ¬(s.after dev rs k).Strays dev (rs k) := by
  constructor
  · intro hstrayed k hstrays
    have hnext := hstrayed (k + 1)
    rw [after, ← Bool.not_eq_true, strayed_call hstrays.1 (hstrayed k)] at hnext
    exact hnext hstrays
  · intro hstrays k
    induction k with
    | zero => exact hfresh.strayed
    | succ k ih =>
        cases hrecycled : (s.after dev rs k).recycled with
        | true => rw [after_of_recycled hrecycled (Nat.le_succ k), ih]
        | false =>
            rw [after, ← Bool.not_eq_true, strayed_call hrecycled ih]
            exact hstrays k

/-- A walk that waits finitely often at a time, and leads back finitely often, comes to its end. -/
theorem exists_recycled (hfresh : Fresh dev s)
    (hinside : ∀ k, ((s.after dev rs k).call dev (rs k)).Inside s.length)
    (havailable : ∀ k, (rs k).Available)
    (hfits : ∀ k, ∃ j ≥ k, ¬(s.after dev rs j).TooShort dev (rs j))
    (hforward : ∃ k, ∀ j ≥ k, ¬(s.after dev rs j).LeadsBack dev) :
    ∃ k, (s.after dev rs k).recycled = true := by
  by_contra hnever
  have hlive (k : Nat) : (s.after dev rs k).recycled = false := by
    simpa using fun h => hnever ⟨k, h⟩
  obtain ⟨start, hforward⟩ := hforward
  have hcases (k : Nat) (hk : start ≤ k) := by
    obtain ⟨hinv, hlength⟩ := after_inv hfresh fun j (_ : j < k) => hinside j
    have hsteps := steps_call hinv (hlive k) (hlength ▸ hinside k)
    exact hsteps.left_cases hinv (hlive k) (hlive (k + 1)) (hforward k hk)
  apply Loop.not_falls_again_and_again (f := fun k => (s.after dev rs (start + k)).left)
  · intro k
    rcases hcases (start + k) (Nat.le_add_right _ _) with hlt | ⟨-, hle⟩
    · exact Nat.le_of_lt hlt
    · exact hle
  · intro k
    obtain ⟨j, hj, hlong⟩ := hfits (start + k)
    obtain ⟨d, rfl⟩ := Nat.exists_eq_add_of_le (Nat.le_trans (Nat.le_add_right start k) hj)
    refine ⟨d, by omega, ?_⟩
    rcases hcases (start + d) (Nat.le_add_right _ _) with hlt | ⟨hshort, -⟩
    · exact hlt
    · exact absurd (hshort (havailable _)) hlong

end

/-- The parsers are total on a transfer exactly if the calls find their headers inside it, with a known
`MuxId`, and the walk does not wait or lead back for ever. -/
theorem total_iff_guarded (rs : Nat → Reads) (hfresh : Fresh dev s) :
    Total dev rs s ↔ Guarded dev rs s := by
  constructor
  · intro h
    have hdone (havailable : ∀ k, (rs k).Available) :
        ∃ k, ∀ j ≥ k, (s.after dev rs j).recycled = true := by
      obtain ⟨k, hk⟩ := h.recycled havailable
      exact ⟨k, fun j hj => (after_of_recycled hk hj).symm ▸ hk⟩
    refine ⟨(inside_iff_headers hfresh).mp h.inside, (strayed_iff_strays hfresh).mp h.handsOn, ?_, ?_⟩
    · intro havailable k
      obtain ⟨done, hdone⟩ := hdone havailable
      refine ⟨max k done, Nat.le_max_left _ _, fun hshort => ?_⟩
      exact absurd (hdone _ (Nat.le_max_right _ _)) (Bool.eq_false_iff.mp hshort.1)
    · intro havailable
      obtain ⟨done, hdone⟩ := hdone havailable
      exact ⟨done, fun j hj hback => absurd (hdone j hj) (Bool.eq_false_iff.mp hback.1)⟩
  · intro h
    have hinside := (inside_iff_headers hfresh).mpr h.headers
    exact ⟨hinside, (strayed_iff_strays hfresh).mpr h.adapters, fun havailable =>
      exists_recycled hfresh hinside havailable (h.fits havailable) (h.forward havailable)⟩

/-- A run that recycles the buffer is followed up to there. -/
theorem guarded_of_recycled {rs : Nat → Reads} {n : Nat}
    (hdone : (s.after dev rs n).recycled = true)
    (h : ∀ k < n, (s.after dev rs k).HeadersInside dev (rs k) ∧
      ¬(s.after dev rs k).Strays dev (rs k)) : Guarded dev rs s := by
  have hlate {k : Nat} (hk : n ≤ k) : (s.after dev rs k).recycled = true :=
    (after_of_recycled hdone hk).symm ▸ hdone
  constructor
  case headers =>
    intro k
    rcases Nat.lt_or_ge k n with hlt | hge
    · exact (h k hlt).1
    · exact fun hlive => absurd (hlate hge) (Bool.eq_false_iff.mp hlive)
  case adapters =>
    intro k
    rcases Nat.lt_or_ge k n with hlt | hge
    · exact (h k hlt).2
    · exact fun hstrays => absurd (hlate hge) (Bool.eq_false_iff.mp hstrays.1)
  case fits =>
    exact fun _ k => ⟨max k n, Nat.le_max_left _ _, fun hshort =>
      absurd (hlate (Nat.le_max_right _ _)) (Bool.eq_false_iff.mp hshort.1)⟩
  case forward =>
    exact fun _ => ⟨n, fun j hj hback => absurd (hlate hj) (Bool.eq_false_iff.mp hback.1)⟩

/-! ## Transfers that are read and that are not -/

/-- There are reads of 1514 bytes in all queues. -/
def reads1514 : Reads := ⟨some 1514, fun _ => some (some 1514), true⟩

def device (mode : Mode) : Device := ⟨mode, false, 0, false, 65536⟩

def transferOf (bytes : List UInt8) : Transfer :=
  arrives (bytes.getD · 0) bytes.length .idle ⟨fun _ => none, 0, 0⟩

/-- A QMAP V2 frame with an empty UDP packet. -/
def udpFrame (pktLen : UInt8) : Transfer :=
  transferOf ([0, 0, pktLen, 28] ++
    [0x45, 0, 0, 28, 0, 1, 0, 0, 64, 17, 0, 0, 10, 0, 0, 1, 10, 0, 0, 2] ++
    [0, 1, 0, 2, 0, 8, 0, 0] ++ List.replicate 8 0)

theorem total_udpFrame :
    Fresh (device (.qmap .v2)) (udpFrame 0) ∧
      Total (device (.qmap .v2)) (fun _ => reads1514) (udpFrame 0) := by
  have hfresh : Fresh (device (.qmap .v2)) (udpFrame 0) :=
    ⟨by decide, rfl, rfl, rfl, rfl, fun _ => .inl rfl, by rintro ⟨⟩⟩
  have hdone : ((udpFrame 0).after (device (.qmap .v2)) (fun _ => reads1514) 1).recycled = true := by
    decide +kernel
  refine ⟨hfresh, (total_iff_guarded _ hfresh).mpr (guarded_of_recycled hdone fun k hk => ?_)⟩
  obtain rfl : k = 0 := by omega
  constructor
  · intro _ _ _
    refine ⟨fun hcommand => absurd hcommand (by decide), fun _ _ _ => ?_⟩
    unfold PacketInside
    decide +kernel
  · rintro ⟨-, -, mode, -, -, hread, -⟩
    cases hread

/-- An MBIM transfer with one datagram, whose NDP is followed by itself. -/
def ndpLoop : Transfer :=
  transferOf ([0x4e, 0x43, 0x4d, 0x48, 12, 0, 0, 0, 28, 0, 12, 0] ++
    [0x49, 0x50, 0x53, 0, 16, 0, 12, 0] ++ [0, 0, 1, 0] ++ [0, 0, 0, 0])

/-- At the datagram again. -/
def ndpLoopAt (walked : List Nat) : Transfer :=
  { ndpLoop with dataPtr := 20, nextIndex := 12, walked := walked }

theorem call_ndpLoopAt (walked : List Nat) :
    ((ndpLoopAt walked).call (device .mbim) reads1514).next = ndpLoopAt (12 :: walked) := by
  rfl

theorem after_ndpLoop (k : Nat) :
    ∃ walked, ndpLoop.after (device .mbim) (fun _ => reads1514) (k + 1) = ndpLoopAt walked := by
  induction k with
  | zero => exact ⟨[12, 12], rfl⟩
  | succ k ih =>
      obtain ⟨walked, hloop⟩ := ih
      refine ⟨12 :: walked, ?_⟩
      rw [after, hloop]
      exact call_ndpLoopAt walked

/-- A checksum is read behind the transfer, or a chain of NDPs is walked for ever. -/
theorem not_total_udpFrame_ndpLoop :
    (¬Total (device (.qmap .v2)) (fun _ => reads1514) (udpFrame 0x80)) ∧
      ¬Total (device .mbim) (fun _ => reads1514) ndpLoop := by
  constructor
  · intro h
    have hinside := h.inside 0
    revert hinside
    decide +kernel
  · intro h
    have havailable : reads1514.Available := ⟨rfl, by rintro _ ⟨⟩⟩
    obtain ⟨k, hk⟩ := h.recycled fun _ => havailable
    cases k with
    | zero => cases hk
    | succ k =>
        obtain ⟨walked, hloop⟩ := after_ndpLoop k
        rw [hloop] at hk
        cases hk

end Transport.Downlink.Transfer
