-- SUMMARY: Readers that do not overlap get every received byte once and in order.
import QcomUsb.Usb.Readers

/-!
# Delivery to the readers

A read hands out its bytes when it returns. As long as no read is entered while another one
copies with the lock dropped, the bytes handed out and the contents of the read buffer are
the received stream. Storing more bytes does not disturb a read that is on its way.
-/

namespace QtiUsb

open Memory Transition SQTIDevUSB SReadMemListCircular

variable {r r' : SReadMemListCircular} {c c' : Copy} {n : Nat} {eType : ERxType}

/-! ## One read on its way -/

/-- The number of bytes the earlier legs of a read moved. -/
def Copy.front (r : SReadMemListCircular) (c : Copy) : Nat :=
  match c.leg with
  | .part | .all | .wrapped | .leg1 => 0
  | .leg2 | .leg2All => r.mBufflen - r.mStartIdx

/-- The indices a read took are still good, although the buffer may have got more bytes. -/
def Copy.Fits (r : SReadMemListCircular) (c : Copy) : Prop :=
  match c.leg with
  | .part =>
    c.start = r.mStartIdx ∧ c.size = c.pDataSize ∧ c.size < r.occupancy ∧
      c.start + c.size < r.mBufflen
  | .all =>
    c.start = r.mStartIdx ∧ c.start < c.endIdx ∧ c.endIdx ≤ r.mBufflen ∧
      c.size = c.endIdx - c.start ∧ c.size ≤ r.occupancy
  | .wrapped =>
    c.start = r.mStartIdx ∧ c.size = c.pDataSize ∧ c.start + c.size ≤ r.mBufflen ∧
      r.mEndIdx ≤ r.mStartIdx ∧ r.mBufEmptyStatus = false
  | .leg1 =>
    c.start = r.mStartIdx ∧ c.size = r.mBufflen - c.start ∧
      r.mEndIdx ≤ r.mStartIdx ∧ r.mBufEmptyStatus = false
  | .leg2 =>
    c.start = 0 ∧ c.size < r.mEndIdx ∧ r.mEndIdx ≤ r.mStartIdx ∧ r.mBufEmptyStatus = false
  | .leg2All =>
    c.start = 0 ∧ c.size = c.endIdx ∧ c.endIdx ≤ r.mEndIdx ∧ r.mEndIdx ≤ r.mStartIdx ∧
      r.mBufEmptyStatus = false

theorem firstBlock_fits (h : r.Inv) (hc : firstBlock r eType n = some c) :
    c.Fits r ∧ c.front r = 0 ∧ c.copied = none ∧ c.moved = [] := by
  have hend := h.end_le
  have hstart := h.start_le
  unfold firstBlock at hc
  split_ifs at hc with hlt hpart hs hwrap
  · cases hc
    have hocc := h.occupancy_linear (Nat.le_of_lt hlt) (by omega)
    exact ⟨⟨rfl, rfl, by simpa [hocc] using hpart, by simp only; omega⟩, rfl, rfl, rfl⟩
  · cases hc
    have hocc := h.occupancy_linear (Nat.le_of_lt hlt) (by omega)
    exact ⟨⟨rfl, hlt, hend, rfl, Nat.le_of_eq hocc.symm⟩, rfl, rfl, rfl⟩
  · cases hc
    exact ⟨⟨rfl, rfl, by simp only; omega, Nat.le_of_not_lt hlt, hs⟩, rfl, rfl, rfl⟩
  · cases hc
    exact ⟨⟨rfl, rfl, Nat.le_of_not_lt hlt, hs⟩, rfl, rfl, rfl⟩

/-- A read finds nothing in an empty buffer. -/
theorem firstBlock_empty (h : r.Inv) (hs : r.mBufEmptyStatus = true) :
    firstBlock r eType n = none := by
  have heq := h.empty_eq hs
  simp [firstBlock, heq, hs]

/-- The block a read moves is the next piece of the contents. -/
theorem Copy.Fits.block (h : r.Inv) (hf : c.Fits r) :
    r.contents.take (c.front r) ++ slice r.mBulkInBuffer c.start c.size =
      r.contents.take (c.front r + c.size) ∧ c.front r + c.size ≤ r.occupancy := by
  have hend := h.end_le
  have hstart := h.start_le
  have hlinear (hs : c.start = r.mStartIdx) (hle : c.size ≤ r.occupancy)
      (hin : c.start + c.size ≤ r.mBufflen) :
      r.contents.take 0 ++ slice r.mBulkInBuffer c.start c.size = r.contents.take (0 + c.size) ∧
        0 + c.size ≤ r.occupancy := by
    rw [hs] at hin ⊢
    simpa using ⟨contents_take_linear hle hin, hle⟩
  have haround (hs : c.start = 0) (hle : c.size ≤ r.mEndIdx) (hwrap : r.mEndIdx ≤ r.mStartIdx)
      (hne : r.mBufEmptyStatus = false) :
      r.contents.take (r.mBufflen - r.mStartIdx) ++ slice r.mBulkInBuffer c.start c.size =
        r.contents.take (r.mBufflen - r.mStartIdx + c.size) ∧
          r.mBufflen - r.mStartIdx + c.size ≤ r.occupancy := by
    have hocc := Inv.occupancy_wrapped hne hwrap
    have hfirst := contents_take_linear (r := r) (m := r.mBufflen - r.mStartIdx) (by omega)
      (by omega)
    rw [hs, ← hfirst]
    exact ⟨contents_take_around (by omega) hstart (by omega), by omega⟩
  cases hleg : c.leg with
  | part =>
    simp only [Copy.Fits, Copy.front, hleg] at hf ⊢
    exact hlinear hf.1 (Nat.le_of_lt hf.2.2.1) (Nat.le_of_lt hf.2.2.2)
  | all =>
    simp only [Copy.Fits, Copy.front, hleg] at hf ⊢
    exact hlinear hf.1 hf.2.2.2.2 (by omega)
  | wrapped =>
    simp only [Copy.Fits, Copy.front, hleg] at hf ⊢
    have hpos := h.end_pos hf.2.2.2.2
    have hocc := Inv.occupancy_wrapped hf.2.2.2.2 hf.2.2.2.1
    exact hlinear hf.1 (by omega) hf.2.2.1
  | leg1 =>
    simp only [Copy.Fits, Copy.front, hleg] at hf ⊢
    have hocc := Inv.occupancy_wrapped hf.2.2.2 hf.2.2.1
    exact hlinear hf.1 (by omega) (by omega)
  | leg2 =>
    simp only [Copy.Fits, Copy.front, hleg] at hf ⊢
    exact haround hf.1 (Nat.le_of_lt hf.2.1) hf.2.2.1 hf.2.2.2
  | leg2All =>
    simp only [Copy.Fits, Copy.front, hleg] at hf ⊢
    exact haround hf.1 (by omega) hf.2.2.2.1 hf.2.2.2.2

/-- Bytes stored meanwhile leave a read on its way alone. -/
theorem addToReadMemList_indices {data : List UInt8} (hadd : addToReadMemList r data = (true, r')) :
    r'.mStartIdx = r.mStartIdx ∧ r'.mBufflen = r.mBufflen ∧ r'.mBufEmptyStatus = false ∧
      (r.mEndIdx ≤ r.mStartIdx → r.mBufEmptyStatus = false →
        r'.mEndIdx ≤ r.mStartIdx ∧ r.mEndIdx ≤ r'.mEndIdx) := by
  simp only [addToReadMemList] at hadd
  split_ifs at hadd with hle hfull <;> cases hadd
  all_goals refine ⟨rfl, rfl, rfl, fun hwrap hs => ?_⟩
  · exact absurd ⟨Nat.le_antisymm hle hwrap, hs⟩ hfull
  · exact absurd ⟨Nat.le_antisymm hle hwrap, hs⟩ hfull
  · exact absurd ⟨Nat.le_antisymm hle hwrap, hs⟩ hfull
  · exact absurd ⟨Nat.le_antisymm hle hwrap, hs⟩ hfull
  · simp only
    omega

theorem addToReadMemList_contents (h : r.Inv) {data : List UInt8} (hd : data ≠ [])
    (hadd : addToReadMemList r data = (true, r')) : r'.Inv ∧ r'.contents = r.contents ++ data := by
  rcases Nat.lt_or_ge (r.mBufflen - r.occupancy) data.length with hbig | hfit
  · rw [addToReadMemList_refuse h hbig] at hadd
    cases hadd
  · obtain ⟨r₁, hadd₁, hinv, hcont⟩ := addToReadMemList_accept h (List.length_pos_iff.mpr hd) hfit
    rw [hadd] at hadd₁
    cases hadd₁
    exact ⟨hinv, hcont⟩

theorem Copy.Fits.stored (h : r.Inv) {data : List UInt8} (hd : data ≠ [])
    (hadd : addToReadMemList r data = (true, r')) (hf : c.Fits r) :
    c.Fits r' ∧ c.front r' = c.front r := by
  obtain ⟨hstart, hlen, hne, hwrap⟩ := addToReadMemList_indices hadd
  have hcont := (addToReadMemList_contents h hd hadd).2
  have hocc : r.occupancy ≤ r'.occupancy := by
    rw [← r.contents_length, ← r'.contents_length, hcont]
    simp
  cases hleg : c.leg with
  | part =>
    simp only [Copy.Fits, Copy.front, hleg, hstart, hlen] at hf ⊢
    exact ⟨⟨hf.1, hf.2.1, Nat.lt_of_lt_of_le hf.2.2.1 hocc, hf.2.2.2⟩, trivial⟩
  | all =>
    simp only [Copy.Fits, Copy.front, hleg, hstart, hlen] at hf ⊢
    exact ⟨⟨hf.1, hf.2.1, hf.2.2.1, hf.2.2.2.1, hf.2.2.2.2.trans hocc⟩, trivial⟩
  | wrapped =>
    simp only [Copy.Fits, Copy.front, hleg, hstart, hlen] at hf ⊢
    have hend := hwrap hf.2.2.2.1 hf.2.2.2.2
    exact ⟨⟨hf.1, hf.2.1, hf.2.2.1, hend.1, hne⟩, trivial⟩
  | leg1 =>
    simp only [Copy.Fits, Copy.front, hleg, hstart, hlen] at hf ⊢
    have hend := hwrap hf.2.2.1 hf.2.2.2
    exact ⟨⟨hf.1, hf.2.1, hend.1, hne⟩, trivial⟩
  | leg2 =>
    simp only [Copy.Fits, Copy.front, hleg, hstart, hlen] at hf ⊢
    have hend := hwrap hf.2.2.1 hf.2.2.2
    exact ⟨⟨hf.1, Nat.lt_of_lt_of_le hf.2.1 hend.2, hend.1, hne⟩, trivial⟩
  | leg2All =>
    simp only [Copy.Fits, Copy.front, hleg, hstart, hlen] at hf ⊢
    have hend := hwrap hf.2.2.2.1 hf.2.2.2.2
    exact ⟨⟨hf.1, hf.2.1, hf.2.2.1.trans hend.2, hend.1, hne⟩, trivial⟩

/-! ## The end of a read -/

/-- The bytes `moved` left the buffer at its start. -/
def Took (r : SReadMemListCircular) (moved : List UInt8) (r' : SReadMemListCircular) : Prop :=
  r'.Inv ∧ moved ++ r'.contents = r.contents

/-- The start moves on by `m` bytes, some remain. -/
theorem took_part {m start : Nat} (h : r.Inv) (hm : m < r.occupancy) (hle : start ≤ r.mBufflen)
    (hstart : start % r.mBufflen = (r.mStartIdx + m) % r.mBufflen)
    (hocc : { r with mStartIdx := start }.occupancy = r.occupancy - m) :
    Took r (r.contents.take m) { r with mStartIdx := start } := by
  have hspec := CopySpec.part h hm hle hstart hocc rfl
  exact ⟨hspec.inv, by rw [hspec.rest, List.take_append_drop]⟩

/-- All bytes leave. -/
theorem took_all (h : r.Inv) (hpos : r.occupancy ≠ 0) :
    Took r (r.contents.take r.occupancy) { r with mStartIdx := r.mEndIdx, mBufEmptyStatus := true } := by
  have hspec := CopySpec.all h hpos (Nat.le_refl _) rfl rfl
  exact ⟨hspec.inv, by rw [hspec.rest, List.take_append_drop]⟩

/-- A read that moved what was there when it looked empties the buffer, unless more came. -/
theorem took_upTo {m endIdx : Nat} (h : r.Inv) (hs : r.mBufEmptyStatus = false)
    (hend : endIdx ≤ r.mBufflen)
    (hstart : endIdx % r.mBufflen = (r.mStartIdx + m) % r.mBufflen)
    (hall : endIdx = r.mEndIdx → m = r.occupancy)
    (hpart : endIdx ≠ r.mEndIdx →
      m < r.occupancy ∧ { r with mStartIdx := endIdx }.occupancy = r.occupancy - m) :
    Took r (r.contents.take m) { r with
      mStartIdx := endIdx
      mBufEmptyStatus := if endIdx = r.mEndIdx then true else r.mBufEmptyStatus } := by
  by_cases he : endIdx = r.mEndIdx
  · have hpos : r.occupancy ≠ 0 := by
      rw [ne_eq, ← h.occupancy_eq_zero, hs]
      simp
    simpa [he, hall he] using took_all h hpos
  · obtain ⟨hlt, hocc⟩ := hpart he
    simpa [he] using took_part h hlt hend hstart hocc

/-- A read about to copy a block. -/
structure Copy.Pending (r : SReadMemListCircular) (c : Copy) : Prop where
  copied : c.copied = none
  fits : c.Fits r
  moved : c.moved = r.contents.take (c.front r)

/-- What a read of the copy `c` may lead to: its bytes left the buffer, or it is about to
copy another block. -/
def Copy.Leads (r : SReadMemListCircular) (c : Copy) : SReadMemListCircular ⊕ Copy → Prop
  | .inl r' => Took r c.moved r'
  | .inr c' => c'.eType = c.eType ∧ c'.moved = c.moved ∧ c'.Pending r

theorem nextBlock_part (h : r.Inv) (hf : c.Fits r) (hleg : c.leg = .part)
    (hm : c.moved = r.contents.take c.size) : c.Leads r (nextBlock r c) := by
  simp only [Copy.Fits, hleg] at hf
  obtain ⟨hs, hn, hlt, hin⟩ := hf
  have hne : r.mBufEmptyStatus = false := by
    cases hempty : r.mBufEmptyStatus with
    | true => exact absurd (h.occupancy_eq_zero.mp hempty) (by omega)
    | false => rfl
  simp only [nextBlock, hleg, Copy.Leads, ← hn, hm]
  refine took_part h hlt (by omega) rfl ?_
  rcases Nat.lt_or_ge r.mStartIdx r.mEndIdx with hahead | hwrap
  · have hocc := Inv.occupancy_ahead hne hahead
    rw [hocc, occupancy_restart_ahead hne (by omega)]
    omega
  · have hocc := Inv.occupancy_wrapped hne hwrap
    rw [hocc, occupancy_restart_wrapped hne (by omega)]
    omega

theorem nextBlock_all (h : r.Inv) (hf : c.Fits r) (hleg : c.leg = .all)
    (hm : c.moved = r.contents.take c.size) : c.Leads r (nextBlock r c) := by
  simp only [Copy.Fits, hleg] at hf
  obtain ⟨hs, hlt, hend, hn, hle⟩ := hf
  have hne : r.mBufEmptyStatus = false := by
    cases hempty : r.mBufEmptyStatus with
    | true => exact absurd (h.occupancy_eq_zero.mp hempty) (by omega)
    | false => rfl
  have hsize : r.mStartIdx + c.size = c.endIdx := by omega
  simp only [nextBlock, hleg, Copy.Leads, hm]
  refine took_upTo h hne hend (by rw [hsize]) ?_ ?_
  · intro he
    have hocc := Inv.occupancy_ahead hne (by omega)
    omega
  · intro hmore
    rcases Nat.lt_or_ge r.mStartIdx r.mEndIdx with hahead | hwrap
    · have hocc := Inv.occupancy_ahead hne hahead
      rw [hocc, occupancy_restart_ahead hne (by omega)]
      omega
    · have hocc := Inv.occupancy_wrapped hne hwrap
      have hpos := h.end_pos hne
      rw [hocc, occupancy_restart_wrapped hne (by omega)]
      omega

theorem nextBlock_wrapped (h : r.Inv) (hf : c.Fits r) (hleg : c.leg = .wrapped)
    (hm : c.moved = r.contents.take c.size) : c.Leads r (nextBlock r c) := by
  simp only [Copy.Fits, hleg] at hf
  obtain ⟨hs, hn, hin, hwrap, hne⟩ := hf
  have hpos := h.end_pos hne
  have hocc := Inv.occupancy_wrapped hne hwrap
  simp only [nextBlock, hleg, Copy.Leads, ← hn, hm]
  refine took_part h (by omega) (Nat.mod_lt _ h.bufflen_pos).le (Nat.mod_mod _ _) ?_
  -- a read up to the very end of the buffer starts over at index 0
  rcases Nat.lt_or_eq_of_le hin with hlt | hedge
  · have hmod : (r.mStartIdx + c.size) % r.mBufflen = r.mStartIdx + c.size :=
      Nat.mod_eq_of_lt (by omega)
    rw [hmod, occupancy_restart_wrapped hne (by omega), hocc]
    omega
  · have hmod : (r.mStartIdx + c.size) % r.mBufflen = 0 := by
      rw [← hs, hedge, Nat.mod_self]
    rw [hmod, occupancy_restart_ahead hne hpos, hocc]
    omega

/-- The second leg takes up to where the callback has moved `mEndIdx` by now. -/
theorem nextBlock_leg1 (hf : c.Fits r) (hleg : c.leg = .leg1)
    (hm : c.moved = r.contents.take c.size) : c.Leads r (nextBlock r c) := by
  simp only [Copy.Fits, hleg] at hf
  obtain ⟨hs, hn, hwrap, hne⟩ := hf
  simp only [nextBlock, hleg]
  split_ifs with hless
  · exact ⟨rfl, rfl, rfl, ⟨rfl, hless, hwrap, hne⟩, by simp only [Copy.front]; rw [hm, hn, hs]⟩
  · exact ⟨rfl, rfl, rfl, ⟨rfl, rfl, Nat.le_refl _, hwrap, hne⟩,
      by simp only [Copy.front]; rw [hm, hn, hs]⟩

theorem nextBlock_leg2 (h : r.Inv) (hf : c.Fits r) (hleg : c.leg = .leg2)
    (hm : c.moved = r.contents.take (r.mBufflen - r.mStartIdx + c.size)) :
    c.Leads r (nextBlock r c) := by
  simp only [Copy.Fits, hleg] at hf
  obtain ⟨hs, hlt, hwrap, hne⟩ := hf
  have hocc := Inv.occupancy_wrapped hne hwrap
  have hstart := h.start_le
  have hend := h.end_le
  simp only [nextBlock, hleg, Copy.Leads, hm]
  refine took_part h (by omega) (by omega) ?_ ?_
  · have hturn : r.mStartIdx + (r.mBufflen - r.mStartIdx + c.size) = c.size + r.mBufflen := by
      omega
    rw [hturn, Nat.add_mod_right]
  · rw [occupancy_restart_ahead hne hlt, hocc]
    omega

theorem nextBlock_leg2All (h : r.Inv) (hf : c.Fits r) (hleg : c.leg = .leg2All)
    (hm : c.moved = r.contents.take (r.mBufflen - r.mStartIdx + c.size)) :
    c.Leads r (nextBlock r c) := by
  simp only [Copy.Fits, hleg] at hf
  obtain ⟨hs, hn, hle, hwrap, hne⟩ := hf
  have hocc := Inv.occupancy_wrapped hne hwrap
  have hstart := h.start_le
  have hend := h.end_le
  simp only [nextBlock, hleg, Copy.Leads, hm, hn]
  refine took_upTo h hne (by omega) ?_ ?_ ?_
  · have hturn : r.mStartIdx + (r.mBufflen - r.mStartIdx + c.endIdx) = c.endIdx + r.mBufflen := by
      omega
    rw [hturn, Nat.add_mod_right]
  · intro he
    omega
  · intro hmore
    rw [hocc, occupancy_restart_ahead hne (by omega)]
    omega

/-- A block that was moved leads on. -/
theorem nextBlock_leads (h : r.Inv) (hf : c.Fits r)
    (hm : c.moved = r.contents.take (c.front r + c.size)) : c.Leads r (nextBlock r c) := by
  cases hleg : c.leg with
  | part => exact nextBlock_part h hf hleg (by simpa [Copy.front, hleg] using hm)
  | all => exact nextBlock_all h hf hleg (by simpa [Copy.front, hleg] using hm)
  | wrapped => exact nextBlock_wrapped h hf hleg (by simpa [Copy.front, hleg] using hm)
  | leg1 => exact nextBlock_leg1 hf hleg (by simpa [Copy.front, hleg] using hm)
  | leg2 => exact nextBlock_leg2 h hf hleg (by simpa [Copy.front, hleg] using hm)
  | leg2All => exact nextBlock_leg2All h hf hleg (by simpa [Copy.front, hleg] using hm)

theorem skipEmpty_leads (h : r.Inv) (hp : c.Pending r) : c.Leads r (skipEmpty r c) := by
  unfold skipEmpty
  split_ifs with hzero
  · exact nextBlock_leads h hp.fits (by simpa [hzero] using hp.moved)
  · exact ⟨rfl, rfl, hp⟩

theorem untilUnlock_leads (h : r.Inv) {out : SReadMemListCircular ⊕ Copy} (hl : c.Leads r out) :
    c.Leads r (untilUnlock r out) := by
  cases out with
  | inl r' => exact hl
  | inr c' =>
    obtain ⟨htype, hmoved, hp⟩ := hl
    have hskip := skipEmpty_leads h hp
    simp only [untilUnlock]
    cases hout : skipEmpty r c' with
    | inl r' => simpa [Copy.Leads, hout, hmoved] using hskip
    | inr c'' => simpa [Copy.Leads, hout, hmoved, htype] using hskip

/-- A block that was left for the next time the lock is dropped. -/
def Copy.Left (c : Copy) : Prop := c.size ≠ 0 ∨ c.leg = .leg2 ∨ c.leg = .leg2All

theorem nextBlock_left (hc : nextBlock r c = .inr c') : c'.Left := by
  unfold nextBlock at hc
  split at hc
  case h_4 hleg =>
    simp only at hc
    split_ifs at hc
    · cases hc
      exact .inr (.inl rfl)
    · cases hc
      exact .inr (.inr rfl)
  all_goals cases hc

theorem skipEmpty_left (hc : skipEmpty r c = .inr c') : c'.Left := by
  unfold skipEmpty at hc
  split_ifs at hc with hzero
  · exact nextBlock_left hc
  · cases hc
    exact .inl hzero

/-- The lock is dropped for a block that is not empty. -/
theorem untilUnlock_size {out : SReadMemListCircular ⊕ Copy}
    (hout : ∀ c'', out = .inr c'' → c''.Left)
    (hc : untilUnlock r out = .inr c') : c'.size ≠ 0 := by
  cases out with
  | inl r' => cases hc
  | inr c'' =>
    simp only [untilUnlock, skipEmpty] at hc
    split_ifs at hc with hzero
    · rcases hout c'' rfl with hsize | hleg | hleg
      · exact absurd hzero hsize
      · simp [nextBlock, hleg] at hc
      · simp [nextBlock, hleg] at hc
    · cases hc
      exact hzero

/-- A read that copies with the lock dropped. It has moved all of its block or, when its
copy failed, nothing at all. -/
structure Copy.Reading (r : SReadMemListCircular) (c : Copy) : Prop where
  size : c.size ≠ 0
  fits : c.Fits r
  before : c.copied = none → c.moved = r.contents.take (c.front r)
  after : ∀ k, c.copied = some k →
    (k = c.size ∧ c.moved = r.contents.take (c.front r + c.size)) ∨ (k = 0 ∧ c.moved = [])

theorem Copy.Reading.stored (h : r.Inv) {data : List UInt8} (hd : data ≠ [])
    (hadd : addToReadMemList r data = (true, r')) (hr : c.Reading r) : c.Reading r' := by
  obtain ⟨hfits, hfront⟩ := hr.fits.stored h hd hadd
  have hcont := (addToReadMemList_contents h hd hadd).2
  have hle := (hr.fits.block h).2
  refine ⟨hr.size, hfits, ?_, ?_⟩
  · intro hcopied
    rw [hfront, hcont, List.take_append_of_le_length (by simp only [contents_length]; omega)]
    exact hr.before hcopied
  · intro k hcopied
    rw [hfront, hcont, List.take_append_of_le_length (by simp only [contents_length]; omega)]
    exact hr.after k hcopied

/-! ## The device under a reader -/

variable {live : Prop} {held : List (Fin bulkUrbList)} {d : SQTIDevUSB}
  {usbSubmitUrb : UsbSubmitUrb} {moved : List UInt8}

theorem SQTIDevUSB.Accounted.took (h : Accounted live held (· = ·) d)
    (ht : Took d.mReadBuffCircular moved r') :
    Accounted live held (· = ·) ({ d with mReadBuffCircular := r' }.record (.handed moved)) := by
  obtain ⟨taken, rfl, hk⟩ := h
  refine ⟨handedOut d.log ++ moved, ?_, hk.take _ _ ht.1 ?_⟩
  · change _ = handedOut (d.log ++ [.handed moved])
    simp [handedOut]
  · rw [List.append_assoc, ht.2]

theorem SQTIDevUSB.Accounted.popAll {rel : List UInt8 → List UInt8 → Prop}
    (usbSubmitUrb : UsbSubmitUrb) (h : Accounted live held rel d)
    (hsub : live → ∀ i, usbSubmitUrb i = 0) : Accounted live held rel (d.popAll usbSubmitUrb) := by
  obtain ⟨taken, hrel, hk⟩ := h
  exact ⟨taken, by simpa using hrel, popAll_kept hsub hk⟩

/-- An async read hands out what it takes. -/
theorem copyFromReadMemList_accounted (h : Accounted False held (· = ·) d) {n : Nat}
    (hn32 : n < 2 ^ 32) :
    Accounted False held (· = ·) (d.copyFromReadMemList usbSubmitUrb n copyOk) := by
  obtain ⟨taken, hrel, hk⟩ := h
  have hspec := copyFromReadMemList_spec hk.2.ring hn32
  have htook : Took d.mReadBuffCircular (QtiUsb.copyFromReadMemList d.mReadBuffCircular n copyOk).moved
      (QtiUsb.copyFromReadMemList d.mReadBuffCircular n copyOk).ring :=
    ⟨hspec.inv, by rw [hspec.moved, hspec.rest, List.take_append_drop]⟩
  have hread := Accounted.took ⟨taken, hrel, hk⟩ htook
  simp only [SQTIDevUSB.copyFromReadMemList]
  split_ifs
  · exact hread.popAll usbSubmitUrb fun hlive => hlive.elim
  · exact hread

theorem resubmitBulkURB_ring (i : Fin bulkUrbList) :
    (d.resubmitBulkURB usbSubmitUrb i).2.mReadBuffCircular = d.mReadBuffCircular := by
  unfold resubmitBulkURB
  split_ifs <;> rfl

theorem addToQueue_ring (i : Fin bulkUrbList) :
    (d.addToQueue i).mReadBuffCircular = d.mReadBuffCircular := by
  simp only [SQTIDevUSB.addToQueue]
  split <;> rfl

/-- Without memory no async read is served. -/
theorem completeIoReads_kzalloc (d : SQTIDevUSB) (usbSubmitUrb : UsbSubmitUrb) (as : List IoRead)
    (has : ∀ a ∈ as, a.kzalloc = false) :
    (d.completeIoReads usbSubmitUrb as).2 = d := by
  induction as with
  | nil => rfl
  | cons a as ih =>
    have hrest := ih fun b hb => has b (List.mem_cons_of_mem _ hb)
    simp only [completeIoReads, ioAsyncComplete, has a (by simp), if_true]
    split_ifs
    · exact hrest
    · exact hrest

/-- A callback that serves no async read leaves the read buffer alone or stores bytes. -/
theorem blkCallback_ring {s : Readers} {status : Int} {data : List UInt8}
    (usbSubmitUrb : UsbSubmitUrb) (i : Fin bulkUrbList)
    (hio : s.StoresAtOnce status data → ∀ a ∈ s.dev.mIoReadBuffListActive, a.kzalloc = false) :
    (s.dev.blkCallback usbSubmitUrb i status data).mReadBuffCircular = s.dev.mReadBuffCircular ∨
    (data ≠ [] ∧ addToReadMemList s.dev.mReadBuffCircular data =
      (true, (s.dev.blkCallback usbSubmitUrb i status data).mReadBuffCircular)) := by
  have hbuf : (((s.dev.giveBack i data).record (.completed i data)).mBulkUrbList i).transferBuffer =
      data := by simp [giveBack, record]
  simp only [blkCallback]
  split_ifs with hfail hempty hclosed
  · exact .inl rfl
  · exact .inl (resubmitBulkURB_ring i)
  · exact .inl (resubmitBulkURB_ring i)
  · simp only [storeOrQueue, hbuf]
    by_cases hwait : 0 < ((s.dev.giveBack i data).record (.completed i data)).mBulkUrbBuffListSize
    · simp only [hwait, if_true]
      exact .inl (addToQueue_ring i)
    · simp only [hwait, if_false]
      cases hadd : addToReadMemList
          ((s.dev.giveBack i data).record (.completed i data)).mReadBuffCircular data with
      | mk stored ring =>
        cases stored with
        | false => exact .inl (addToQueue_ring i)
        | true =>
          have hstores : s.StoresAtOnce status data := by
            refine ⟨by tauto, hempty, Nat.not_lt.mp hclosed, Nat.eq_zero_of_not_pos hwait, ?_⟩
            exact congrArg Prod.fst hadd
          have hnone := completeIoReads_kzalloc
            ({ (s.dev.giveBack i data).record (.completed i data) with
              mReadBuffCircular := ring }.record (.stored i data)) usbSubmitUrb _ (hio hstores)
          right
          refine ⟨by simpa using hempty, ?_⟩
          simp only [resubmitBulkURB_ring]
          exact hadd.trans (congrArg (fun d => (true, d.mReadBuffCircular)) hnone.symm)

/-! ## All readers -/

/-- The step enters no read while another one copies with the lock dropped, and a copy moves
all of its block or makes the read return with nothing. -/
def ReadersOp.Alone (s : Readers) : ReadersOp → Prop
  | .complete _ status data _ =>
    s.Quiet ∨ ¬ (s.StoresAtOnce status data ∧ ∃ a ∈ s.dev.mIoReadBuffListActive, a.kzalloc = true)
  | .filled _ _ | .readFromRingbuff _ _ _ =>
    s.Quiet ∨ s.dev.mReadBuffCircular.mBufEmptyStatus = true
  | .copy reader copied =>
    ∀ c, s.copies reader = some c → copied = c.size ∨ (copied = 0 ∧ c.moved = [])
  | .queueIo _ | .readSyncBlk _ _ | .notFilled _ | .relock _ _ => True

namespace Readers

variable {s : Readers} {reader : Nat}

/-- The accounts of a device whose reads do not overlap. -/
structure Serial (s : Readers) : Prop where
  accounted : Accounted False [] (· = ·) s.dev
  reading : ∀ reader c, s.copies reader = some c → c.Reading s.dev.mReadBuffCircular
  alone : ∀ reader other, s.copies reader ≠ none → s.copies other ≠ none → other = reader

theorem Serial.inv (h : s.Serial) : s.dev.mReadBuffCircular.Inv := by
  obtain ⟨taken, -, hk⟩ := h.accounted
  exact hk.2.ring

@[simp] theorem notifyUserRequest_dev (s : Readers) (r : SReadMemListCircular)
    (evt : Option Nat) : (s.notifyUserRequest r evt).dev = s.dev := by
  unfold notifyUserRequest
  split
  · rfl
  · split_ifs <;> rfl

@[simp] theorem notifyUserRequest_copies (s : Readers) (r : SReadMemListCircular)
    (evt : Option Nat) : (s.notifyUserRequest r evt).copies = s.copies := by
  unfold notifyUserRequest
  split
  · rfl
  · split_ifs <;> rfl

/-- What goes on among the waiting readers does not matter. -/
theorem Serial.of_eq {s' : Readers} (h : s.Serial) (hdev : s'.dev = s.dev)
    (hcopies : s'.copies = s.copies) : s'.Serial :=
  ⟨hdev ▸ h.accounted, hdev ▸ hcopies ▸ h.reading, hcopies ▸ h.alone⟩

theorem Serial.leave (h : s.Serial) (reader : Nat) (eType : ERxType) :
    (s.leave reader eType).Serial := by
  cases eType with
  | mem => exact h.of_eq (notifyUserRequest_dev _ _ _) (notifyUserRequest_copies _ _ _)
  | iter => exact h

/-- Only `reader` may be copying. -/
theorem serial_setCopy {dev : SQTIDevUSB} (hacc : Accounted False [] (· = ·) dev)
    (hquiet : ∀ other, other ≠ reader → s.copies other = none) {o : Option Copy}
    (hread : ∀ c, o = some c → c.Reading dev.mReadBuffCircular) :
    ({ s with dev := dev }.setCopy reader o).Serial := by
  have hself (other : Nat) (hne : ({ s with dev := dev }.setCopy reader o).copies other ≠ none) :
      other = reader := by
    by_contra hother
    exact hne (by simpa [setCopy, hother] using hquiet other hother)
  refine ⟨hacc, ?_, ?_⟩
  · intro other c hc
    have hother := hself other (by simp [hc])
    subst hother
    exact hread c (by simpa [setCopy] using hc)
  · intro one other hone hother
    rw [hself one hone, hself other hother]

theorem serial_goOn (h : s.Serial) (hquiet : ∀ other, other ≠ reader → s.copies other = none)
    {c : Copy} {out : SReadMemListCircular ⊕ Copy} {usbSubmitUrb : UsbSubmitUrb}
    (hl : c.Leads s.dev.mReadBuffCircular out) (hsize : ∀ c', out = .inr c' → c'.size ≠ 0) :
    (s.goOn reader c usbSubmitUrb out).Serial := by
  cases out with
  | inl ring =>
    have hacc := (h.accounted.took hl).popAll usbSubmitUrb fun hlive => hlive.elim
    exact (serial_setCopy hacc hquiet (o := none) (by simp)).leave reader c.eType
  | inr c' =>
    obtain ⟨-, -, hp⟩ := hl
    apply serial_setCopy h.accounted hquiet
    intro c'' hc''
    cases hc''
    refine ⟨hsize c' rfl, hp.fits, fun _ => hp.moved, ?_⟩
    intro k hk
    rw [hp.copied] at hk
    cases hk

theorem serial_enter (h : s.Serial)
    (hquiet : s.Quiet ∨ s.dev.mReadBuffCircular.mBufEmptyStatus = true)
    (eType : ERxType) (n : Nat) (usbSubmitUrb : UsbSubmitUrb) :
    (s.enter reader eType n usbSubmitUrb).Serial := by
  simp only [enter]
  rcases hquiet with hquiet | hempty
  · cases hfirst : firstBlock s.dev.mReadBuffCircular eType n with
    | none => exact h.leave reader eType
    | some c =>
      obtain ⟨hfits, hfront, hcopied, hmoved⟩ := firstBlock_fits h.inv hfirst
      have hp : c.Pending s.dev.mReadBuffCircular := ⟨hcopied, hfits, by simp [hmoved, hfront]⟩
      apply serial_goOn h fun other _ => hquiet other
      · exact untilUnlock_leads h.inv (skipEmpty_leads h.inv hp)
      · intro c' hc'
        exact untilUnlock_size (fun _ => skipEmpty_left) hc'
  · rw [firstBlock_empty h.inv hempty]
    exact h.leave reader eType

/-- A copy with the lock dropped reads the bytes it is to read, whatever was stored since. -/
theorem serial_copy (h : s.Serial) {c : Copy} {copied : Nat} (hc : s.copies reader = some c)
    (hnew : c.copied = none) (hok : copied = c.size ∨ (copied = 0 ∧ c.moved = [])) :
    (s.setCopy reader (some { c with
      moved := c.moved ++ slice s.dev.mReadBuffCircular.mBulkInBuffer c.start copied
      copied := some copied })).Serial := by
  have hr := h.reading reader c hc
  have hblock := (hr.fits.block h.inv).1
  have hquiet (other : Nat) (hother : other ≠ reader) : s.copies other = none := by
    by_contra hne
    exact hother (h.alone reader other (by simp [hc]) hne)
  apply serial_setCopy h.accounted hquiet
  intro c' hc'
  cases hc'
  refine ⟨hr.size, hr.fits, (by simp), ?_⟩
  intro k hk
  cases hk
  rcases hok with rfl | ⟨rfl, hnil⟩
  · refine .inl ⟨rfl, ?_⟩
    simp only [hr.before hnew]
    exact hblock
  · exact .inr ⟨rfl, by simp [hnil, slice]⟩

theorem serial_relock (h : s.Serial) {c : Copy} {copied : Nat} (hc : s.copies reader = some c)
    (hcopied : c.copied = some copied) (usbSubmitUrb : UsbSubmitUrb) :
    (if c.bFailed copied then s.returnFault reader c
      else s.goOn reader c usbSubmitUrb (untilUnlock s.dev.mReadBuffCircular
        (nextBlock s.dev.mReadBuffCircular c))).Serial := by
  have hr := h.reading reader c hc
  have hquiet (other : Nat) (hother : other ≠ reader) : s.copies other = none := by
    by_contra hne
    exact hother (h.alone reader other (by simp [hc]) hne)
  rcases hr.after copied hcopied with ⟨rfl, hmoved⟩ | ⟨rfl, hnil⟩
  · have hgood : c.bFailed c.size = false := by
      cases htype : c.eType with
      | mem => simp [Copy.bFailed, htype]
      | iter => simpa [Copy.bFailed, htype] using hr.size
    rw [hgood, if_neg Bool.false_ne_true]
    apply serial_goOn h hquiet
    · exact untilUnlock_leads h.inv (nextBlock_leads h.inv hr.fits hmoved)
    · intro c' hc'
      exact untilUnlock_size (fun _ => nextBlock_left) hc'
  · have hbad : c.bFailed 0 = true := by
      cases htype : c.eType with
      | mem => simpa [Copy.bFailed, htype] using hr.size.symm
      | iter => simp [Copy.bFailed, htype]
    rw [hbad, if_pos rfl]
    have htook : Took s.dev.mReadBuffCircular c.moved s.dev.mReadBuffCircular :=
      ⟨h.inv, by simp [hnil]⟩
    exact (serial_setCopy (h.accounted.took htook) hquiet (o := none) (by simp)).leave reader c.eType

/-- The callback stores more bytes, or nobody is on the way. -/
theorem serial_complete {i : Fin bulkUrbList} {status : Int} {data : List UInt8}
    {usbSubmitUrb : UsbSubmitUrb} (h : s.Serial) (hflight : (s.dev.mBulkUrbList i).inFlight = true)
    (hok : (ReadersOp.complete i status data usbSubmitUrb).Alone s) :
    ({ s with dev := s.dev.blkCallback usbSubmitUrb i status data } : Readers).Serial := by
  have hacc : Accounted False [] (· = ·) (s.dev.blkCallback usbSubmitUrb i status data) :=
    blkCallback_accounted h.accounted status data (fun hlive => hlive.elim) hflight
      (fun hlive => hlive.elim) fun d n hn hd => copyFromReadMemList_accounted hd hn
  refine ⟨hacc, ?_, h.alone⟩
  intro reader c hc
  have hc : s.copies reader = some c := hc
  rcases hok with hquiet | hserves
  · rw [hquiet reader] at hc
    cases hc
  · have hio (hstores : s.StoresAtOnce status data) :
        ∀ a ∈ s.dev.mIoReadBuffListActive, a.kzalloc = false := by
      intro a ha
      by_contra hmem
      exact hserves ⟨hstores, a, ha, by simpa using hmem⟩
    rcases blkCallback_ring usbSubmitUrb i hio with hsame | ⟨hd, hadd⟩
    · simpa [hsame] using h.reading reader c hc
    · exact (h.reading reader c hc).stored h.inv hd hadd

/-- The bytes handed out and the contents of the read buffer are the received stream. -/
structure Delivered (s : Readers) : Prop where
  ring : s.dev.mReadBuffCircular.Inv
  once : handedOut s.dev.log ++ s.dev.mReadBuffCircular.contents = payload (stores s.dev.log)

theorem Serial.delivered (h : s.Serial) : s.Delivered := by
  obtain ⟨taken, rfl, hk⟩ := h.accounted
  exact ⟨hk.2.ring, hk.2.contents⟩

end Readers

open Readers

theorem readersStep_serial {s s' : Readers} {op : ReadersOp} {o : Unit} (h : s.Serial)
    (hok : op.Alone s) (hstep : readersStep s op = some (s', o)) : s'.Serial := by
  cases op with
  | complete i status data usbSubmitUrb =>
    simp only [readersStep] at hstep
    split_ifs at hstep with hflight
    · cases hstep
      exact (serial_complete h hflight hok).of_eq (notifyUserRequest_dev _ _ _)
        (notifyUserRequest_copies _ _ _)
    · cases hstep
      exact serial_complete h hflight hok
  | queueIo a =>
    cases hstep
    obtain ⟨taken, hrel, hk⟩ := h.accounted
    exact ⟨⟨taken, hrel, hk.setActive _⟩, h.reading, h.alone⟩
  | readSyncBlk reader n =>
    simp only [readersStep] at hstep
    split_ifs at hstep with hidle hzero
    · cases hstep
      exact h
    · split at hstep
      · cases hstep
        exact h
      · cases hstep
        exact h.of_eq (notifyUserRequest_dev _ _ _) (notifyUserRequest_copies _ _ _)
  | filled reader usbSubmitUrb =>
    simp only [readersStep] at hstep
    split at hstep
    · cases hstep
    · rename_i item hitem
      split_ifs at hstep
      cases hstep
      have hcleared : ({ s with evtFill := Function.update s.evtFill item.mIndex false } :
          Readers).Serial := h.of_eq rfl rfl
      exact serial_enter hcleared hok _ _ _
  | notFilled reader =>
    simp only [readersStep] at hstep
    split_ifs at hstep
    cases hstep
    exact h.leave reader .mem
  | readFromRingbuff reader n usbSubmitUrb =>
    simp only [readersStep] at hstep
    split_ifs at hstep
    · cases hstep
      exact h
    · cases hstep
      exact serial_enter h hok _ _ _
  | copy reader copied =>
    simp only [readersStep] at hstep
    split at hstep
    · cases hstep
    · rename_i c hc
      split_ifs at hstep with hnew
      cases hstep
      exact serial_copy h hc hnew.1 (hok c hc)
  | relock reader usbSubmitUrb =>
    simp only [readersStep] at hstep
    split at hstep
    · cases hstep
    · rename_i c hc
      split at hstep
      · cases hstep
      · rename_i copied hcopied
        have hserial := serial_relock h hc hcopied usbSubmitUrb
        split_ifs at hstep hserial
        · cases hstep
          exact hserial
        · cases hstep
          exact hserial

theorem handedOut_submitFrom (d : SQTIDevUSB) (is : List (Fin bulkUrbList)) :
    handedOut (d.submitFrom submitOk is).log = handedOut d.log := by
  induction is generalizing d with
  | nil => rfl
  | cons i is ih =>
    simp only [submitFrom]
    split_ifs
    · exact ih d
    · exact handedOut_resubmitBulkURB
    · rw [ih]
      exact handedOut_resubmitBulkURB

/-- The readers of a device just opened. -/
def openedReaders (d : SQTIDevUSB) : Readers where
  dev := d.submitAllReadUrb submitOk
  mpReadNotifyList := []
  evtFill := fun _ => false
  copies := fun _ => none

/-- Readers that do not overlap get each received byte once and in order. -/
theorem readers_delivered (d : SQTIDevUSB) (h : d.Opened) (ops : List ReadersOp)
    (hok : ∀ p ∈ readersStep.fires (openedReaders d) ops, p.2.Alone p.1) :
    ∀ s ∈ readersStep.visits (openedReaders d) ops, s.Delivered := by
  have hkept : Kept False [] [] (d.submitAllReadUrb submitOk) :=
    submitFrom_kept _ h.kept fun i _ => (h.idle i).1
  have hnone : handedOut (d.submitAllReadUrb submitOk).log = [] := by
    rw [submitAllReadUrb, handedOut_submitFrom, h.log]
    rfl
  have hstart : (openedReaders d).Serial := by
    refine ⟨⟨[], hnone.symm, hkept⟩, ?_, ?_⟩
    · intro reader c hc
      cases hc
    · intro reader other hne
      exact absurd rfl hne
  intro s hs
  exact (Machine.visits_all_of_fires (fun _ _ _ _ hserial halone hstep =>
    readersStep_serial hserial halone hstep) hstart hok s hs).delivered

/-- A callback that stores while an iterator reader copies. -/
theorem readers_delivered_beside :
    ∃ s ∈ readersStep.visits (openedReaders openedDevice)
      [.complete 0 0 [7, 8] submitOk, .readFromRingbuff 0 1 submitOk,
        .complete 1 0 [9] submitOk, .copy 0 1, .relock 0 submitOk],
      s.Delivered ∧ handedOut s.dev.log = [7] := by
  have hlast := List.getLast_mem (List.ne_nil_of_mem (Machine.start_mem_visits (M := readersStep)
    (openedReaders openedDevice)
    [.complete 0 0 [7, 8] submitOk, .readFromRingbuff 0 1 submitOk,
      .complete 1 0 [9] submitOk, .copy 0 1, .relock 0 submitOk]))
  refine ⟨_, hlast, ?_, by decide +kernel⟩
  refine readers_delivered openedDevice openedDevice_opened _ ?_ _ hlast
  refine Machine.forall_fires_cons (.inl fun _ => rfl) ?_
  refine Machine.forall_fires_cons (.inl fun _ => rfl) ?_
  refine Machine.forall_fires_cons (.inr ?_) ?_
  · rintro ⟨-, a, ha, -⟩
    exact absurd ha List.not_mem_nil
  refine Machine.forall_fires_cons (fun c hc => ?_) ?_
  · cases hc
    exact .inl rfl
  refine Machine.forall_fires_cons trivial ?_
  simp

/-- Two iterator readers that overlap get the same two bytes, and two others are skipped. -/
theorem readers_delivered_overlap :
    ¬ ∀ s ∈ readersStep.visits (openedReaders openedDevice)
      [.complete 0 0 [7, 8, 9, 10, 11] submitOk, .readFromRingbuff 0 2 submitOk,
        .readFromRingbuff 1 2 submitOk, .copy 0 2, .copy 1 2, .relock 0 submitOk,
        .relock 1 submitOk], s.Delivered := by
  intro hall
  have hlast := (hall _ (List.getLast_mem (List.ne_nil_of_mem (Machine.start_mem_visits _ _)))).once
  revert hlast
  decide +kernel

end QtiUsb
