-- SUMMARY: The circular read buffer of a qcom_usb device, and its refinement to a bounded FIFO.
import QcomUsb.Library.Memory
import QcomUsb.Library.Fifo

/-!
# The circular read buffer

`AddToReadMemList` stores the bytes a bulk URB brought in, `CopyFromReadMemList`
hands them to a reader. The two indices run from 0 to the buffer length inclusive.
Equal indices mean an empty or a full buffer, and `mBufEmptyStatus` tells which.
-/

namespace QtiUsb

open Memory Transition

/-- `QTIDEV_BULK_BUF_LEN`. -/
def qtidevBulkBufLen : Nat := 1024 * 1024 * 3

/-- `mReadBuffCircular`. The indices are `unsigned int`. No sum of two of them gets
near 2^32, so only the request size of a read is ever truncated. -/
structure SReadMemListCircular where
  mBulkInBuffer : Nat → UInt8
  mStartIdx : Nat
  mEndIdx : Nat
  mBufflen : Nat
  mBufEmptyStatus : Bool

/-- `ClearReadMemList`, as far as the circular buffer is concerned. -/
def clearReadMemList (r : SReadMemListCircular) : SReadMemListCircular where
  mBulkInBuffer := fun i => if i < qtidevBulkBufLen + 1024 then 0 else r.mBulkInBuffer i
  mStartIdx := 0
  mEndIdx := 0
  mBufflen := qtidevBulkBufLen
  mBufEmptyStatus := true

/-- `ReadBufferFreeSpace`. Equal indices on a non-empty buffer leave the initial 0. -/
def readBufferFreeSpace (r : SReadMemListCircular) : Nat :=
  if r.mBufEmptyStatus then qtidevBulkBufLen
  else if r.mStartIdx < r.mEndIdx then r.mBufflen - (r.mEndIdx - r.mStartIdx)
  else if r.mEndIdx < r.mStartIdx then r.mStartIdx - r.mEndIdx
  else 0

/-- `AddToReadMemList`: all of the data is stored, or none of it. -/
def addToReadMemList (r : SReadMemListCircular) (data : List UInt8) :
    Bool × SReadMemListCircular :=
  if r.mStartIdx ≤ r.mEndIdx then
    if r.mStartIdx = r.mEndIdx ∧ r.mBufEmptyStatus = false then (false, r)
    else if data.length ≤ r.mBufflen - (r.mEndIdx - r.mStartIdx) then
      let partialLen :=
        if data.length ≤ r.mBufflen - r.mEndIdx then data.length else r.mBufflen - r.mEndIdx
      let buf := copyIn r.mBulkInBuffer r.mEndIdx (data.take partialLen)
      if data.length ≠ partialLen then
        -- wrap around filling
        (true, { r with
          mBulkInBuffer := copyIn buf 0 (data.drop partialLen)
          mEndIdx := data.length - partialLen
          mBufEmptyStatus := false })
      else
        (true, { r with
          mBulkInBuffer := buf
          mEndIdx := r.mEndIdx + data.length
          mBufEmptyStatus := false })
    else (false, r)
  else if data.length ≤ r.mStartIdx - r.mEndIdx then
    (true, { r with
      mBulkInBuffer := copyIn r.mBulkInBuffer r.mEndIdx data
      mEndIdx := r.mEndIdx + data.length
      mBufEmptyStatus := false })
  else (false, r)

/-- `MoveDataToDestination`: true reports a failed copy. `copy` is the copy to the
reader, which is not tried for an empty block. -/
def moveDataToDestination (copy : List UInt8 → Bool) (block : List UInt8) : Bool :=
  if block.length = 0 then false else copy block

/-- `-EFAULT`. -/
def negEfault : Int := -14

/-- What `CopyFromReadMemList` leaves behind: the buffer, the return value,
`*pDataSize`, and the bytes moved to the reader. -/
structure CopyResult where
  ring : SReadMemListCircular
  ret : Int
  pDataSize : Nat
  moved : List UInt8

/-- `CopyFromReadMemList`, without the resubmission of pending URBs at its end. -/
def copyFromReadMemList (r : SReadMemListCircular) (pDataSize : Nat)
    (copy : List UInt8 → Bool) : CopyResult :=
  if r.mStartIdx < r.mEndIdx then
    if pDataSize < r.mEndIdx - r.mStartIdx then
      let block := slice r.mBulkInBuffer r.mStartIdx pDataSize
      if moveDataToDestination copy block then ⟨r, negEfault, pDataSize, []⟩
      else ⟨{ r with mStartIdx := r.mStartIdx + pDataSize }, 1, pDataSize, block⟩
    else
      let block := slice r.mBulkInBuffer r.mStartIdx (r.mEndIdx - r.mStartIdx)
      if moveDataToDestination copy block then ⟨r, negEfault, pDataSize, []⟩
      else
        ⟨{ r with mStartIdx := r.mEndIdx, mBufEmptyStatus := true }, 1,
          r.mEndIdx - r.mStartIdx, block⟩
  else if r.mBufEmptyStatus = false then
    if pDataSize ≤ r.mBufflen - r.mStartIdx then
      let block := slice r.mBulkInBuffer r.mStartIdx pDataSize
      if moveDataToDestination copy block then ⟨r, negEfault, pDataSize, []⟩
      else
        ⟨{ r with mStartIdx := (r.mStartIdx + pDataSize) % r.mBufflen }, 1, pDataSize, block⟩
    else
      let leg1 := r.mBufflen - r.mStartIdx
      let block1 := slice r.mBulkInBuffer r.mStartIdx leg1
      if moveDataToDestination copy block1 then ⟨r, negEfault, pDataSize, []⟩
      else
        -- an `unsigned int` taken from a `size_t`
        let leg2 := (pDataSize - leg1) % 2 ^ 32
        if leg2 < r.mEndIdx then
          let block2 := slice r.mBulkInBuffer 0 leg2
          if moveDataToDestination copy block2 then ⟨r, negEfault, pDataSize, block1⟩
          else ⟨{ r with mStartIdx := leg2 }, 1, pDataSize, block1 ++ block2⟩
        else
          -- return fewer or all bytes
          let block2 := slice r.mBulkInBuffer 0 r.mEndIdx
          if moveDataToDestination copy block2 then ⟨r, negEfault, pDataSize, block1⟩
          else
            ⟨{ r with mStartIdx := r.mEndIdx, mBufEmptyStatus := true }, 1,
              leg1 + r.mEndIdx, block1 ++ block2⟩
  else ⟨r, 0, pDataSize, []⟩

/-- A copy that never fails. -/
def copyOk : List UInt8 → Bool := fun _ => false

@[simp] theorem moveDataToDestination_copyOk (block : List UInt8) :
    moveDataToDestination copyOk block = false := by
  simp [moveDataToDestination, copyOk]

/-- A copy that fails leaves the buffer as it was, so the reader can ask again. -/
theorem copyFromReadMemList_fault {r : SReadMemListCircular} {n : Nat}
    {copy : List UInt8 → Bool} (h : (copyFromReadMemList r n copy).ret = negEfault) :
    (copyFromReadMemList r n copy).ring = r := by
  have hone : (1 : Int) ≠ negEfault := by decide
  revert h
  dsimp only [copyFromReadMemList]
  split_ifs <;> first | exact fun _ => rfl | exact fun h => absurd h hone

/-- A copy that does not fail behaves as one that never fails. -/
theorem copyFromReadMemList_copyOk {r : SReadMemListCircular} {n : Nat}
    {copy : List UInt8 → Bool} (h : (copyFromReadMemList r n copy).ret ≠ negEfault) :
    copyFromReadMemList r n copy = copyFromReadMemList r n copyOk := by
  revert h
  dsimp only [copyFromReadMemList]
  simp only [moveDataToDestination_copyOk, Bool.false_eq_true, if_false]
  split_ifs <;> first | exact fun _ => rfl | exact fun h => absurd rfl h

/-! ## What the buffer holds -/

namespace SReadMemListCircular

/-- The number of bytes stored. -/
def occupancy (r : SReadMemListCircular) : Nat :=
  if r.mBufEmptyStatus then 0
  else if r.mStartIdx < r.mEndIdx then r.mEndIdx - r.mStartIdx
  else r.mBufflen - r.mStartIdx + r.mEndIdx

/-- The bytes stored, oldest first. -/
def contents (r : SReadMemListCircular) : List UInt8 :=
  window r.mBulkInBuffer r.mBufflen r.mStartIdx r.occupancy

@[simp] theorem contents_length (r : SReadMemListCircular) :
    r.contents.length = r.occupancy := by
  simp [contents]

/-- The representation invariant. A non-empty buffer never ends at index 0, so the
second leg of a wrapped read is never empty by mistake. -/
structure Inv (r : SReadMemListCircular) : Prop where
  bufflen : r.mBufflen = qtidevBulkBufLen
  start_le : r.mStartIdx ≤ r.mBufflen
  end_le : r.mEndIdx ≤ r.mBufflen
  empty_eq : r.mBufEmptyStatus = true → r.mStartIdx = r.mEndIdx
  end_pos : r.mBufEmptyStatus = false → 0 < r.mEndIdx

namespace Inv

variable {r : SReadMemListCircular}

theorem bufflen_pos (h : r.Inv) : 0 < r.mBufflen := by
  rw [h.bufflen]
  decide

theorem of_start_ne_end (h : r.Inv) (hne : r.mStartIdx ≠ r.mEndIdx) :
    r.mBufEmptyStatus = false := by
  by_contra hs
  exact hne (h.empty_eq (by simpa using hs))

theorem occupancy_ahead (hs : r.mBufEmptyStatus = false) (hlt : r.mStartIdx < r.mEndIdx) :
    r.occupancy = r.mEndIdx - r.mStartIdx := by
  unfold occupancy
  simp [hs, hlt]

/-- Up to the end of the buffer the occupancy is the distance of the indices. -/
theorem occupancy_linear (h : r.Inv) (hle : r.mStartIdx ≤ r.mEndIdx)
    (hnf : ¬ (r.mStartIdx = r.mEndIdx ∧ r.mBufEmptyStatus = false)) :
    r.occupancy = r.mEndIdx - r.mStartIdx := by
  cases hs : r.mBufEmptyStatus with
  | true =>
    have := h.empty_eq hs
    unfold occupancy
    simp only [hs, if_true]
    omega
  | false =>
    have : r.mStartIdx ≠ r.mEndIdx := fun he => hnf ⟨he, hs⟩
    exact occupancy_ahead hs (by omega)

theorem occupancy_wrapped (hs : r.mBufEmptyStatus = false) (hle : r.mEndIdx ≤ r.mStartIdx) :
    r.occupancy = r.mBufflen - r.mStartIdx + r.mEndIdx := by
  unfold occupancy
  simp [hs, Nat.not_lt.mpr hle]

theorem occupancy_le (h : r.Inv) : r.occupancy ≤ r.mBufflen := by
  have := h.start_le
  have := h.end_le
  unfold occupancy
  split_ifs <;> omega

theorem occupancy_eq_zero (h : r.Inv) : r.mBufEmptyStatus = true ↔ r.occupancy = 0 := by
  unfold occupancy
  cases hs : r.mBufEmptyStatus with
  | true => simp
  | false =>
    have := h.end_pos hs
    simp only [Bool.false_eq_true, if_false, false_iff]
    split_ifs <;> omega

theorem readBufferFreeSpace_eq (h : r.Inv) :
    readBufferFreeSpace r = r.mBufflen - r.occupancy := by
  have := h.start_le
  have := h.end_le
  unfold readBufferFreeSpace occupancy
  rw [← h.bufflen]
  split_ifs <;> omega

end Inv

theorem clearReadMemList_inv (r : SReadMemListCircular) : (clearReadMemList r).Inv where
  bufflen := rfl
  start_le := Nat.zero_le _
  end_le := Nat.zero_le _
  empty_eq := fun _ => rfl
  end_pos := fun h => absurd h (by simp [clearReadMemList])

@[simp] theorem clearReadMemList_contents (r : SReadMemListCircular) :
    (clearReadMemList r).contents = [] := rfl

/-! ## Storing -/

/-- Cells written behind the window, the rest untouched. -/
theorem contents_store {r r' : SReadMemListCircular} {data : List UInt8}
    (hstart : r'.mStartIdx = r.mStartIdx) (hlen : r'.mBufflen = r.mBufflen)
    (hocc : r'.occupancy = r.occupancy + data.length)
    (hold : ∀ k, k < r.occupancy → r'.mBulkInBuffer ((r.mStartIdx + k) % r.mBufflen) =
      r.mBulkInBuffer ((r.mStartIdx + k) % r.mBufflen))
    (hnew : ∀ j (hj : j < data.length),
      r'.mBulkInBuffer ((r.mStartIdx + r.occupancy + j) % r.mBufflen) = data[j]) :
    r'.contents = r.contents ++ data := by
  rw [contents, hstart, hlen, hocc]
  exact window_extend hold hnew

/-- Data that fits before the end of the buffer. -/
theorem store_linear {r : SReadMemListCircular} {data : List UInt8} (h : r.Inv)
    (hd : 0 < data.length) (hle : r.mStartIdx ≤ r.mEndIdx)
    (hocc : r.occupancy = r.mEndIdx - r.mStartIdx)
    (hfit : data.length ≤ r.mBufflen - r.mEndIdx) :
    let r' := { r with
      mBulkInBuffer := copyIn r.mBulkInBuffer r.mEndIdx data
      mEndIdx := r.mEndIdx + data.length
      mBufEmptyStatus := false }
    r'.Inv ∧ r'.contents = r.contents ++ data := by
  intro r'
  have hstart := h.start_le
  have hend := h.end_le
  have hinv : r'.Inv := by
    refine ⟨h.bufflen, h.start_le, ?_, fun hs => absurd hs Bool.false_ne_true, fun _ => ?_⟩
    · change r.mEndIdx + data.length ≤ r.mBufflen
      omega
    · change 0 < r.mEndIdx + data.length
      omega
  have hocc' : r'.occupancy = r.occupancy + data.length := by
    have : r'.occupancy = r.mEndIdx + data.length - r.mStartIdx := by
      refine hinv.occupancy_linear ?_ ?_
      · change r.mStartIdx ≤ r.mEndIdx + data.length
        omega
      · rintro ⟨he, -⟩
        change r.mStartIdx = r.mEndIdx + data.length at he
        omega
    omega
  refine ⟨hinv, contents_store rfl rfl hocc' ?_ ?_⟩
  · intro k hk
    rw [Nat.mod_eq_of_lt (by omega)]
    exact copyIn_outside _ _ _ (by omega)
  · intro j hj
    rw [Nat.mod_eq_of_lt (by omega)]
    have hidx : r.mStartIdx + r.occupancy + j = r.mEndIdx + j := by omega
    rw [hidx]
    exact copyIn_inside _ _ _ hj

/-- Data that goes around the end of the buffer. -/
theorem store_around {r : SReadMemListCircular} {data : List UInt8} (h : r.Inv)
    (hle : r.mStartIdx ≤ r.mEndIdx) (hocc : r.occupancy = r.mEndIdx - r.mStartIdx)
    (hroom : data.length ≤ r.mBufflen - r.occupancy)
    (hover : r.mBufflen - r.mEndIdx < data.length) :
    let partialLen := r.mBufflen - r.mEndIdx
    let r' := { r with
      mBulkInBuffer :=
        copyIn (copyIn r.mBulkInBuffer r.mEndIdx (data.take partialLen)) 0 (data.drop partialLen)
      mEndIdx := data.length - partialLen
      mBufEmptyStatus := false }
    r'.Inv ∧ r'.contents = r.contents ++ data := by
  intro partialLen r'
  have hstart := h.start_le
  have hend := h.end_le
  have hlen := h.bufflen_pos
  have hp : partialLen = r.mBufflen - r.mEndIdx := rfl
  have hinv : r'.Inv := by
    refine ⟨h.bufflen, h.start_le, ?_, fun hs => absurd hs Bool.false_ne_true, fun _ => ?_⟩
    · change data.length - partialLen ≤ r.mBufflen
      omega
    · change 0 < data.length - partialLen
      omega
  have hocc' : r'.occupancy = r.occupancy + data.length := by
    have : r'.occupancy = r.mBufflen - r.mStartIdx + (data.length - partialLen) := by
      refine Inv.occupancy_wrapped rfl ?_
      change data.length - partialLen ≤ r.mStartIdx
      omega
    omega
  refine ⟨hinv, contents_store rfl rfl hocc' ?_ ?_⟩
  · intro k hk
    rw [Nat.mod_eq_of_lt (by omega)]
    calc copyIn (copyIn r.mBulkInBuffer r.mEndIdx (data.take partialLen)) 0
            (data.drop partialLen) (r.mStartIdx + k)
        = copyIn r.mBulkInBuffer r.mEndIdx (data.take partialLen) (r.mStartIdx + k) :=
          copyIn_outside _ _ _ (by rw [List.length_drop]; omega)
      _ = r.mBulkInBuffer (r.mStartIdx + k) := copyIn_outside _ _ _ (by omega)
  · intro j hj
    have hidx : r.mStartIdx + r.occupancy + j = r.mEndIdx + j := by omega
    rw [hidx, mod_of_lt_two_mul (by omega)]
    by_cases hj' : j < partialLen
    · -- the part before the end of the buffer
      have hjt : j < (data.take partialLen).length := by rw [List.length_take]; omega
      rw [if_pos (by omega)]
      calc copyIn (copyIn r.mBulkInBuffer r.mEndIdx (data.take partialLen)) 0
              (data.drop partialLen) (r.mEndIdx + j)
          = copyIn r.mBulkInBuffer r.mEndIdx (data.take partialLen) (r.mEndIdx + j) :=
            copyIn_outside _ _ _ (by rw [List.length_drop]; omega)
        _ = (data.take partialLen)[j] := copyIn_inside _ _ _ hjt
        _ = data[j] := List.getElem_take
    · -- the part from index 0 on
      have hjd : j - partialLen < (data.drop partialLen).length := by
        rw [List.length_drop]
        omega
      have hzero : r.mEndIdx + j - r.mBufflen = 0 + (j - partialLen) := by omega
      rw [if_neg (by omega), hzero]
      calc copyIn (copyIn r.mBulkInBuffer r.mEndIdx (data.take partialLen)) 0
              (data.drop partialLen) (0 + (j - partialLen))
          = (data.drop partialLen)[j - partialLen] := copyIn_inside _ _ _ hjd
        _ = data[partialLen + (j - partialLen)] := List.getElem_drop
        _ = data[j] := by congr 1; omega

/-- Data that goes between a wrapped end and the start. -/
theorem store_wrapped {r : SReadMemListCircular} {data : List UInt8} (h : r.Inv)
    (hlt : r.mEndIdx < r.mStartIdx) (hfit : data.length ≤ r.mStartIdx - r.mEndIdx) :
    let r' := { r with
      mBulkInBuffer := copyIn r.mBulkInBuffer r.mEndIdx data
      mEndIdx := r.mEndIdx + data.length
      mBufEmptyStatus := false }
    r'.Inv ∧ r'.contents = r.contents ++ data := by
  intro r'
  have hstart := h.start_le
  have hs : r.mBufEmptyStatus = false := h.of_start_ne_end (by omega)
  have hpos := h.end_pos hs
  have hocc := Inv.occupancy_wrapped hs (Nat.le_of_lt hlt)
  have hinv : r'.Inv := by
    refine ⟨h.bufflen, h.start_le, ?_, fun hs => absurd hs Bool.false_ne_true, fun _ => ?_⟩
    · change r.mEndIdx + data.length ≤ r.mBufflen
      omega
    · change 0 < r.mEndIdx + data.length
      omega
  have hocc' : r'.occupancy = r.occupancy + data.length := by
    have : r'.occupancy = r.mBufflen - r.mStartIdx + (r.mEndIdx + data.length) := by
      refine Inv.occupancy_wrapped rfl ?_
      change r.mEndIdx + data.length ≤ r.mStartIdx
      omega
    omega
  refine ⟨hinv, contents_store rfl rfl hocc' ?_ ?_⟩
  · intro k hk
    rw [mod_of_lt_two_mul (by omega)]
    refine copyIn_outside _ _ _ ?_
    split_ifs <;> omega
  · intro j hj
    have hidx : r.mStartIdx + r.occupancy + j - r.mBufflen = r.mEndIdx + j := by omega
    rw [mod_of_lt_two_mul (by omega), if_neg (by omega), hidx]
    exact copyIn_inside _ _ _ hj

end SReadMemListCircular

open SReadMemListCircular

/-- Data that does not fit is refused and changes nothing. -/
theorem addToReadMemList_refuse {r : SReadMemListCircular} {data : List UInt8} (h : r.Inv)
    (hfull : r.mBufflen - r.occupancy < data.length) :
    addToReadMemList r data = (false, r) := by
  have hstart := h.start_le
  have hend := h.end_le
  unfold addToReadMemList
  by_cases hle : r.mStartIdx ≤ r.mEndIdx
  · rw [if_pos hle]
    by_cases hf : r.mStartIdx = r.mEndIdx ∧ r.mBufEmptyStatus = false
    · rw [if_pos hf]
    · have hocc := h.occupancy_linear hle hf
      rw [if_neg hf, if_neg (by omega)]
  · have hs : r.mBufEmptyStatus = false := h.of_start_ne_end (by omega)
    have hocc := Inv.occupancy_wrapped hs (by omega)
    rw [if_neg hle, if_neg (by omega)]

/-- Data that fits is appended. -/
theorem addToReadMemList_accept {r : SReadMemListCircular} {data : List UInt8} (h : r.Inv)
    (hd : 0 < data.length) (hroom : data.length ≤ r.mBufflen - r.occupancy) :
    ∃ r', addToReadMemList r data = (true, r') ∧ r'.Inv ∧ r'.contents = r.contents ++ data := by
  have hstart := h.start_le
  have hend := h.end_le
  have hlen := h.bufflen_pos
  unfold addToReadMemList
  by_cases hle : r.mStartIdx ≤ r.mEndIdx
  · have hf : ¬ (r.mStartIdx = r.mEndIdx ∧ r.mBufEmptyStatus = false) := by
      rintro ⟨he, hs⟩
      have := Inv.occupancy_wrapped hs (Nat.le_of_eq he.symm)
      omega
    have hocc := h.occupancy_linear hle hf
    rw [if_pos hle, if_neg hf, if_pos (by omega)]
    by_cases hfit : data.length ≤ r.mBufflen - r.mEndIdx
    · simp only [hfit, if_true, List.take_length, ne_eq, not_true_eq_false, if_false]
      exact ⟨_, rfl, store_linear h hd hle hocc hfit⟩
    · have hne : data.length ≠ r.mBufflen - r.mEndIdx := by omega
      simp only [hfit, if_false, hne, ne_eq, not_false_eq_true, if_true]
      exact ⟨_, rfl, store_around h hle hocc hroom (by omega)⟩
  · have hs : r.mBufEmptyStatus = false := h.of_start_ne_end (by omega)
    have hocc := Inv.occupancy_wrapped hs (by omega)
    rw [if_neg hle, if_pos (by omega)]
    exact ⟨_, rfl, store_wrapped h (by omega) (by omega)⟩

/-! ## Reading -/

/-- The start moves on by `m` bytes, everything else stays. -/
theorem contents_advance {r r' : SReadMemListCircular} {m : Nat}
    (hbuf : r'.mBulkInBuffer = r.mBulkInBuffer) (hlen : r'.mBufflen = r.mBufflen)
    (hm : m ≤ r.occupancy) (hstart : r'.mStartIdx % r.mBufflen = (r.mStartIdx + m) % r.mBufflen)
    (hocc : r'.occupancy = r.occupancy - m) : r'.contents = r.contents.drop m := by
  calc r'.contents
      = window r.mBulkInBuffer r.mBufflen r'.mStartIdx (r.occupancy - m) := by
        rw [contents, hbuf, hlen, hocc]
    _ = window r.mBulkInBuffer r.mBufflen (r.mStartIdx + m) (r.occupancy - m) := by
        rw [← window_mod, hstart, window_mod]
    _ = r.contents.drop m := (window_drop _ _ _ hm).symm

/-- One leg: the block ends before the buffer does. -/
theorem contents_take_linear {r : SReadMemListCircular} {m : Nat} (hm : m ≤ r.occupancy)
    (hfit : r.mStartIdx + m ≤ r.mBufflen) :
    slice r.mBulkInBuffer r.mStartIdx m = r.contents.take m := by
  rw [contents, window_take _ _ _ hm, window_eq_slice _ hfit]

/-- Two legs: the second one starts over at index 0. -/
theorem contents_take_around {r : SReadMemListCircular} {m : Nat}
    (hm : r.mBufflen - r.mStartIdx + m ≤ r.occupancy) (hstart : r.mStartIdx ≤ r.mBufflen)
    (hfit : m ≤ r.mBufflen) :
    slice r.mBulkInBuffer r.mStartIdx (r.mBufflen - r.mStartIdx) ++ slice r.mBulkInBuffer 0 m =
      r.contents.take (r.mBufflen - r.mStartIdx + m) := by
  have hback : r.mStartIdx + (r.mBufflen - r.mStartIdx) = r.mBufflen := by omega
  have hturn : window r.mBulkInBuffer r.mBufflen r.mBufflen m = slice r.mBulkInBuffer 0 m := by
    calc window r.mBulkInBuffer r.mBufflen r.mBufflen m
        = window r.mBulkInBuffer r.mBufflen (0 + r.mBufflen) m := by rw [Nat.zero_add]
      _ = window r.mBulkInBuffer r.mBufflen 0 m := window_add_size _ _ _ _
      _ = slice r.mBulkInBuffer 0 m := window_eq_slice _ (by omega)
  rw [contents, window_take _ _ _ hm, window_add, hback, hturn,
    window_eq_slice _ (Nat.le_of_eq hback)]

/-- What a read of `n` bytes does to a buffer. -/
structure CopySpec (r : SReadMemListCircular) (n : Nat) (res : CopyResult) : Prop where
  inv : res.ring.Inv
  moved : res.moved = r.contents.take n
  rest : res.ring.contents = r.contents.drop n
  ret : res.ret = if r.occupancy = 0 then 0 else 1
  pDataSize : r.occupancy ≠ 0 → res.pDataSize = min n r.occupancy

theorem occupancy_restart_ahead {r : SReadMemListCircular} {start : Nat}
    (hs : r.mBufEmptyStatus = false) (hlt : start < r.mEndIdx) :
    { r with mStartIdx := start }.occupancy = r.mEndIdx - start :=
  Inv.occupancy_ahead (r := { r with mStartIdx := start }) hs hlt

theorem occupancy_restart_wrapped {r : SReadMemListCircular} {start : Nat}
    (hs : r.mBufEmptyStatus = false) (hle : r.mEndIdx ≤ start) :
    { r with mStartIdx := start }.occupancy = r.mBufflen - start + r.mEndIdx :=
  Inv.occupancy_wrapped (r := { r with mStartIdx := start }) hs hle

/-- A read that takes only a part of the contents. -/
theorem CopySpec.part {r : SReadMemListCircular} {n start : Nat} {block : List UInt8}
    (h : r.Inv) (hn : n < r.occupancy) (hle : start ≤ r.mBufflen)
    (hstart : start % r.mBufflen = (r.mStartIdx + n) % r.mBufflen)
    (hocc : { r with mStartIdx := start }.occupancy = r.occupancy - n)
    (hblock : block = r.contents.take n) :
    CopySpec r n ⟨{ r with mStartIdx := start }, 1, n, block⟩ where
  inv := by
    refine ⟨h.bufflen, hle, h.end_le, fun hs => ?_, h.end_pos⟩
    have hz := h.occupancy_eq_zero.mp hs
    omega
  moved := hblock
  rest := contents_advance rfl rfl (Nat.le_of_lt hn) hstart hocc
  ret := by rw [if_neg (by omega)]
  pDataSize := fun _ => (Nat.min_eq_left (Nat.le_of_lt hn)).symm

/-- A read that empties the buffer. -/
theorem CopySpec.all {r : SReadMemListCircular} {n m : Nat} {block : List UInt8}
    (h : r.Inv) (hpos : r.occupancy ≠ 0) (hn : r.occupancy ≤ n) (hm : m = r.occupancy)
    (hblock : block = r.contents.take m) :
    CopySpec r n ⟨{ r with mStartIdx := r.mEndIdx, mBufEmptyStatus := true }, 1, m, block⟩ where
  inv := ⟨h.bufflen, h.end_le, h.end_le, fun _ => rfl, fun hs => absurd hs (by simp)⟩
  moved := by
    have hlen := r.contents_length
    rw [hblock, List.take_of_length_le (by omega), List.take_of_length_le (by omega)]
  rest := by
    have hlen := r.contents_length
    rw [List.drop_eq_nil_of_le (by omega)]
    rfl
  ret := by rw [if_neg hpos]
  pDataSize := fun _ => by rw [hm, Nat.min_eq_right hn]

/-- A read takes the oldest bytes. The request fits an `unsigned int`: the kernel cuts
every read off at `MAX_RW_COUNT`, which is below 2^31. -/
theorem copyFromReadMemList_spec {r : SReadMemListCircular} {n : Nat} (h : r.Inv)
    (hn32 : n < 2 ^ 32) : CopySpec r n (copyFromReadMemList r n copyOk) := by
  have hstart := h.start_le
  have hend := h.end_le
  have hlen := h.bufflen_pos
  unfold copyFromReadMemList
  simp only [moveDataToDestination_copyOk, Bool.false_eq_true, if_false]
  by_cases hlt : r.mStartIdx < r.mEndIdx
  · rw [if_pos hlt]
    have hocc := h.occupancy_linear (Nat.le_of_lt hlt) (by omega)
    by_cases hpart : n < r.mEndIdx - r.mStartIdx
    · rw [if_pos hpart]
      have hs : r.mBufEmptyStatus = false := h.of_start_ne_end (Nat.ne_of_lt hlt)
      refine CopySpec.part h (by omega) (by omega) rfl ?_ ?_
      · rw [occupancy_restart_ahead hs (by omega), hocc]
        omega
      · exact contents_take_linear (by omega) (by omega)
    · rw [if_neg hpart]
      refine CopySpec.all h (by omega) (by omega) hocc.symm ?_
      exact contents_take_linear (by omega) (by omega)
  · rw [if_neg hlt]
    by_cases hs : r.mBufEmptyStatus = false
    · have hpos := h.end_pos hs
      have hocc := Inv.occupancy_wrapped hs (Nat.le_of_not_lt hlt)
      rw [if_pos hs]
      by_cases hpart : n ≤ r.mBufflen - r.mStartIdx
      · rw [if_pos hpart]
        refine CopySpec.part h (by omega) (Nat.mod_lt _ hlen).le (Nat.mod_mod _ _) ?_ ?_
        · -- a read up to the very end of the buffer starts over at index 0
          rcases Nat.lt_or_eq_of_le hpart with hin | hedge
          · have hmod : (r.mStartIdx + n) % r.mBufflen = r.mStartIdx + n :=
              Nat.mod_eq_of_lt (by omega)
            rw [hmod, occupancy_restart_wrapped hs (by omega), hocc]
            omega
          · have hmod : (r.mStartIdx + n) % r.mBufflen = 0 := by
              have : r.mStartIdx + n = r.mBufflen := by omega
              rw [this, Nat.mod_self]
            rw [hmod, occupancy_restart_ahead hs hpos, hocc]
            omega
        · exact contents_take_linear (by omega) (by omega)
      · rw [if_neg hpart]
        have hleg : (n - (r.mBufflen - r.mStartIdx)) % 2 ^ 32 = n - (r.mBufflen - r.mStartIdx) :=
          Nat.mod_eq_of_lt (by omega)
        have hsum : r.mBufflen - r.mStartIdx + (n - (r.mBufflen - r.mStartIdx)) = n := by omega
        simp only [hleg]
        by_cases hrest : n - (r.mBufflen - r.mStartIdx) < r.mEndIdx
        · rw [if_pos hrest]
          refine CopySpec.part h (by omega) (by omega) ?_ ?_ ?_
          · have : r.mStartIdx + n = n - (r.mBufflen - r.mStartIdx) + r.mBufflen := by omega
            rw [this, Nat.add_mod_right]
          · rw [occupancy_restart_ahead hs hrest, hocc]
            omega
          · rw [contents_take_around (by omega) hstart (by omega), hsum]
        · rw [if_neg hrest]
          refine CopySpec.all h (by omega) (by omega) hocc.symm ?_
          exact contents_take_around (by omega) hstart hend
    · have hz : r.occupancy = 0 := h.occupancy_eq_zero.mp (by simpa using hs)
      have hnil : r.contents = [] := List.eq_nil_of_length_eq_zero (by simpa using hz)
      rw [if_neg hs]
      exact ⟨h, by simp [hnil], by simp [hnil], by rw [if_pos hz], fun hne => absurd hz hne⟩

/-! ## Refinement -/

open BoundedFifo

/-- The buffer as a machine: adds and successful reads, one at a time. -/
def readMemListStep : Machine SReadMemListCircular (Op UInt8) (Out UInt8)
  | r, .push data => some ((addToReadMemList r data).2, .pushed (addToReadMemList r data).1)
  | r, .pop n =>
    some ((copyFromReadMemList r n copyOk).ring, .popped (copyFromReadMemList r n copyOk).moved)

/-- The requests the buffer gets. A URB that brought nothing is not stored, and a read
asks for at least one byte and less than 2^32. -/
def Request : Op UInt8 → Prop
  | .push data => data ≠ []
  | .pop n => 1 ≤ n ∧ n < 2 ^ 32

/-- The buffer `r` stands for the queue `q`. -/
def Represents (r : SReadMemListCircular) (q : List UInt8) : Prop := r.Inv ∧ r.contents = q

/-- One operation on the buffer is one operation on the queue. -/
theorem readMemListStep_refines {r : SReadMemListCircular} {q : List UInt8} {op : Op UInt8}
    (h : Represents r q) (hop : Request op) :
    ∃ r' q' out, readMemListStep r op = some (r', out) ∧
      BoundedFifo.step qtidevBulkBufLen q op = some (q', out) ∧ Represents r' q' := by
  obtain ⟨hinv, rfl⟩ := h
  have hcap : r.mBufflen = qtidevBulkBufLen := hinv.bufflen
  have hle := hinv.occupancy_le
  cases op with
  | push data =>
    have hd : 0 < data.length := List.length_pos_iff.mpr hop
    by_cases hroom : data.length ≤ r.mBufflen - r.occupancy
    · obtain ⟨r', hadd, hinv', hcont⟩ := addToReadMemList_accept hinv hd hroom
      refine ⟨r', r.contents ++ data, .pushed true, ?_, ?_, hinv', hcont⟩
      · simp [readMemListStep, hadd]
      · rw [BoundedFifo.step, contents_length, if_pos (by omega)]
    · have hadd := addToReadMemList_refuse hinv (by omega : r.mBufflen - r.occupancy < data.length)
      refine ⟨r, r.contents, .pushed false, ?_, ?_, hinv, rfl⟩
      · simp [readMemListStep, hadd]
      · rw [BoundedFifo.step, contents_length, if_neg (by omega)]
  | pop n =>
    obtain ⟨hn, hn32⟩ := hop
    have hspec := copyFromReadMemList_spec hinv hn32
    refine ⟨_, r.contents.drop n, .popped (r.contents.take n), ?_, rfl, hspec.inv, hspec.rest⟩
    rw [readMemListStep, hspec.moved]

/-- What holds of the buffer once `accepted` went in and `returned` came out. The
occupancy is the difference of the two lengths. -/
structure FifoView (r : SReadMemListCircular) (accepted returned : List UInt8) : Prop where
  start_le : r.mStartIdx ≤ qtidevBulkBufLen
  end_le : r.mEndIdx ≤ qtidevBulkBufLen
  in_order : returned <+: accepted
  read_bytes : ∀ n, 1 ≤ n → n < 2 ^ 32 →
    (copyFromReadMemList r n copyOk).moved = (accepted.drop returned.length).take n
  read_length : ∀ n, 1 ≤ n → n < 2 ^ 32 →
    (copyFromReadMemList r n copyOk).moved.length = min n (accepted.length - returned.length)
  read_size : ∀ n, 1 ≤ n → n < 2 ^ 32 → accepted.length - returned.length ≠ 0 →
    (copyFromReadMemList r n copyOk).ret = 1 ∧
      (copyFromReadMemList r n copyOk).pDataSize = min n (accepted.length - returned.length)
  add_iff : ∀ data, data ≠ [] → ((addToReadMemList r data).1 = true ↔
    data.length ≤ qtidevBulkBufLen - (accepted.length - returned.length))
  add_unchanged : ∀ data, data ≠ [] → (addToReadMemList r data).1 = false →
    (addToReadMemList r data).2 = r
  empty_iff : r.mBufEmptyStatus = true ↔ accepted.length - returned.length = 0
  free_space : readBufferFreeSpace r = qtidevBulkBufLen - (accepted.length - returned.length)

theorem Represents.view {r : SReadMemListCircular} {accepted returned q : List UInt8}
    (h : Represents r q) (hq : accepted = returned ++ q) : FifoView r accepted returned := by
  obtain ⟨hinv, rfl⟩ := h
  subst hq
  have hocc : (returned ++ r.contents).length - returned.length = r.occupancy := by simp
  have hcap : r.mBufflen = qtidevBulkBufLen := hinv.bufflen
  have hread {n : Nat} (hn32 : n < 2 ^ 32) := copyFromReadMemList_spec hinv hn32
  have hsplit {data : List UInt8} (hd : data ≠ []) :
      (data.length ≤ r.mBufflen - r.occupancy ∧ (addToReadMemList r data).1 = true) ∨
      (¬ data.length ≤ r.mBufflen - r.occupancy ∧ addToReadMemList r data = (false, r)) := by
    by_cases hroom : data.length ≤ r.mBufflen - r.occupancy
    · obtain ⟨r', hadd, -⟩ := addToReadMemList_accept hinv (List.length_pos_iff.mpr hd) hroom
      exact .inl ⟨hroom, by rw [hadd]⟩
    · exact .inr ⟨hroom, addToReadMemList_refuse hinv (by omega)⟩
  refine ⟨hcap ▸ hinv.start_le, hcap ▸ hinv.end_le, List.prefix_append _ _, ?_, ?_, ?_, ?_, ?_,
    ?_, ?_⟩
  · intro n hn hn32
    rw [(hread hn32).moved, List.drop_left]
  · intro n hn hn32
    rw [(hread hn32).moved, hocc, List.length_take, contents_length]
  · intro n hn hn32 hpos
    rw [hocc] at hpos ⊢
    refine ⟨?_, (hread hn32).pDataSize hpos⟩
    rw [(hread hn32).ret, if_neg hpos]
  · intro data hd
    rw [hocc, ← hcap]
    rcases hsplit hd with ⟨hroom, hadd⟩ | ⟨hroom, hadd⟩
    · simp [hroom, hadd]
    · simp [hroom, hadd]
  · intro data hd hfail
    rcases hsplit hd with ⟨-, hadd⟩ | ⟨-, hadd⟩
    · rw [hadd] at hfail
      cases hfail
    · rw [hadd]
  · rw [hocc]
    exact hinv.occupancy_eq_zero
  · rw [hocc, ← hcap]
    exact hinv.readBufferFreeSpace_eq

/-- The circular buffer is a bounded FIFO: after any sequence of adds and reads the
bytes returned are the bytes accepted, in order, and the next add or read behaves as
the number of bytes still inside says. -/
theorem readMemList_bounded_fifo (r₀ : SReadMemListCircular) (ops : List (Op UInt8))
    (hops : ∀ op ∈ ops, Request op) :
    ∃ r outs, readMemListStep.run (clearReadMemList r₀) ops = some (r, outs) ∧
      FifoView r (accepted ops outs) (returned outs) := by
  have hclear : Represents (clearReadMemList r₀) [] :=
    ⟨clearReadMemList_inv r₀, clearReadMemList_contents r₀⟩
  have hstep : ∀ r q op, Represents r q → Request op → ∃ r' q' out,
      readMemListStep r op = some (r', out) ∧
        BoundedFifo.step qtidevBulkBufLen q op = some (q', out) ∧ Represents r' q' := by
    intro r q op h hop
    exact readMemListStep_refines h hop
  obtain ⟨r, q, outs, hrun, hfifo, hrep⟩ := Machine.run_simulation hstep hclear hops
  have hq : accepted ops outs = returned outs ++ q := run_conserves hfifo
  exact ⟨r, outs, hrun, hrep.view hq⟩

theorem readMemList_bounded_fifo_wrap :
    ∃ r outs, readMemListStep.run (clearReadMemList ⟨fun _ => 0, 7, 7, 0, false⟩)
        [.push [1, 2, 3], .pop 2, .push [4], .pop 9] = some (r, outs) ∧
      FifoView r (accepted [.push [1, 2, 3], .pop 2, .push [4], .pop 9] outs) (returned outs) :=
  readMemList_bounded_fifo _ _ (by simp [Request])

end QtiUsb
