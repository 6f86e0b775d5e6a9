-- SUMMARY: The ring buffer under any operations is a queue, and when the scan finds the event character in it.
import QcomUsb.WdfSerial.RingBuffer
import QcomUsb.Library.Fifo

/-!
# The event character

`QCRD_ScanForWaitMask` looks for `ucEventChar` among the unread bytes of the ring buffer. It
reads them into a `CHAR`, which is signed, and compares that with a `UCHAR`.
-/

namespace WdfSerial

open Memory Transition BoundedFifo

/-- `SERIAL_EV_RXCHAR`. -/
def serialEvRxchar : UInt16 := 0x0001

/-- `SERIAL_EV_RXFLAG`. -/
def serialEvRxflag : UInt16 := 0x0002

namespace RingBuffer

/-- `QCUTIL_RingBufferReadByte`. -/
def readByte (r : RingBuffer) (offset : Nat) : Option UInt8 :=
  if r.bytesUsed ≤ offset then none
  else some (r.pBuffer ((r.readHead + offset) % r.capacity))

theorem lt_of_readByte {r : RingBuffer} {offset : Nat} {out : UInt8}
    (h : r.readByte offset = some out) : offset < r.bytesUsed := by
  unfold readByte at h
  split at h
  · cases h
  · omega

/-- The operations on the buffer, as a machine. -/
def step : Machine RingBuffer (ResetOp UInt8) (Option (Out UInt8))
  | r, .op (.push source) => some ((r.write source).2, some (.pushed (r.write source).1))
  | r, .op (.pop readLength) => some ((r.read readLength).2, some (.popped (r.read readLength).1))
  | r, .reset => some (r.clear, none)

end RingBuffer

/-- `output == ucEventChar`: both sides are promoted to `int`. -/
def charEq (output ucEventChar : UInt8) : Bool := output.toInt8.toInt = ucEventChar.toNat

/-- The loop of `QCRD_ScanForWaitMask`, from an offset on. -/
def findEventChar (r : RingBuffer) (ucEventChar : UInt8) (offset : Nat) : Bool :=
  match h : r.readByte offset with
  | none => false
  | some output => charEq output ucEventChar || findEventChar r ucEventChar (offset + 1)
termination_by r.bytesUsed - offset
decreasing_by
  have hlt := RingBuffer.lt_of_readByte h
  omega

/-- The new state `QCRD_ScanForWaitMask` hands to `QCSER_ProcessNewUartState`. -/
def scanForWaitMask (r : RingBuffer) (ucEventChar : UInt8) (ulWaitMask : UInt32) : UInt16 :=
  if 0 < r.bytesUsed then
    (if ulWaitMask &&& serialEvRxchar.toUInt32 ≠ 0 then serialEvRxchar else 0) |||
      (if ulWaitMask &&& serialEvRxflag.toUInt32 ≠ 0 ∧ ucEventChar ≠ 0 ∧
          findEventChar r ucEventChar 0 then serialEvRxflag else 0)
  else 0

/-! ## The buffer is a queue -/

namespace RingBuffer

variable {r : RingBuffer}

/-- `QCUTIL_RingBufferReadByte` reads the unread bytes in order. -/
theorem readByte_eq (r : RingBuffer) (offset : Nat) : r.readByte offset = r.contents[offset]? := by
  unfold readByte
  split
  · rename_i hle
    rw [List.getElem?_eq_none (by simpa using hle)]
  · rename_i hlt
    simp [contents, window, List.getElem?_range (Nat.not_le.mp hlt)]

/-- The used and the free bytes are the capacity asked for. -/
theorem Inv.used_add_free (h : r.Inv) {c : Nat} (hcap : r.capacity = c + 1) :
    r.bytesUsed + r.bytesFree = c := by
  have hlt := h.bytesUsed_lt
  unfold bytesFree
  omega

/-- The buffer `r` of `c` bytes stands for the queue `q`. -/
structure StandsFor (c : Nat) (r : RingBuffer) (q : List UInt8) : Prop where
  inv : r.Inv
  capacity : r.capacity = c + 1
  contents : r.contents = q

theorem init_standsFor (pBuffer : Nat → UInt8) (c : Nat) :
    StandsFor c (init pBuffer c) [] :=
  ⟨init_inv pBuffer c, rfl, contents_init pBuffer c⟩

/-- One operation on the buffer is one operation on the queue. -/
theorem StandsFor.step {c : Nat} {q : List UInt8} (h : StandsFor c r q) (op : ResetOp UInt8) :
    ∃ r' q' out, RingBuffer.step r op = some (r', out) ∧ resetStep c q op = some (q', out) ∧
      StandsFor c r' q' := by
  obtain ⟨hinv, hcap, rfl⟩ := h
  have hspace := hinv.used_add_free hcap
  cases op with
  | op op =>
    cases op with
    | push source =>
      by_cases hfit : source.length ≤ r.bytesFree
      · obtain ⟨hok, hinv', hcont, hcap'⟩ := hinv.write_eq hfit
        refine ⟨_, r.contents ++ source, some (.pushed true), ?_, ?_, hinv', hcap'.trans hcap,
          hcont⟩
        · rw [RingBuffer.step, hok]
        · have hroom : r.contents.length + source.length ≤ c := by
            rw [contents_length]
            omega
          simp only [resetStep, BoundedFifo.step, if_pos hroom, Option.map_some]
      · have hfull := write_eq_false (r := r) (Nat.not_le.mp hfit)
        refine ⟨r, r.contents, some (.pushed false), ?_, ?_, hinv, hcap, rfl⟩
        · rw [RingBuffer.step, hfull]
        · have hroom : ¬r.contents.length + source.length ≤ c := by
            rw [contents_length]
            omega
          simp only [resetStep, BoundedFifo.step, if_neg hroom, Option.map_some]
    | pop readLength =>
      obtain ⟨hbytes, hinv', hcont, hcap'⟩ := hinv.read_eq readLength
      refine ⟨_, r.contents.drop readLength, some (.popped (r.contents.take readLength)), ?_, rfl,
        hinv', hcap'.trans hcap, hcont⟩
      rw [RingBuffer.step, hbytes]
  | reset => exact ⟨r.clear, [], none, rfl, rfl, hinv.clear, hcap, contents_clear r⟩

/-- Any operations on a new buffer answer what they answer on an empty queue. -/
theorem run_init (pBuffer : Nat → UInt8) (c : Nat) (ops : List (ResetOp UInt8)) :
    ∃ r outs, RingBuffer.step.run (init pBuffer c) ops = some (r, outs) ∧
      (resetStep c).run [] ops = some (held c ops, outs) ∧ StandsFor c r (held c ops) := by
  have hstep : ∀ r q op, StandsFor c r q → op ∈ ops → ∃ r' q' out,
      RingBuffer.step r op = some (r', out) ∧ resetStep c q op = some (q', out) ∧
        StandsFor c r' q' :=
    fun _ _ op h _ => h.step op
  obtain ⟨r, q, outs, hrun, hqueue, hstands⟩ :=
    Machine.run_simulation hstep (init_standsFor pBuffer c) fun _ hop => hop
  rw [held_eq hqueue]
  exact ⟨r, outs, hrun, hqueue, hstands⟩

end RingBuffer

/-! ## The scan -/

/-- A signed character has the value of the byte below `0x80`, and is negative from there on. -/
theorem toInt_toInt8 (output : UInt8) :
    output.toInt8.toInt =
      if output.toNat < 0x80 then (output.toNat : Int) else output.toNat - 256 := by
  change output.toBitVec.toInt = _
  rw [BitVec.toInt_eq_toNat_cond]
  change (if 2 * output.toNat < 256 then (output.toNat : Int) else output.toNat - 256) = _
  have hhalf : 2 * output.toNat < 256 ↔ output.toNat < 0x80 := by omega
  simp only [hhalf]

/-- The comparison holds only below `0x80`, where both promotions agree. -/
theorem charEq_iff (output ucEventChar : UInt8) :
    charEq output ucEventChar ↔ output = ucEventChar ∧ ucEventChar < 0x80 := by
  have hlow : ucEventChar < 0x80 ↔ ucEventChar.toNat < 0x80 := UInt8.lt_iff_toNat_lt
  have hlt := output.toNat_lt
  rw [charEq, decide_eq_true_eq, toInt_toInt8, hlow, ← UInt8.toNat_inj]
  split <;> omega

/-- The loop compares the event character with every unread byte from its offset on. -/
theorem findEventChar_eq (r : RingBuffer) (ucEventChar : UInt8) (offset : Nat) :
    findEventChar r ucEventChar offset =
      (r.contents.drop offset).any fun output => charEq output ucEventChar := by
  fun_induction findEventChar r ucEventChar offset with
  | case1 offset hnone =>
    rw [RingBuffer.readByte_eq] at hnone
    rw [List.drop_eq_nil_of_le (List.getElem?_eq_none_iff.mp hnone)]
    rfl
  | case2 offset output hsome ih =>
    rw [RingBuffer.readByte_eq] at hsome
    obtain ⟨hlt, hget⟩ := List.getElem?_eq_some_iff.mp hsome
    rw [ih, List.drop_eq_getElem_cons hlt, List.any_cons, hget]

theorem findEventChar_iff (r : RingBuffer) (ucEventChar : UInt8) :
    findEventChar r ucEventChar 0 ↔ ucEventChar ∈ r.contents ∧ ucEventChar < 0x80 := by
  rw [findEventChar_eq, List.drop_zero, List.any_eq_true]
  constructor
  · rintro ⟨output, hmem, heq⟩
    obtain ⟨rfl, hlow⟩ := (charEq_iff output ucEventChar).mp heq
    exact ⟨hmem, hlow⟩
  · rintro ⟨hmem, hlow⟩
    exact ⟨ucEventChar, hmem, (charEq_iff _ _).mpr ⟨rfl, hlow⟩⟩

/-- The scan reports the event character. -/
def ReportsRxflag (state : UInt16) : Prop := state &&& serialEvRxflag ≠ 0

/-- With the event in the mask, the scan reports a character below `0x80` that is unread, and
no other. -/
theorem scanForWaitMask_iff (r : RingBuffer) {ucEventChar : UInt8} {ulWaitMask : UInt32}
    (hchar : ucEventChar ≠ 0) (hmask : ulWaitMask &&& serialEvRxflag.toUInt32 ≠ 0) :
    ReportsRxflag (scanForWaitMask r ucEventChar ulWaitMask) ↔
      ucEventChar ∈ r.contents ∧ ucEventChar < 0x80 := by
  unfold scanForWaitMask
  by_cases hused : 0 < r.bytesUsed
  · simp only [hused, hmask, hchar, ne_eq, not_false_eq_true, true_and, if_true,
      findEventChar_iff]
    unfold ReportsRxflag
    by_cases hfound : ucEventChar ∈ r.contents ∧ ucEventChar < 0x80
    · rw [if_pos hfound]
      refine iff_of_true ?_ hfound
      split <;> decide
    · rw [if_neg hfound]
      refine iff_of_false ?_ hfound
      split <;> decide
  · have hnil : r.contents = [] := by
      apply List.eq_nil_of_length_eq_zero
      rw [RingBuffer.contents_length]
      omega
    simp [hused, hnil, ReportsRxflag]

/-! ## The buffer and its scan together -/

/-- What the readers of a buffer see of a queue of at most `c` bytes. -/
structure ShowsQueue (c : Nat) (r : RingBuffer) (q : List UInt8) (ucEventChar : UInt8)
    (ulWaitMask : UInt32) : Prop where
  used : r.bytesUsed = q.length
  used_free : r.bytesUsed + r.bytesFree = c
  readByte : ∀ i, r.readByte i = q[i]?
  rxflag : ReportsRxflag (scanForWaitMask r ucEventChar ulWaitMask) ↔ ucEventChar ∈ q

/-- Operations on a new buffer answer as on a queue, and leave a buffer that shows it. -/
def FifoWithEventChar (pBuffer : Nat → UInt8) (c : Nat) (ops : List (ResetOp UInt8))
    (ucEventChar : UInt8) (ulWaitMask : UInt32) : Prop :=
  ∃ r outs, RingBuffer.step.run (RingBuffer.init pBuffer c) ops = some (r, outs) ∧
    (resetStep c).run [] ops = some (held c ops, outs) ∧
    ShowsQueue c r (held c ops) ucEventChar ulWaitMask

/-- Only the scan can go wrong, on a character from `0x80` on that is unread. -/
theorem showsQueue_iff {c : Nat} {r : RingBuffer} {q : List UInt8} (h : r.StandsFor c q)
    {ucEventChar : UInt8} {ulWaitMask : UInt32} (hchar : ucEventChar ≠ 0)
    (hmask : ulWaitMask &&& serialEvRxflag.toUInt32 ≠ 0) :
    ShowsQueue c r q ucEventChar ulWaitMask ↔ ucEventChar < 0x80 ∨ ucEventChar ∉ q := by
  have hscan := scanForWaitMask_iff r hchar hmask
  rw [h.contents] at hscan
  constructor
  · intro hshows
    by_cases hmem : ucEventChar ∈ q
    · exact .inl (hscan.mp (hshows.rxflag.mpr hmem)).2
    · exact .inr hmem
  · intro hcond
    refine ⟨?_, h.inv.used_add_free h.capacity, ?_, ?_⟩
    · rw [← h.contents, RingBuffer.contents_length]
    · intro i
      rw [RingBuffer.readByte_eq, h.contents]
    · rw [hscan]
      exact ⟨And.left, fun hmem => ⟨hmem, hcond.resolve_right (not_not_intro hmem)⟩⟩

/-- The ring buffer is a queue under any operations, and its scan is right about every event
character below `0x80` and every one that is not unread. -/
theorem fifoWithEventChar_iff (pBuffer : Nat → UInt8) (c : Nat) (ops : List (ResetOp UInt8))
    {ucEventChar : UInt8} {ulWaitMask : UInt32} (hchar : ucEventChar ≠ 0)
    (hmask : ulWaitMask &&& serialEvRxflag.toUInt32 ≠ 0) :
    FifoWithEventChar pBuffer c ops ucEventChar ulWaitMask ↔
      ucEventChar < 0x80 ∨ ucEventChar ∉ held c ops := by
  obtain ⟨r, outs, hrun, hqueue, hstands⟩ := RingBuffer.run_init pBuffer c ops
  rw [← showsQueue_iff hstands hchar hmask]
  constructor
  · rintro ⟨r', outs', hrun', -, hshows⟩
    rw [hrun] at hrun'
    cases hrun'
    exact hshows
  · exact fun hshows => ⟨r, outs, hrun, hqueue, hshows⟩

theorem fifoWithEventChar_ascii :
    FifoWithEventChar (fun _ => 0) 4 [.op (.push [0x0a, 0x0d]), .op (.pop 1)] 0x0d 2 :=
  (fifoWithEventChar_iff (fun _ => 0) 4 _ (by decide) (by decide)).mpr (.inl (by decide))

/-- An unread character from `0x80` on is never reported. -/
theorem rxflag_missed_high_char :
    ¬FifoWithEventChar (fun _ => 0) 4 [.op (.push [0x80])] 0x80 2 := by
  rintro ⟨r, outs, -, -, hshows⟩
  have hunread : (0x80 : UInt8) ∈ held 4 [.op (.push [0x80])] := by decide
  have hlow := (scanForWaitMask_iff r (by decide) (by decide)).mp (hshows.rxflag.mpr hunread)
  exact absurd hlow.2 (by decide)

end WdfSerial
