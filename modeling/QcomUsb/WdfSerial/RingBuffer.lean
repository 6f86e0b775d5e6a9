-- SUMMARY: The receive ring buffer of the serial driver, and the bytes it stands for.
import QcomUsb.Library.Memory

/-!
# The receive ring buffer

`RING_BUFFER` moves its bytes one at a time. One cell stays unused, so that equal heads mean
an empty buffer.
-/

namespace WdfSerial

open Memory

/-- `RING_BUFFER`. -/
structure RingBuffer where
  pBuffer : Nat → UInt8
  capacity : Nat
  writeHead : Nat
  readHead : Nat

namespace RingBuffer

/-- `QCUTIL_RingBufferInit`, with memory for the buffer. -/
def init (pBuffer : Nat → UInt8) (capacity : Nat) : RingBuffer := ⟨pBuffer, capacity + 1, 0, 0⟩

/-- `QCUTIL_RingBufferClear`. -/
def clear (r : RingBuffer) : RingBuffer := { r with writeHead := 0, readHead := 0 }

/-- `QCUTIL_RingBufferBytesUsed`. -/
def bytesUsed (r : RingBuffer) : Nat :=
  if r.readHead ≤ r.writeHead then r.writeHead - r.readHead
  else r.capacity + r.writeHead - r.readHead

/-- `QCUTIL_RingBufferBytesFree`. -/
def bytesFree (r : RingBuffer) : Nat := r.capacity - 1 - r.bytesUsed

/-- One round of the loop of `QCUTIL_RingBufferWrite`. -/
def writeByte (r : RingBuffer) (b : UInt8) : RingBuffer :=
  { r with
    pBuffer := Function.update r.pBuffer r.writeHead b
    writeHead := (r.writeHead + 1) % r.capacity }

/-- `QCUTIL_RingBufferWrite`. False stands for `STATUS_BUFFER_OVERFLOW`. -/
def write (r : RingBuffer) (source : List UInt8) : Bool × RingBuffer :=
  if r.bytesFree < source.length then (false, r) else (true, source.foldl writeByte r)

/-- The loop of `QCUTIL_RingBufferRead`. -/
def readBytes : Nat → RingBuffer → List UInt8 × RingBuffer
  | 0, r => ([], r)
  | n + 1, r =>
    let rest := readBytes n { r with readHead := (r.readHead + 1) % r.capacity }
    (r.pBuffer r.readHead :: rest.1, rest.2)

/-- `QCUTIL_RingBufferRead`: the bytes copied, and the buffer after it. -/
def read (r : RingBuffer) (readLength : Nat) : List UInt8 × RingBuffer :=
  readBytes (min r.bytesUsed readLength) r

/-! ## What the buffer stands for -/

/-- The bytes stored, oldest first. -/
def contents (r : RingBuffer) : List UInt8 := window r.pBuffer r.capacity r.readHead r.bytesUsed

/-- The heads are indices of the buffer. -/
structure Inv (r : RingBuffer) : Prop where
  write_lt : r.writeHead < r.capacity
  read_lt : r.readHead < r.capacity

variable {r : RingBuffer}

@[simp] theorem contents_length (r : RingBuffer) : r.contents.length = r.bytesUsed := by
  simp [contents]

theorem init_inv (pBuffer : Nat → UInt8) (capacity : Nat) : (init pBuffer capacity).Inv :=
  ⟨Nat.succ_pos _, Nat.succ_pos _⟩

theorem Inv.clear (h : r.Inv) : r.clear.Inv :=
  ⟨Nat.zero_lt_of_lt h.write_lt, Nat.zero_lt_of_lt h.read_lt⟩

@[simp] theorem bytesUsed_init (pBuffer : Nat → UInt8) (capacity : Nat) :
    (init pBuffer capacity).bytesUsed = 0 := rfl

@[simp] theorem bytesUsed_clear (r : RingBuffer) : r.clear.bytesUsed = 0 := rfl

@[simp] theorem contents_clear (r : RingBuffer) : r.clear.contents = [] := rfl

@[simp] theorem contents_init (pBuffer : Nat → UInt8) (capacity : Nat) :
    (init pBuffer capacity).contents = [] := rfl

theorem Inv.bytesUsed_lt (h : r.Inv) : r.bytesUsed < r.capacity := by
  have hwrite := h.write_lt
  have hread := h.read_lt
  unfold bytesUsed
  split <;> omega

/-- The cell the next byte goes to lies behind the stored bytes. -/
theorem Inv.writeHead_eq (h : r.Inv) : (r.readHead + r.bytesUsed) % r.capacity = r.writeHead := by
  have hwrite := h.write_lt
  have hread := h.read_lt
  unfold bytesUsed
  split
  · rename_i hle
    rw [Nat.add_sub_cancel' hle, Nat.mod_eq_of_lt hwrite]
  · rename_i hlt
    have hturn :
        r.readHead + (r.capacity + r.writeHead - r.readHead) = r.writeHead + r.capacity := by
      omega
    rw [hturn, Nat.add_mod_right, Nat.mod_eq_of_lt hwrite]

/-! ## Writing -/

theorem Inv.writeByte (h : r.Inv) (b : UInt8) : (r.writeByte b).Inv :=
  ⟨Nat.mod_lt _ (Nat.zero_lt_of_lt h.write_lt), h.read_lt⟩

theorem Inv.bytesUsed_writeByte (h : r.Inv) (hroom : r.bytesUsed + 1 < r.capacity) (b : UInt8) :
    (r.writeByte b).bytesUsed = r.bytesUsed + 1 := by
  have hwrite := h.write_lt
  have hread := h.read_lt
  have hlast := mod_of_lt_two_mul (a := r.writeHead + 1) (L := r.capacity) (by omega)
  unfold bytesUsed at hroom ⊢
  simp only [RingBuffer.writeByte, hlast]
  split_ifs at hroom ⊢ <;> omega

theorem Inv.contents_writeByte (h : r.Inv) (hroom : r.bytesUsed + 1 < r.capacity) (b : UInt8) :
    (r.writeByte b).contents = r.contents ++ [b] := by
  have hused := h.bytesUsed_writeByte hroom b
  unfold contents
  rw [hused]
  change window _ _ _ (r.bytesUsed + [b].length) = _
  apply window_extend
  · intro k hk
    apply Function.update_of_ne
    -- an index before the write head is another one
    intro heq
    have hmod := h.writeHead_eq.trans heq.symm
    have hdist : r.bytesUsed ≡ k [MOD r.capacity] := Nat.ModEq.add_left_cancel' r.readHead hmod
    have hk' := Nat.mod_eq_of_lt (Nat.lt_trans hk h.bytesUsed_lt)
    have hused' := Nat.mod_eq_of_lt h.bytesUsed_lt
    unfold Nat.ModEq at hdist
    omega
  · intro j hj
    have hzero : j = 0 := by simpa using hj
    subst hzero
    simp [RingBuffer.writeByte, h.writeHead_eq]

/-- What fits is appended. -/
theorem Inv.foldl_writeByte (h : r.Inv) (source : List UInt8)
    (hroom : r.bytesUsed + source.length < r.capacity) :
    (source.foldl RingBuffer.writeByte r).Inv ∧
      (source.foldl RingBuffer.writeByte r).contents = r.contents ++ source ∧
      (source.foldl RingBuffer.writeByte r).capacity = r.capacity := by
  induction source generalizing r with
  | nil => simpa using h
  | cons b source ih =>
    simp only [List.length_cons] at hroom
    have hone : r.bytesUsed + 1 < r.capacity := by omega
    have hrest : (r.writeByte b).bytesUsed + source.length < (r.writeByte b).capacity := by
      rw [h.bytesUsed_writeByte hone b]
      change _ < r.capacity
      omega
    obtain ⟨hinv, hcont, hcap⟩ := ih (h.writeByte b) hrest
    refine ⟨hinv, ?_, hcap⟩
    rw [List.foldl_cons, hcont, h.contents_writeByte hone b, List.append_assoc]
    rfl

/-- A write that fits succeeds. -/
theorem Inv.write_eq (h : r.Inv) {source : List UInt8} (hfit : source.length ≤ r.bytesFree) :
    (r.write source).1 = true ∧ (r.write source).2.Inv ∧
      (r.write source).2.contents = r.contents ++ source ∧
      (r.write source).2.capacity = r.capacity := by
  have hlt := h.bytesUsed_lt
  unfold bytesFree at hfit
  have hspec := h.foldl_writeByte source (by omega)
  simpa [write, bytesFree, Nat.not_lt.mpr hfit] using hspec

theorem write_eq_false {source : List UInt8} (hfull : r.bytesFree < source.length) :
    r.write source = (false, r) := by
  simp [write, hfull]

/-! ## Reading -/

theorem Inv.advance (h : r.Inv) :
    ({ r with readHead := (r.readHead + 1) % r.capacity } : RingBuffer).Inv :=
  ⟨h.write_lt, Nat.mod_lt _ (Nat.zero_lt_of_lt h.read_lt)⟩

theorem Inv.bytesUsed_advance (h : r.Inv) (hpos : 0 < r.bytesUsed) :
    ({ r with readHead := (r.readHead + 1) % r.capacity } : RingBuffer).bytesUsed =
      r.bytesUsed - 1 := by
  have hwrite := h.write_lt
  have hread := h.read_lt
  have hlast := mod_of_lt_two_mul (a := r.readHead + 1) (L := r.capacity) (by omega)
  unfold bytesUsed at hpos ⊢
  simp only [hlast]
  split_ifs at hpos ⊢ <;> omega

theorem Inv.contents_advance (h : r.Inv) (hpos : 0 < r.bytesUsed) :
    r.contents = r.pBuffer r.readHead ::
      ({ r with readHead := (r.readHead + 1) % r.capacity } : RingBuffer).contents := by
  have hused := h.bytesUsed_advance hpos
  have hsplit : r.bytesUsed = 1 + (r.bytesUsed - 1) := by omega
  have hfirst : window r.pBuffer r.capacity r.readHead 1 = [r.pBuffer r.readHead] := by
    simp [window, Nat.mod_eq_of_lt h.read_lt]
  unfold contents
  rw [hused, window_mod, hsplit, window_add, hfirst]
  simp

/-- Reading hands out the oldest bytes. -/
theorem Inv.readBytes_eq (h : r.Inv) {n : Nat} (hn : n ≤ r.bytesUsed) :
    (readBytes n r).1 = r.contents.take n ∧ (readBytes n r).2.Inv ∧
      (readBytes n r).2.contents = r.contents.drop n ∧ (readBytes n r).2.capacity = r.capacity := by
  induction n generalizing r with
  | zero => exact ⟨by simp [readBytes], h, by simp [readBytes], rfl⟩
  | succ n ih =>
    have hpos : 0 < r.bytesUsed := Nat.zero_lt_of_lt hn
    have hrest :
        n ≤ ({ r with readHead := (r.readHead + 1) % r.capacity } : RingBuffer).bytesUsed := by
      rw [h.bytesUsed_advance hpos]
      omega
    obtain ⟨hbytes, hinv, hcont, hcap⟩ := ih h.advance hrest
    refine ⟨?_, hinv, ?_, hcap⟩
    · rw [h.contents_advance hpos]
      simpa [readBytes] using hbytes
    · rw [h.contents_advance hpos]
      simpa [readBytes] using hcont

/-- A read takes what is there, up to its length. -/
theorem Inv.read_eq (h : r.Inv) (readLength : Nat) :
    (r.read readLength).1 = r.contents.take readLength ∧ (r.read readLength).2.Inv ∧
      (r.read readLength).2.contents = r.contents.drop readLength ∧
      (r.read readLength).2.capacity = r.capacity := by
  obtain ⟨hbytes, hinv, hcont, hcap⟩ := h.readBytes_eq (Nat.min_le_left r.bytesUsed readLength)
  have hmin : min r.bytesUsed readLength = min readLength r.contents.length := by
    rw [contents_length, Nat.min_comm]
  refine ⟨?_, hinv, ?_, hcap⟩
  · exact hbytes.trans (by rw [hmin]; exact List.take_eq_take_min.symm)
  · exact hcont.trans (by rw [hmin]; exact List.drop_eq_drop_min.symm)

end RingBuffer

end WdfSerial
