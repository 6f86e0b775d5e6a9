-- SUMMARY: Async reads that are completed from the URB callback: how many bytes they get.
import QcomUsb.Usb.UrbAccounts

/-!
# Async reads

`io_async_complete` works out from the indices how many bytes a queued read gets, and
`NotifyUserRequest` how many there are. Equal indices mean a full buffer once there is data,
but `io_async_complete` takes them for no data.
-/

namespace QtiUsb

open Memory Transition BoundedFifo

/-- `dataSize` of `NotifyUserRequest`. -/
def dataSize (r : SReadMemListCircular) : Nat := r.mBufflen - readBufferFreeSpace r

/-- `CopyFromReadMemList` on behalf of a queued read: what is left in `mActualLen`, which is
what the read is completed with. -/
def completedWith (r : SReadMemListCircular) (a : IoRead) : Nat :=
  (copyFromReadMemList r (SQTIDevUSB.aioLength r a) copyOk).pDataSize

/-- A queued read gets what it asks for, as far as there is data. -/
structure AsyncReadExact (r : SReadMemListCircular) : Prop where
  actualLen : ∀ a : IoRead, 1 ≤ a.iovCount →
    SQTIDevUSB.aioLength r a = min a.iovCount (qtidevBulkBufLen - readBufferFreeSpace r)
  not_zero : ∀ a : IoRead, 1 ≤ a.iovCount → completedWith r a ≠ 0
  dataSize_eq : dataSize r = qtidevBulkBufLen - readBufferFreeSpace r

/-- What is asked of the buffer. A queued read may end up asking for nothing. -/
def RingRequest : Op UInt8 → Prop
  | .push data => data ≠ []
  | .pop n => n < 2 ^ 32

variable {r r' : SReadMemListCircular}

theorem readMemListStep_inv {op : Op UInt8} {out : Out UInt8} (h : r.Inv)
    (hop : RingRequest op) (hstep : readMemListStep r op = some (r', out)) : r'.Inv := by
  cases op with
  | push data =>
    obtain ⟨rfl, -⟩ := Prod.mk.inj (Option.some.inj hstep)
    by_cases hroom : data.length ≤ r.mBufflen - r.occupancy
    · obtain ⟨r', hadd, hinv, -⟩ :=
        addToReadMemList_accept h (List.length_pos_iff.mpr hop) hroom
      rw [hadd]
      exact hinv
    · rw [addToReadMemList_refuse h (Nat.not_le.mp hroom)]
      exact h
  | pop n =>
    obtain ⟨rfl, -⟩ := Prod.mk.inj (Option.some.inj hstep)
    exact (copyFromReadMemList_spec h hop).inv

/-- With data present the free space leaves the occupancy. -/
theorem sub_freeSpace (h : r.Inv) : qtidevBulkBufLen - readBufferFreeSpace r = r.occupancy := by
  have hle := h.occupancy_le
  rw [h.readBufferFreeSpace_eq, ← h.bufflen]
  omega

/-- Different indices give the occupancy. -/
theorem aioLength_eq (h : r.Inv) (hdata : r.mBufEmptyStatus = false)
    (hne : r.mStartIdx ≠ r.mEndIdx) (a : IoRead) :
    SQTIDevUSB.aioLength r a = min a.iovCount r.occupancy := by
  have hstart := h.start_le
  unfold SQTIDevUSB.aioLength
  rcases Nat.lt_or_gt_of_ne hne with hlt | hgt
  · rw [if_pos hlt.le, SReadMemListCircular.Inv.occupancy_ahead hdata hlt]
  · have hdist : r.mBufflen - (r.mStartIdx - r.mEndIdx) = r.occupancy := by
      rw [SReadMemListCircular.Inv.occupancy_wrapped hdata hgt.le]
      omega
    rw [if_neg (Nat.not_le.mpr hgt), hdist]

/-- Equal indices give nothing. -/
theorem aioLength_of_eq (heq : r.mStartIdx = r.mEndIdx) (a : IoRead) :
    SQTIDevUSB.aioLength r a = 0 := by
  simp [SQTIDevUSB.aioLength, heq]

/-- In every state of the buffer that adds and reads lead to and in which data is present,
a queued read gets what it should exactly if the indices differ. -/
theorem asyncRead_exact_iff (r₀ : SReadMemListCircular) (ops : List (Op UInt8))
    (hops : ∀ op ∈ ops, RingRequest op) :
    ∀ r ∈ readMemListStep.visits (clearReadMemList r₀) ops, r.mBufEmptyStatus = false →
      (AsyncReadExact r ↔ r.mStartIdx ≠ r.mEndIdx) := by
  intro r hr hdata
  have hinv : r.Inv := by
    refine Machine.visits_all ?_ (SReadMemListCircular.clearReadMemList_inv r₀) hops r hr
    exact fun _ _ _ _ h hop hstep => readMemListStep_inv h hop hstep
  have hpos : r.occupancy ≠ 0 := fun hzero => by
    rw [← hinv.occupancy_eq_zero, hdata] at hzero
    cases hzero
  constructor
  · intro hexact heq
    have hone : 0 = min 1 r.occupancy := by
      rw [← sub_freeSpace hinv, ← aioLength_of_eq heq ⟨1, true⟩]
      exact hexact.actualLen ⟨1, true⟩ le_rfl
    omega
  · intro hne
    have hlen := aioLength_eq hinv hdata hne
    refine ⟨fun a _ => ?_, fun a ha => ?_, ?_⟩
    · rw [hlen, sub_freeSpace hinv]
    · have hsmall := SQTIDevUSB.aioLength_lt hinv a
      have hcopied := (copyFromReadMemList_spec hinv hsmall).pDataSize hpos
      rw [completedWith, hcopied, hlen]
      omega
    · rw [dataSize, hinv.bufflen]

theorem asyncRead_exact_iff_three :
    (∀ op ∈ ([.push [1, 2, 3], .pop 2] : List (Op UInt8)), RingRequest op) ∧
      ∀ r ∈ readMemListStep.visits (clearReadMemList ⟨fun _ => 0, 7, 7, 0, false⟩)
          [.push [1, 2, 3], .pop 2],
        r.mBufEmptyStatus = false → (AsyncReadExact r ↔ r.mStartIdx ≠ r.mEndIdx) := by
  have hops : ∀ op ∈ ([.push [1, 2, 3], .pop 2] : List (Op UInt8)), RingRequest op := by
    simp [RingRequest]
  exact ⟨hops, asyncRead_exact_iff _ _ hops⟩

/-- One byte stored and read again, then as many as the buffer holds. -/
def fillUp : List (Op UInt8) := [.push [0], .pop 1, .push (List.replicate qtidevBulkBufLen 0)]

/-- As many bytes as the buffer holds, stored in an empty buffer that does not start at
index 0, end where they began. -/
theorem addToReadMemList_full (data : List UInt8) (hlen : r.mBufflen = data.length)
    (heq : r.mStartIdx = r.mEndIdx) (hempty : r.mBufEmptyStatus = true) (hpos : 0 < r.mEndIdx)
    (hle : r.mEndIdx ≤ r.mBufflen) :
    (addToReadMemList r data).2.mStartIdx = (addToReadMemList r data).2.mEndIdx ∧
      (addToReadMemList r data).2.mBufEmptyStatus = false := by
  have hpart : ¬ data.length ≤ r.mBufflen - r.mEndIdx := by omega
  have hne : data.length ≠ r.mBufflen - r.mEndIdx := by omega
  rw [addToReadMemList, if_pos heq.le, if_neg (by simp [hempty]), if_pos (by omega)]
  simp only [if_neg hpart, if_pos hne, and_true]
  omega

/-- The full buffer that starts and ends at index 1 looks empty to a queued read. -/
theorem asyncRead_full :
    (∀ op ∈ fillUp, RingRequest op) ∧
      ∃ r ∈ readMemListStep.visits (clearReadMemList ⟨fun _ => 0, 7, 7, 0, false⟩) fillUp,
        r.mBufEmptyStatus = false ∧ ¬ AsyncReadExact r := by
  constructor
  · have hfill : List.replicate qtidevBulkBufLen (0 : UInt8) ≠ [] :=
      List.ne_nil_of_length_pos (by rw [List.length_replicate]; decide)
    simp [fillUp, RingRequest, hfill]
  · obtain ⟨s, hs⟩ : ∃ s, s =
        (copyFromReadMemList
          (addToReadMemList (clearReadMemList ⟨fun _ => 0, 7, 7, 0, false⟩) [0]).2 1 copyOk).ring :=
      ⟨_, rfl⟩
    have hstart : s.mStartIdx = 1 := by rw [hs]; rfl
    have hend : s.mEndIdx = 1 := by rw [hs]; rfl
    have hlen : s.mBufflen = qtidevBulkBufLen := by rw [hs]; rfl
    have hempty : s.mBufEmptyStatus = true := by rw [hs]; rfl
    obtain ⟨heq, hfull⟩ :=
      addToReadMemList_full (r := s) (List.replicate qtidevBulkBufLen 0)
        (by rw [hlen, List.length_replicate]) (by omega) hempty (by omega) (by
          rw [hend, hlen]
          decide)
    refine ⟨(addToReadMemList s (List.replicate qtidevBulkBufLen 0)).2, ?_, hfull, ?_⟩
    · simp [fillUp, Machine.visits, readMemListStep, ← hs]
    · intro hexact
      have hone := hexact.actualLen ⟨1, true⟩ le_rfl
      rw [aioLength_of_eq heq, readBufferFreeSpace, hfull, heq] at hone
      simp only [Bool.false_eq_true, if_false, lt_irrefl, Nat.sub_zero] at hone
      revert hone
      decide

end QtiUsb
