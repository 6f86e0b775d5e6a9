-- SUMMARY: The outbound stream of the write thread: the line of writes, and what each step takes of it.
import QcomUsb.Library.OutboundStream
import QcomUsb.Transport.WriteBuffers

/-!
# The outbound stream

The writes that are not done stand in one line: records that have returned, transfers that failed
and are on their way back, transfers with USB, the write in hand, and the data queue. Only the
first of them has come part of the way, and `IoStatus.Information` says how far.
-/

namespace Transport.Mwt

open OutboundStream Transition

/-! ## What USB takes -/

def Taken.bytes : Taken → List UInt8
  | .data bytes _ _ => bytes
  | .zeroLength => []

def Taken.isZeroLength : Taken → Bool
  | .data _ _ _ => false
  | .zeroLength => true

/-- A transfer of a non-zero multiple of `wMaxPktSize` asks for a zero-length packet. -/
def asksZeroLength (cfg : Cfg) (length : Nat) : Bool := 0 < length && length % cfg.wMaxPktSize == 0

def Taken.asks (cfg : Cfg) : Taken → Bool
  | .data _ length success => success && asksZeroLength cfg length
  | .zeroLength => false

/-- The bytes of the writes, one after the other. -/
def payloads (irps : List Irp) : List UInt8 := irps.flatMap Irp.payload

namespace State

def takenBytes (s : State) : List UInt8 := s.taken.flatMap Taken.bytes

/-- The writes that were put on `WtCompletionQueue`, in order. -/
def done (s : State) : List Irp := s.completed ++ s.wtCompletionQueue

/-- USB took the bytes of the accepted writes in order: all those of the completed writes, and those
of the next ones up to some byte. A zero-length packet stands exactly behind the transfers that ask
for one, and one that is still owed is on its way. A write that is completed with success counts all
of its bytes. -/
structure Intact (cfg : Cfg) (s : State) : Prop where
  inOrder : s.takenBytes <+: payloads s.accepted
  whole : payloads s.done <+: s.takenBytes
  zeroLength : ∃ owed, Marked Taken.isZeroLength (Taken.asks cfg) false s.taken owed ∧
    (owed = true → s.bSendZeroLength = true ∨ ∃ r ∈ s.mwtSentIrpQueue, r.sentIrp = none)
  information : ∀ irp ∈ s.done, s.status irp = .success → s.information irp = irp.payload.length
  sound : s.wild = false

/-- A transfer that failed waits, on its way back or with its record. -/
def Interrupted (s : State) : Prop :=
  (∃ r ∈ s.mwtSentIrpQueue, r.irpReturned = true) ∨
    ∃ b ∈ s.mWriteCompletionQueue, (s.pMwtBuffer b).status ≠ .success

/-- How many bytes of a write USB has taken when the buffer is back. -/
def transferred (s : State) (b : Nat) (irp : Irp) : Nat :=
  if (s.pMwtBuffer b).callingIrp = some irp then (s.pMwtBuffer b).transferBufferLength
  else s.information irp

/-- The first record is for a write of which USB has taken nothing. -/
def Untouched (s : State) (b : Nat) : Prop :=
  ∃ r ∈ s.mwtSentIrpQueue.head?, ∃ irp ∈ r.sentIrp, s.transferred b irp = 0

instance (s : State) : Decidable s.Interrupted :=
  inferInstanceAs (Decidable (_ ∨ _))

instance (s : State) (b : Nat) : Decidable (s.Untouched b) :=
  inferInstanceAs (Decidable (∃ r ∈ s.mwtSentIrpQueue.head?, ∃ irp ∈ r.sentIrp, _))

end State

/-- Writes are queued and completed, transfers come back in the order they were sent, and there is
no stop and no cancel. A transfer that fails began with the first byte of its write and left some of
it. While one that failed waits, USB takes nothing. A transfer that failed is processed in FLOW_OFF
state, and when it is the last to come back, no zero-length packet is owed to a write in front of
which all was taken. No record is taken from an empty pool. -/
def Op.Steady (s : State) : Op → Prop
  | .enqueue _ | .qcEmptyCompletionQueue => True
  | .usbCompletes b transferred status =>
    s.mWritePendingQueue.head? = some b ∧
      (status ≠ .success → (s.pMwtBuffer b).offset = 0 ∧
        (transferred < (s.pMwtBuffer b).length ∨ (s.pMwtBuffer b).length = 0)) ∧
      (s.Interrupted → status ≠ .success ∧ transferred = 0)
  | .devState presentAndStarted => presentAndStarted = true
  | .thread _ event =>
    match s.phase with
    | .send _ _ => s.mwtSentIrpRecordPool ≠ 0
    | .wait => event ≠ .cancel ∧ event ≠ .purge ∧ event ≠ .stop
    | .process b =>
      (s.pMwtBuffer b).status ≠ .success → s.mwtState = .flowOff ∧
        (State.allReturned s.mwtSentIrpQueue b = true → s.Untouched b → s.bSendZeroLength = false)
    | _ => True
  | .ioCancelIrp _ | .cancelWriteRoutine _ | .purgeQueue => False

instance (s : State) : (op : Op) → Decidable (op.Steady s)
  | .enqueue _ | .qcEmptyCompletionQueue => .isTrue trivial
  | .usbCompletes .. => inferInstanceAs (Decidable (_ ∧ _ ∧ _))
  | .devState _ => inferInstanceAs (Decidable (_ = true))
  | .thread _ _ =>
    show Decidable (match s.phase with
      | .send _ _ => _
      | .wait => _
      | .process _ => _
      | _ => _) from
    match s.phase with
    | .send _ _ => inferInstanceAs (Decidable (_ ≠ 0))
    | .wait => inferInstanceAs (Decidable (_ ≠ _ ∧ _ ≠ _ ∧ _ ≠ _))
    | .process _ => inferInstanceAs (Decidable (_ ≠ _ → _ ∧ _))
    | .loopHead | .dequeue | .exited => .isTrue trivial
  | .ioCancelIrp _ | .cancelWriteRoutine _ | .purgeQueue => .isFalse id

namespace State

variable {cfg : Cfg} {s t : State} {b : Nat} {sent waiting failed out : List SentIrp}

/-! ## The line of writes -/

/-- The writes of some records, with how far each has come. -/
def progress (come : SentIrp → Irp → Nat) (records : List SentIrp) : List (Irp × Nat) :=
  records.filterMap fun r => r.sentIrp.map fun irp => (irp, come r irp)

/-- How far a write has come by its `IoStatus`. -/
def byInformation (s : State) (_ : SentIrp) (irp : Irp) : Nat := s.information irp

/-- How far a write has come by the URB that came back. -/
def byTransfer (s : State) (r : SentIrp) (_ : Irp) : Nat :=
  (s.pMwtBuffer r.mwtBuf).transferBufferLength

/-- The writes with a record that are not done, with how far each has come. -/
def ahead (s : State) (waiting failed out : List SentIrp) : List (Irp × Nat) :=
  progress s.byInformation waiting ++
    (progress s.byTransfer failed ++ progress s.byInformation out)

/-- All writes that are not done, with how far each has come. -/
def undone (s : State) (waiting failed out : List SentIrp) : List (Irp × Nat) :=
  s.ahead waiting failed out ++
    (s.hand.toList ++ s.writeDataQueue).map fun irp => (irp, s.information irp)

/-- The writes of which USB took all, in order. -/
def gone (s : State) (sent : List SentIrp) : List Irp := s.done ++ sent.filterMap SentIrp.sentIrp

/-- The records are those of the transfers that came back whole, that have returned, that failed,
and that are with USB, in this order. -/
structure Rows (s : State) (sent waiting failed out : List SentIrp) : Prop where
  tracked : s.Tracked
  records : s.mwtSentIrpQueue = sent ++ (waiting ++ (failed ++ out))
  returned : ∀ r ∈ waiting, r.irpReturned = true
  outstanding : ∀ r ∈ sent ++ (failed ++ out), r.irpReturned = false
  completion : s.mWriteCompletionQueue = (sent ++ failed).map SentIrp.mwtBuf
  pending : s.mWritePendingQueue = out.map SentIrp.mwtBuf ++ s.handBuf.toList
  first : sent = [] ∨ waiting = []

/-- What a transfer with USB or on its way back is for. -/
structure Attached (s : State) (r : SentIrp) : Prop where
  data : ∀ irp, r.sentIrp = some irp →
    (s.pMwtBuffer r.mwtBuf).offset = s.information irp ∧
      (s.pMwtBuffer r.mwtBuf).length = irp.payload.length - s.information irp
  zeroLength : r.sentIrp = none → (s.pMwtBuffer r.mwtBuf).length = 0

/-- A transfer came back whole. -/
structure Whole (s : State) (r : SentIrp) : Prop where
  status : (s.pMwtBuffer r.mwtBuf).status = .success
  all : (s.pMwtBuffer r.mwtBuf).transferBufferLength = (s.pMwtBuffer r.mwtBuf).length

/-- A transfer that failed began with the first byte of its write. -/
structure Failed (s : State) (r : SentIrp) : Prop where
  status : (s.pMwtBuffer r.mwtBuf).status ≠ .success
  begins : ∀ irp, r.sentIrp = some irp → s.information irp = 0
  short : (s.pMwtBuffer r.mwtBuf).transferBufferLength < (s.pMwtBuffer r.mwtBuf).length ∨
    (s.pMwtBuffer r.mwtBuf).length = 0
  le : (s.pMwtBuffer r.mwtBuf).transferBufferLength ≤ (s.pMwtBuffer r.mwtBuf).length

/-- The transfers with USB or on their way back are what their records say. -/
structure Transfers (s : State) (sent failed out : List SentIrp) : Prop where
  attached : ∀ r ∈ sent ++ (failed ++ out), s.Attached r
  sentWhole : ∀ r ∈ sent, s.Whole r
  failedShort : ∀ r ∈ failed, s.Failed r

/-- Whether a zero-length packet is owed in front of the transfers with USB. -/
def Owes (cfg : Cfg) (s : State) (owed : Bool) (back out : List SentIrp) : Prop :=
  match back with
  | [] => Marked (fun r => r.sentIrp.isNone)
      (fun r => asksZeroLength cfg (s.pMwtBuffer r.mwtBuf).length) owed out s.bSendZeroLength
  | r :: _ => r.sentIrp.isNone = owed

/-- There is no stop and no cancel. -/
structure Calm (s : State) : Prop where
  present : s.presentAndStarted = true
  notCancelled : s.bCancelled = false
  notPurged : s.bPurged = false
  uncancelled : ∀ irp, s.io.cancel irp = false
  sound : s.wild = false

/-- A write was submitted once, keeps its cancel routine and has not counted all of its bytes until
it is done, and counts all of them then. -/
structure Books (s : State) : Prop where
  nodup : s.accepted.Nodup
  submitted : ∀ irp ∈ s.accepted, irp ∈ s.submitted
  kept : ∀ irp ∈ s.accepted, irp ∈ s.done ∨ s.io.installed irp = true ∧
    (s.information irp = 0 ∨ s.information irp < irp.payload.length)
  information : ∀ irp ∈ s.done, s.information irp = irp.payload.length
  le : ∀ irp, s.information irp ≤ irp.payload.length

/-- The writes stand in line. -/
structure Line (cfg : Cfg) (s : State) (sent waiting failed out : List SentIrp) : Prop extends
    Rows s sent waiting failed out, Transfers s sent failed out, Calm s, Books s where
  total : ∀ r ∈ s.mwtSentIrpQueue, ∀ irp, r.sentIrp = some irp → r.totalLength = irp.payload.length
  accepted : s.accepted = s.gone sent ++ (s.undone waiting failed out).map Prod.fst
  delivered : Delivered Irp.payload (s.gone sent) (s.undone waiting failed out) s.takenBytes
  zeroLength : ∃ owed, Marked Taken.isZeroLength (Taken.asks cfg) false s.taken owed ∧
    s.Owes cfg owed (waiting ++ failed) out
  hand : ∀ b irp, s.phase = .send b irp → irp.isNone = s.bSendZeroLength
  mwtState : s.mwtState = .working ∧ waiting = [] ∨ s.mwtState = .flowOff

theorem map_fst_progress (come : SentIrp → Irp → Nat) (records : List SentIrp) :
    (progress come records).map Prod.fst = records.filterMap SentIrp.sentIrp := by
  rw [progress, List.map_filterMap]
  congr 1
  funext r
  cases r.sentIrp <;> rfl

theorem progress_congr {come come' : SentIrp → Irp → Nat} {records : List SentIrp}
    (h : ∀ r ∈ records, ∀ irp, r.sentIrp = some irp → come r irp = come' r irp) :
    progress come records = progress come' records := by
  refine List.filterMap_congr fun r hr => ?_
  cases hsent : r.sentIrp with
  | none => rfl
  | some irp => simp [h r hr irp hsent]

@[simp] theorem progress_nil (come : SentIrp → Irp → Nat) : progress come [] = [] := rfl

theorem progress_cons (come : SentIrp → Irp → Nat) (r : SentIrp) (records : List SentIrp) :
    progress come (r :: records) = progress come [r] ++ progress come records :=
  List.filterMap_append (l := [r])

theorem progress_append (come : SentIrp → Irp → Nat) (records records' : List SentIrp) :
    progress come (records ++ records') = progress come records ++ progress come records' :=
  List.filterMap_append

@[simp] theorem progress_singleton_none (come : SentIrp → Irp → Nat) {r : SentIrp}
    (h : r.sentIrp = none) : progress come [r] = [] := by simp [progress, h]

theorem progress_singleton_some (come : SentIrp → Irp → Nat) {r : SentIrp} {irp : Irp}
    (h : r.sentIrp = some irp) : progress come [r] = [(irp, come r irp)] := by simp [progress, h]

theorem Line.intact (h : s.Line cfg sent waiting failed out) : s.Intact cfg where
  inOrder := by
    have hprefix := h.delivered.taken_prefix
    rwa [← h.accepted] at hprefix
  whole := by
    have hgone : payloads (s.gone sent) = payloads s.done ++
        payloads (sent.filterMap SentIrp.sentIrp) := List.flatMap_append
    have hprefix : payloads (s.gone sent) <+: s.takenBytes := h.delivered.gone_prefix
    exact (List.prefix_append _ _).trans (hgone ▸ hprefix)
  zeroLength := by
    obtain ⟨owed, hmarked, howes⟩ := h.zeroLength
    refine ⟨owed, hmarked, ?_⟩
    rintro rfl
    have hrecord : ∀ r ∈ waiting ++ (failed ++ out), r.sentIrp.isNone = true →
        ∃ r ∈ s.mwtSentIrpQueue, r.sentIrp = none := fun r hr hnone =>
      ⟨r, h.records ▸ List.mem_append_right _ hr, Option.isNone_iff_eq_none.mp hnone⟩
    cases hback : waiting ++ failed with
    | cons r back =>
      rw [hback] at howes
      refine .inr (hrecord r ?_ howes)
      rw [← List.append_assoc, hback]
      exact List.mem_cons_self
    | nil =>
      rw [hback] at howes
      cases hout : out with
      | nil =>
        rw [hout] at howes
        exact .inl (Eq.symm howes)
      | cons r out' =>
        rw [hout] at howes
        refine .inr (hrecord r ?_ howes.1)
        rw [← List.append_assoc, hback, hout]
        exact List.mem_cons_self
  information := fun irp hirp _ => h.information irp hirp
  sound := h.sound

theorem initial_line (cfg : Cfg) : (initial cfg).Line cfg [] [] [] [] where
  tracked := initial_tracked cfg
  records := rfl
  returned := by simp
  outstanding := by simp
  completion := rfl
  pending := rfl
  first := .inl rfl
  toTransfers := ⟨by simp, by simp, by simp⟩
  toCalm := ⟨rfl, rfl, rfl, fun _ => rfl, rfl⟩
  toBooks := ⟨List.nodup_nil, by simp [initial], by simp [initial], by simp [initial, done],
    fun _ => Nat.zero_le _⟩
  total := by simp [initial]
  accepted := rfl
  delivered := .nil
  zeroLength := ⟨false, rfl, rfl⟩
  hand := by simp [initial]
  mwtState := .inl ⟨rfl, rfl⟩

theorem map_fst_undone : (s.undone waiting failed out).map Prod.fst =
    waiting.filterMap SentIrp.sentIrp ++ (failed.filterMap SentIrp.sentIrp ++
      (out.filterMap SentIrp.sentIrp ++ (s.hand.toList ++ s.writeDataQueue))) := by
  have hid : (Prod.fst ∘ fun irp => (irp, s.information irp)) = id := rfl
  simp only [undone, ahead, List.map_append, map_fst_progress, List.map_map, hid, List.map_id,
    List.append_assoc]

/-- All records are of writes that were accepted. -/
theorem Line.mem_accepted (h : s.Line cfg sent waiting failed out) {r : SentIrp} {irp : Irp}
    (hr : r ∈ s.mwtSentIrpQueue) (hirp : r.sentIrp = some irp) : irp ∈ s.accepted := by
  rw [h.records] at hr
  rw [h.accepted, gone, map_fst_undone]
  simp only [List.mem_append, List.mem_filterMap] at hr ⊢
  rcases hr with hr | hr | hr | hr
  · exact .inl (.inr ⟨r, hr, hirp⟩)
  · exact .inr (.inl ⟨r, hr, hirp⟩)
  · exact .inr (.inr (.inl ⟨r, hr, hirp⟩))
  · exact .inr (.inr (.inr (.inl ⟨r, hr, hirp⟩)))

theorem Line.mem_records (h : s.Line cfg sent waiting failed out) {r : SentIrp}
    (hr : r ∈ sent ++ (failed ++ out)) : r ∈ s.mwtSentIrpQueue := by
  rw [h.records]
  simp only [List.mem_append] at hr ⊢
  rcases hr with hr | hr | hr
  · exact .inl hr
  · exact .inr (.inr (.inl hr))
  · exact .inr (.inr (.inr hr))

/-! ## What the line depends on -/

/-- The same bytes of a transfer, and the same answer. -/
structure SameTransfer (buf buf' : Buffer) : Prop where
  offset : buf'.offset = buf.offset
  length : buf'.length = buf.length
  transferBufferLength : buf'.transferBufferLength = buf.transferBufferLength
  status : buf'.status = buf.status

theorem SameTransfer.refl (buf : Buffer) : SameTransfer buf buf := ⟨rfl, rfl, rfl, rfl⟩

theorem SameTransfer.update {f : Nat → Buffer} {buf : Buffer} (h : SameTransfer (f b) buf)
    (c : Nat) :
    SameTransfer (f c) (Function.update f b buf c) := by
  rcases eq_or_ne c b with rfl | hne
  · rwa [Function.update_self]
  · rw [Function.update_of_ne hne]
    exact .refl _

theorem Transfers.congr (h : s.Transfers sent failed out)
    (hbuf : ∀ r ∈ sent ++ (failed ++ out),
      SameTransfer (s.pMwtBuffer r.mwtBuf) (t.pMwtBuffer r.mwtBuf))
    (hinfo : ∀ r ∈ sent ++ (failed ++ out), ∀ irp, r.sentIrp = some irp →
      t.information irp = s.information irp) : t.Transfers sent failed out where
  attached := fun r hr =>
    ⟨fun irp hirp => by
      rw [(hbuf r hr).offset, (hbuf r hr).length, hinfo r hr irp hirp]
      exact (h.attached r hr).data irp hirp,
    fun hnone => (hbuf r hr).length.trans ((h.attached r hr).zeroLength hnone)⟩
  sentWhole := fun r hr => by
    have hsame := hbuf r (List.mem_append_left _ hr)
    refine ⟨hsame.status.trans (h.sentWhole r hr).status, ?_⟩
    rw [hsame.transferBufferLength, hsame.length]
    exact (h.sentWhole r hr).all
  failedShort := fun r hr => by
    have hmem : r ∈ sent ++ (failed ++ out) := List.mem_append_right _ (List.mem_append_left _ hr)
    have hsame := hbuf r hmem
    have hshort := h.failedShort r hr
    exact {
      status := hsame.status ▸ hshort.status
      begins := fun irp hirp => (hinfo r hmem irp hirp).trans (hshort.begins irp hirp)
      short := by
        rw [hsame.transferBufferLength, hsame.length]
        exact hshort.short
      le := by
        rw [hsame.transferBufferLength, hsame.length]
        exact hshort.le }

theorem Transfers.snoc (h : s.Transfers sent failed out) {r : SentIrp} (hr : s.Attached r) :
    s.Transfers sent failed (out ++ [r]) where
  attached := fun x hx => by
    rw [← List.append_assoc, ← List.append_assoc] at hx
    rcases List.mem_append.mp hx with hx | hx
    · exact h.attached x (by rwa [List.append_assoc] at hx)
    · rw [List.mem_singleton.mp hx]
      exact hr
  sentWhole := h.sentWhole
  failedShort := h.failedShort

/-- The first transfer with USB is one that came back whole. -/
theorem Transfers.back {r : SentIrp} (h : s.Transfers sent [] out) (hr : s.Attached r)
    (hwhole : s.Whole r) : s.Transfers (sent ++ [r]) [] out where
  attached := fun x hx => by
    simp only [List.mem_append, List.mem_singleton, List.nil_append] at hx
    rcases hx with (hx | rfl) | hx
    · exact h.attached x (List.mem_append_left _ hx)
    · exact hr
    · exact h.attached x (List.mem_append_right _ hx)
  sentWhole := fun x hx => by
    rcases List.mem_append.mp hx with hx | hx
    · exact h.sentWhole x hx
    · rw [List.mem_singleton.mp hx]
      exact hwhole
  failedShort := h.failedShort

/-- The first transfer with USB is one that failed. -/
theorem Transfers.short {r : SentIrp} (h : s.Transfers sent failed out) (hr : s.Attached r)
    (hfailed : s.Failed r) : s.Transfers sent (failed ++ [r]) out where
  attached := fun x hx => by
    simp only [List.mem_append, List.mem_singleton] at hx
    rcases hx with hx | (hx | rfl) | hx
    · exact h.attached x (List.mem_append_left _ hx)
    · exact h.attached x (List.mem_append_right _ (List.mem_append_left _ hx))
    · exact hr
    · exact h.attached x (List.mem_append_right _ (List.mem_append_right _ hx))
  sentWhole := h.sentWhole
  failedShort := fun x hx => by
    rcases List.mem_append.mp hx with hx | hx
    · exact h.failedShort x hx
    · rw [List.mem_singleton.mp hx]
      exact hfailed

theorem Transfers.tail {r : SentIrp} (h : s.Transfers sent failed (r :: out)) :
    s.Transfers sent failed out where
  attached := fun x hx => h.attached x (by
    simp only [List.mem_append, List.mem_cons] at hx ⊢
    exact hx.imp_right (.imp_right .inr))
  sentWhole := h.sentWhole
  failedShort := h.failedShort

theorem Owes.congr {owed : Bool} {back : List SentIrp} (h : s.Owes cfg owed back out)
    (hlength : ∀ r ∈ out, (t.pMwtBuffer r.mwtBuf).length = (s.pMwtBuffer r.mwtBuf).length)
    (hzero : t.bSendZeroLength = s.bSendZeroLength) : t.Owes cfg owed back out := by
  cases back with
  | cons r back => exact h
  | nil =>
    have hmarked : Marked _ _ owed out s.bSendZeroLength := h
    rw [← hzero] at hmarked
    refine hmarked.congr fun r hr => ?_
    rw [hlength r hr]

theorem ahead_congr
    (hinfo : ∀ r ∈ waiting ++ out, ∀ irp, r.sentIrp = some irp →
      t.information irp = s.information irp)
    (htransfer : ∀ r ∈ failed, (t.pMwtBuffer r.mwtBuf).transferBufferLength =
      (s.pMwtBuffer r.mwtBuf).transferBufferLength) :
    t.ahead waiting failed out = s.ahead waiting failed out := by
  have hwaiting : progress t.byInformation waiting = progress s.byInformation waiting :=
    progress_congr fun r hr => hinfo r (List.mem_append_left _ hr)
  have hout : progress t.byInformation out = progress s.byInformation out :=
    progress_congr fun r hr => hinfo r (List.mem_append_right _ hr)
  have hfailed : progress t.byTransfer failed = progress s.byTransfer failed :=
    progress_congr fun r hr _ _ => htransfer r hr
  rw [ahead, hwaiting, hout, hfailed, ahead]

theorem ahead_snoc (s : State) (waiting failed out : List SentIrp) (r : SentIrp) :
    s.ahead waiting failed (out ++ [r]) =
      s.ahead waiting failed out ++ progress s.byInformation [r] := by
  simp only [ahead, progress_append, List.append_assoc]

/-- The line is the same, with what is new in the queue behind it. -/
theorem undone_append {new : List Irp}
    (hinfo : ∀ irp ∈ (s.undone waiting failed out).map Prod.fst,
      t.information irp = s.information irp)
    (htransfer : ∀ r ∈ failed, (t.pMwtBuffer r.mwtBuf).transferBufferLength =
      (s.pMwtBuffer r.mwtBuf).transferBufferLength)
    (hqueue : t.hand.toList ++ t.writeDataQueue = s.hand.toList ++ s.writeDataQueue ++ new) :
    t.undone waiting failed out =
      s.undone waiting failed out ++ new.map fun irp => (irp, t.information irp) := by
  rw [map_fst_undone] at hinfo
  have hahead : t.ahead waiting failed out = s.ahead waiting failed out := by
    refine ahead_congr (fun r hr irp hirp => hinfo irp ?_) htransfer
    simp only [List.mem_append, List.mem_filterMap] at hr ⊢
    rcases hr with hr | hr
    · exact .inl ⟨r, hr, hirp⟩
    · exact .inr (.inr (.inl ⟨r, hr, hirp⟩))
  have hold : (s.hand.toList ++ s.writeDataQueue).map (fun irp => (irp, t.information irp)) =
      (s.hand.toList ++ s.writeDataQueue).map fun irp => (irp, s.information irp) :=
    List.map_congr_left fun irp hirp => by
      rw [hinfo irp (List.mem_append_right _ (List.mem_append_right _ (List.mem_append_right _ hirp)))]
  rw [undone, hqueue, hahead, List.map_append, hold, ← List.append_assoc, undone]

theorem undone_congr
    (hinfo : ∀ irp ∈ (s.undone waiting failed out).map Prod.fst,
      t.information irp = s.information irp)
    (htransfer : ∀ r ∈ failed, (t.pMwtBuffer r.mwtBuf).transferBufferLength =
      (s.pMwtBuffer r.mwtBuf).transferBufferLength)
    (hqueue : t.hand.toList ++ t.writeDataQueue = s.hand.toList ++ s.writeDataQueue) :
    t.undone waiting failed out = s.undone waiting failed out := by
  have happend : t.undone waiting failed out = s.undone waiting failed out ++
      ([] : List Irp).map fun irp => (irp, t.information irp) :=
    undone_append hinfo htransfer (by rw [hqueue, List.append_nil])
  rw [happend, List.map_nil, List.append_nil]

/-! ## Steps of the thread that move no byte -/

/-- The records, what their transfers are for, and the order of the writes are the same. -/
structure SameLine (s t : State) : Prop where
  transfer : ∀ c, SameTransfer (s.pMwtBuffer c) (t.pMwtBuffer c)
  records : t.mwtSentIrpQueue = s.mwtSentIrpQueue
  completion : t.mWriteCompletionQueue = s.mWriteCompletionQueue
  queue : t.hand.toList ++ t.writeDataQueue = s.hand.toList ++ s.writeDataQueue
  information : t.information = s.information
  done : t.done = s.done
  accepted : t.accepted = s.accepted
  submitted : t.submitted = s.submitted
  io : t.io = s.io
  taken : t.taken = s.taken
  bSendZeroLength : t.bSendZeroLength = s.bSendZeroLength
  wild : t.wild = s.wild

/-- What the control state must be. -/
structure Ready (t : State) (waiting out : List SentIrp) : Prop where
  tracked : t.Tracked
  pending : t.mWritePendingQueue = out.map SentIrp.mwtBuf ++ t.handBuf.toList
  hand : ∀ b irp, t.phase = .send b irp → irp.isNone = t.bSendZeroLength
  present : t.presentAndStarted = true
  notCancelled : t.bCancelled = false
  notPurged : t.bPurged = false
  mwtState : t.mwtState = .working ∧ waiting = [] ∨ t.mwtState = .flowOff

theorem Line.of_sameLine (h : s.Line cfg sent waiting failed out) (hsame : s.SameLine t)
    (hready : t.Ready waiting out) : t.Line cfg sent waiting failed out := by
  have hundone : t.undone waiting failed out = s.undone waiting failed out :=
    undone_congr (fun irp _ => by rw [hsame.information])
      (fun r _ => (hsame.transfer r.mwtBuf).transferBufferLength) hsame.queue
  have hgone : t.gone sent = s.gone sent := by rw [gone, hsame.done, gone]
  exact {
    tracked := hready.tracked
    records := hsame.records.trans h.records
    returned := h.returned
    outstanding := h.outstanding
    completion := hsame.completion.trans h.completion
    pending := hready.pending
    first := h.first
    toTransfers := h.toTransfers.congr (fun r _ => hsame.transfer r.mwtBuf)
      fun _ _ irp _ => by rw [hsame.information]
    present := hready.present
    notCancelled := hready.notCancelled
    notPurged := hready.notPurged
    uncancelled := fun irp => by
      rw [hsame.io]
      exact h.uncancelled irp
    sound := hsame.wild.trans h.sound
    nodup := hsame.accepted ▸ h.nodup
    submitted := by
      rw [hsame.accepted, hsame.submitted]
      exact h.submitted
    kept := by
      rw [hsame.accepted, hsame.done, hsame.io, hsame.information]
      exact h.kept
    information := by
      rw [hsame.done, hsame.information]
      exact h.information
    le := by
      rw [hsame.information]
      exact h.le
    total := hsame.records ▸ h.total
    accepted := by
      rw [hgone, hundone, hsame.accepted]
      exact h.accepted
    delivered := by
      rw [hgone, hundone, takenBytes, hsame.taken]
      exact h.delivered
    zeroLength := by
      obtain ⟨owed, hmarked, howes⟩ := h.zeroLength
      exact ⟨owed, hsame.taken ▸ hmarked,
        howes.congr (fun r _ => (hsame.transfer r.mwtBuf).length) hsame.bSendZeroLength⟩
    hand := hready.hand
    mwtState := hready.mwtState }

theorem SameWrites.sameLine (h : s.SameWrites t) (hhand : t.hand = s.hand)
    (hzero : t.bSendZeroLength = s.bSendZeroLength) : s.SameLine t where
  transfer := fun c => by
    rw [h.pMwtBuffer]
    exact .refl _
  records := h.records
  completion := h.completion
  queue := by rw [hhand, h.writeDataQueue]
  information := h.information
  done := by rw [done, h.completed, h.wtCompletionQueue, done]
  accepted := h.accepted
  submitted := h.submitted
  io := h.io
  taken := h.taken
  bSendZeroLength := hzero
  wild := h.wild

/-- A buffer is taken for the write in hand. -/
theorem Line.take (h : s.Line cfg sent waiting failed out) {idle : List Nat} {irp : Option Irp}
    {rest : List Irp} (hidle : s.mWriteIdleQueue = b :: idle) (hphase : s.phase = .dequeue)
    (hzero : irp.isNone = s.bSendZeroLength) (hqueue : s.writeDataQueue = irp.toList ++ rest)
    (ht : t = { s.takeBuffer b idle with writeDataQueue := rest }.goTo (.send b irp)) :
    t.Line cfg sent waiting failed out := by
  have hhand : s.hand = none := by simp [State.hand, hphase]
  have hhandBuf : s.handBuf = none := by simp [handBuf, hphase]
  have hphase' : t.phase = .send b irp := by
    rw [ht]
    rfl
  have htracked : t.Tracked :=
    h.tracked.take hidle hhandBuf (ht ▸ ⟨rfl, rfl, rfl, rfl, rfl⟩) hphase'
  have hpending := h.pending
  rw [hhandBuf] at hpending
  have hbuf : ∀ c, SameTransfer (s.pMwtBuffer c) ((s.takeBuffer b idle).pMwtBuffer c) :=
    SameTransfer.update ⟨rfl, rfl, rfl, rfl⟩
  subst ht
  exact h.of_sameLine ⟨hbuf, rfl, rfl, by simp [State.hand, hphase, hqueue, goTo, takeBuffer], rfl,
      rfl, rfl, rfl, rfl, rfl, rfl, rfl⟩
    { tracked := htracked
      pending := by simp [goTo, takeBuffer, handBuf, hpending]
      hand := fun c irp' hsend => by
        obtain ⟨-, rfl⟩ := Phase.send.inj hsend
        exact hzero
      present := h.present
      notCancelled := h.notCancelled
      notPurged := h.notPurged
      mwtState := h.mwtState }

/-- A write joins the line. -/
theorem Line.enqueue (h : s.Line cfg sent waiting failed out) {irp : Irp}
    (hnew : irp ∉ s.submitted) :
    (s.enqueue irp).Line cfg sent waiting failed out := by
  have hold : irp ∉ s.accepted := fun hmem => hnew (h.submitted irp hmem)
  have htracked := h.tracked.of_sameThread (s.sameThread_enqueue irp)
  have heq : s.enqueue irp =
      { { s with submitted := s.submitted ++ [irp] }.ioSetCancelRoutine irp true with
        information := Function.update s.information irp 0
        writeDataQueue := s.writeDataQueue ++ [irp]
        accepted := s.accepted ++ [irp] } := if_neg (by simp [h.uncancelled irp])
  have hne : ∀ j ∈ s.accepted, j ≠ irp := fun j hj heq => hold (heq ▸ hj)
  have hinfo : ∀ j ∈ s.accepted, Function.update s.information irp 0 j = s.information j :=
    fun j hj => Function.update_of_ne (hne j hj) ..
  have hline : ∀ j ∈ (s.undone waiting failed out).map Prod.fst, j ∈ s.accepted := fun j hj =>
    h.accepted ▸ List.mem_append_right _ hj
  have hdone : ∀ j ∈ s.done, j ∈ s.accepted := fun j hj =>
    h.accepted ▸ List.mem_append_left _ (List.mem_append_left _ hj)
  have hundone : (s.enqueue irp).undone waiting failed out =
      s.undone waiting failed out ++ [(irp, 0)] := by
    have hqueue : (s.enqueue irp).hand.toList ++ (s.enqueue irp).writeDataQueue =
        s.hand.toList ++ s.writeDataQueue ++ [irp] := by
      rw [heq]
      exact (List.append_assoc ..).symm
    have hsame : ∀ j ∈ (s.undone waiting failed out).map Prod.fst,
        (s.enqueue irp).information j = s.information j := by
      rw [heq]
      exact fun j hj => hinfo j (hline j hj)
    rw [undone_append hsame (fun r _ => by rw [heq]; rfl) hqueue, heq]
    simp
  rw [heq] at htracked hundone ⊢
  exact {
    tracked := htracked
    records := h.records
    returned := h.returned
    outstanding := h.outstanding
    completion := h.completion
    pending := h.pending
    first := h.first
    toTransfers := h.toTransfers.congr (fun r _ => .refl _)
      fun r hr j hj => hinfo j (h.mem_accepted (h.mem_records hr) hj)
    present := h.present
    notCancelled := h.notCancelled
    notPurged := h.notPurged
    uncancelled := h.uncancelled
    sound := h.sound
    nodup := List.nodup_append.mpr ⟨h.nodup, by simp, by simpa using hne⟩
    submitted := fun j hj => by
      rcases List.mem_append.mp hj with hj | hj
      · exact List.mem_append_left _ (h.submitted j hj)
      · exact List.mem_append_right _ hj
    kept := fun j hj => by
      rcases List.mem_append.mp hj with hj | hj
      · refine (h.kept j hj).imp_right (And.imp (fun hinst => ?_) fun hpart => ?_)
        · simpa [ioSetCancelRoutine, hne j hj] using hinst
        · simpa [hne j hj] using hpart
      · obtain rfl := List.mem_singleton.mp hj
        exact .inr ⟨Function.update_self .., .inl (Function.update_self ..)⟩
    information := fun j hj => (hinfo j (hdone j hj)).trans (h.information j hj)
    le := fun j => by
      rcases eq_or_ne j irp with rfl | hother
      · simp
      · simpa [hother] using h.le j
    total := h.total
    accepted := by
      rw [hundone, List.map_append, ← List.append_assoc]
      exact congrArg (· ++ [irp]) h.accepted
    delivered := by
      rw [hundone]
      exact h.delivered.enqueue irp
    zeroLength := by
      obtain ⟨owed, hmarked, howes⟩ := h.zeroLength
      exact ⟨owed, hmarked, howes.congr (fun _ _ => rfl) rfl⟩
    hand := h.hand
    mwtState := h.mwtState }

theorem Line.qcEmptyCompletionQueue (h : s.Line cfg sent waiting failed out) :
    s.qcEmptyCompletionQueue.Line cfg sent waiting failed out := by
  have htracked := h.tracked.of_sameThread s.sameThread_qcEmptyCompletionQueue
  unfold State.qcEmptyCompletionQueue at htracked ⊢
  split
  · exact h
  · rename_i irp rest hqueue
    rw [hqueue] at htracked
    have hdone : s.completed ++ [irp] ++ rest = s.done := by
      rw [done, hqueue, List.append_assoc, List.singleton_append]
    exact h.of_sameLine ⟨fun _ => .refl _, rfl, rfl, rfl, rfl, hdone, rfl, rfl, rfl, rfl, rfl, rfl⟩
      ⟨htracked, h.pending, h.hand, h.present, h.notCancelled, h.notPurged, h.mwtState⟩

/-- No other transfer that has not returned uses the buffer. -/
theorem Rows.buf_ne (h : s.Rows sent waiting failed out) {before after : List SentIrp}
    {r x : SentIrp} (hrecords : s.mwtSentIrpQueue = before ++ r :: after)
    (hret : r.irpReturned = false) (hx : x ∈ before ++ after) (hxret : x.irpReturned = false) :
    x.mwtBuf ≠ r.mwtBuf := by
  intro heq
  have hlater := h.tracked.later
  rw [hrecords] at hlater
  obtain ⟨-, htail, hcross⟩ := List.pairwise_append.mp hlater
  rcases List.mem_append.mp hx with hx | hx
  · simp [hcross x hx r List.mem_cons_self heq] at hxret
  · simp [(List.pairwise_cons.mp htail).1 x hx heq.symm] at hret

/-- The write in hand gets its record. -/
theorem Line.send (h : s.Line cfg sent waiting failed out) {irp : Option Irp}
    (hphase : s.phase = .send b irp) (hpool : s.mwtSentIrpRecordPool ≠ 0) :
    ∃ r, (s.send cfg b irp).Line cfg sent waiting failed (out ++ [r]) := by
  have hin : s.handBuf = some b := by simp [handBuf, hphase]
  have hhand : s.hand = irp := by simp [State.hand, hphase]
  have htracked := h.tracked.send cfg hphase
  have hbuf : ∀ r ∈ sent ++ (failed ++ out), r.mwtBuf ≠ b := by
    rintro r hr rfl
    exact (h.tracked.record r (h.mem_records hr) (h.outstanding r hr)).2.1 hin
  have hreq : ∀ j, irp = some j → s.reqBytes irp = j.payload.length - s.information j ∧
      s.reqBytes irp + s.sendOffset irp = j.payload.length := by
    rintro j rfl
    have hle := h.le j
    simp only [reqBytes, sendOffset, if_pos hle]
    exact ⟨trivial, Nat.sub_add_cancel hle⟩
  obtain ⟨r, hr⟩ : ∃ r : SentIrp, r = ⟨irp, s.reqBytes irp + s.sendOffset irp, b, false⟩ := ⟨_, rfl⟩
  obtain ⟨t, ht⟩ : ∃ t, t = s.send cfg b irp := ⟨_, rfl⟩
  have heq := ht
  rw [State.send, if_neg hpool] at heq
  dsimp only at heq
  rw [← hr] at heq
  rw [← ht] at htracked ⊢
  have hupdate : t.pMwtBuffer = Function.update s.pMwtBuffer b
      { s.pMwtBuffer b with
        callingIrp := irp
        length := s.reqBytes irp
        offset := s.sendOffset irp
        transferBufferLength := s.reqBytes irp } := by rw [heq]
  have hinfo : t.information = s.information := by rw [heq]
  have hnone : t.hand = none ∧ t.handBuf = none := by simp [heq, State.hand, handBuf]
  have hsame : ∀ x ∈ sent ++ (failed ++ out),
      SameTransfer (s.pMwtBuffer x.mwtBuf) (t.pMwtBuffer x.mwtBuf) := by
    intro x hx
    rw [hupdate, Function.update_of_ne (hbuf x hx)]
    exact .refl _
  have hmem : ∀ x ∈ failed ++ out, x ∈ sent ++ (failed ++ out) := fun x hx =>
    List.mem_append_right _ hx
  have hnew : t.pMwtBuffer r.mwtBuf =
      { s.pMwtBuffer b with
        callingIrp := irp
        length := s.reqBytes irp
        offset := s.sendOffset irp
        transferBufferLength := s.reqBytes irp } := by rw [hupdate, hr, Function.update_self]
  have hattached : t.Attached r := by
    refine ⟨fun j hj => ?_, fun hj => ?_⟩
    · rw [hr] at hj
      obtain rfl : irp = some j := hj
      rw [hnew, hinfo]
      exact ⟨rfl, (hreq j rfl).1⟩
    · rw [hr] at hj
      obtain rfl : irp = none := hj
      rw [hnew]
      rfl
  have hundone : t.undone waiting failed (out ++ [r]) = s.undone waiting failed out := by
    have hahead : t.ahead waiting failed out = s.ahead waiting failed out :=
      ahead_congr (fun _ _ irp _ => by rw [hinfo]) fun x hx =>
        (hsame x (hmem x (List.mem_append_left _ hx))).transferBufferLength
    have hlast : progress t.byInformation [r] = irp.toList.map fun j => (j, s.information j) := by
      rw [hr]
      cases irp with
      | none => rfl
      | some j => simp [progress, byInformation, hinfo]
    have hqueue : t.writeDataQueue = s.writeDataQueue := by rw [heq]
    rw [undone, ahead_snoc, hahead, hlast, hnone.1, hqueue, hinfo, Option.toList_none,
      List.nil_append, List.append_assoc, ← List.map_append, undone, hhand]
  have hgone : t.gone sent = s.gone sent := by rw [heq]; rfl
  refine ⟨r, ?_⟩
  exact {
    tracked := htracked
    records := by
      have hrecords : t.mwtSentIrpQueue = s.mwtSentIrpQueue ++ [r] := by rw [heq]
      simp only [hrecords, h.records, List.append_assoc]
    returned := h.returned
    outstanding := fun x hx => by
      rw [← List.append_assoc, ← List.append_assoc] at hx
      rcases List.mem_append.mp hx with hx | hx
      · exact h.outstanding x (by rwa [List.append_assoc] at hx)
      · rw [List.mem_singleton.mp hx, hr]
    completion := by
      rw [heq]
      exact h.completion
    pending := by
      have hpending : t.mWritePendingQueue = s.mWritePendingQueue := by rw [heq]
      rw [hpending, h.pending, hin, hnone.2, List.map_append, hr]
      simp
    first := h.first
    toTransfers := (h.toTransfers.congr hsame fun _ _ irp _ => by rw [hinfo]).snoc hattached
    toCalm := by
      rw [heq]
      exact ⟨h.present, h.notCancelled, h.notPurged, h.uncancelled, h.sound⟩
    toBooks := by
      rw [heq]
      exact ⟨h.nodup, h.submitted, h.kept, h.information, h.le⟩
    total := fun x hx j hj => by
      have hrecords : t.mwtSentIrpQueue = s.mwtSentIrpQueue ++ [r] := by rw [heq]
      rw [hrecords] at hx
      rcases List.mem_append.mp hx with hx | hx
      · exact h.total x hx j hj
      · rw [List.mem_singleton.mp hx, hr] at hj ⊢
        exact (hreq j hj).2
    accepted := by
      rw [hundone, hgone, heq]
      exact h.accepted
    delivered := by
      rw [hundone, hgone, heq]
      exact h.delivered
    zeroLength := by
      obtain ⟨owed, hmarked, howes⟩ := h.zeroLength
      refine ⟨owed, by rw [heq]; exact hmarked, ?_⟩
      cases hback : waiting ++ failed with
      | cons x back =>
        rw [hback] at howes
        exact howes
      | nil =>
        rw [hback] at howes
        have hout : Marked (fun r => r.sentIrp.isNone)
            (fun r => asksZeroLength cfg (t.pMwtBuffer r.mwtBuf).length) owed out
            s.bSendZeroLength :=
          Marked.congr howes fun x hx => by
            rw [(hsame x (hmem x (List.mem_append_right _ hx))).length]
        have hlast : r.sentIrp.isNone = s.bSendZeroLength := by
          rw [hr]
          exact h.hand b irp hphase
        have hzero : t.bSendZeroLength = asksZeroLength cfg (t.pMwtBuffer r.mwtBuf).length := by
          rw [hnew, heq]
          rfl
        rw [Owes, hzero]
        exact hout.snoc hlast
    hand := fun c j hsend => by simp [heq] at hsend
    mwtState := by
      rw [heq]
      exact h.mwtState }

/-! ## Completions by USB -/

variable {r : SentIrp} {n : Nat} {status : NtStatus}

/-- The first transfer with USB comes back. -/
theorem Rows.outHead (h : s.Rows sent waiting failed out) (hat : s.atUsb b)
    (hhead : s.mWritePendingQueue.head? = some b) :
    ∃ r out', out = r :: out' ∧ r.mwtBuf = b := by
  obtain ⟨-, hhand⟩ := atUsb_iff.mp hat
  have hpending := h.pending
  cases out with
  | nil =>
    rw [hpending, List.map_nil, List.nil_append] at hhead
    refine absurd ?_ hhand
    simpa using hhead
  | cons r out' =>
    rw [hpending] at hhead
    exact ⟨r, out', rfl, Option.some.inj hhead⟩

theorem Rows.usbCompletes {sent' failed' : List SentIrp}
    (h : s.Rows sent waiting failed (r :: out)) (hat : s.atUsb r.mwtBuf)
    (hback : sent' ++ failed' = sent ++ failed ++ [r])
    (hrecords : sent' ++ (waiting ++ (failed' ++ out)) = sent ++ (waiting ++ (failed ++ r :: out)))
    (hfirst : sent' = [] ∨ waiting = []) (n : Nat) (status : NtStatus) :
    (s.writeCompletionRoutine r.mwtBuf n status).Rows sent' waiting failed' out where
  tracked := h.tracked.writeCompletionRoutine hat n status
  records := h.records.trans hrecords.symm
  returned := h.returned
  outstanding := fun x hx => by
    refine h.outstanding x ?_
    rw [← List.append_assoc, hback] at hx
    simpa using hx
  completion := by
    rw [hback, List.map_append, ← h.completion]
    rfl
  pending := by
    simp only [writeCompletionRoutine, h.pending, List.map_cons, List.cons_append,
      List.erase_cons_head]
    rfl
  first := hfirst

/-- What is left when the buffer comes back. -/
theorem writeCompletionRoutine_self (s : State) (b n : Nat) (status : NtStatus) :
    (s.writeCompletionRoutine b n status).pMwtBuffer b =
      { s.pMwtBuffer b with state := .completed, transferBufferLength := n, status := status } :=
  Function.update_self ..

theorem writeCompletionRoutine_other {c : Nat} (hne : c ≠ b) (n : Nat) (status : NtStatus) :
    (s.writeCompletionRoutine b n status).pMwtBuffer c = s.pMwtBuffer c :=
  Function.update_of_ne hne ..

/-- The other transfers are the same. -/
theorem Rows.sameTransfer (h : s.Rows sent waiting failed (r :: out)) (n : Nat)
    (status : NtStatus) :
    ∀ x ∈ sent ++ (failed ++ out), SameTransfer (s.pMwtBuffer x.mwtBuf)
      ((s.writeCompletionRoutine r.mwtBuf n status).pMwtBuffer x.mwtBuf) := by
  intro x hx
  have hr : r.irpReturned = false := h.outstanding r (by simp)
  have hx' : x.irpReturned = false := by
    refine h.outstanding x ?_
    simp only [List.mem_append, List.mem_cons] at hx ⊢
    exact hx.imp_right (.imp_right .inr)
  have hrecords : s.mwtSentIrpQueue = (sent ++ (waiting ++ failed)) ++ r :: out := by
    simp [h.records]
  have hmem : x ∈ (sent ++ (waiting ++ failed)) ++ out := by
    simp only [List.mem_append] at hx ⊢
    rcases hx with hx | hx | hx
    · exact .inl (.inl hx)
    · exact .inl (.inr (.inr hx))
    · exact .inr hx
  rw [writeCompletionRoutine_other (h.buf_ne hrecords hr hmem hx')]
  exact .refl _

theorem takenBytes_writeCompletionRoutine (s : State) (b n : Nat) (status : NtStatus) :
    (s.writeCompletionRoutine b n status).takenBytes =
      s.takenBytes ++ (takenOf (s.pMwtBuffer b) n status).flatMap Taken.bytes :=
  List.flatMap_append

theorem takenOf_none {buf : Buffer} (h : buf.callingIrp = none) (n : Nat) :
    takenOf buf n .success = [.zeroLength] := by simp [takenOf, h]

theorem takenOf_some {buf : Buffer} {irp : Irp} (h : buf.callingIrp = some irp) (n : Nat) :
    takenOf buf n .success =
      [.data ((irp.payload.drop buf.offset).take n) buf.length true] := by simp [takenOf, h]

/-- The buffer of a transfer with USB has the write of its record. -/
theorem Line.calling (h : s.Line cfg sent waiting failed (r :: out)) :
    r.sentIrp = (s.pMwtBuffer r.mwtBuf).callingIrp :=
  (h.tracked.record r (h.mem_records (by simp)) (h.outstanding r (by simp))).2.2

/-- A transfer that comes back is the one that was sent. -/
theorem Attached.completed (h : s.Attached r) (n : Nat) (status : NtStatus) :
    (s.writeCompletionRoutine r.mwtBuf n status).Attached r where
  data := by
    rw [s.writeCompletionRoutine_self r.mwtBuf n status]
    exact h.data
  zeroLength := by
    rw [s.writeCompletionRoutine_self r.mwtBuf n status]
    exact h.zeroLength

theorem Calm.completed (h : s.Calm) (b n : Nat) (status : NtStatus) :
    (s.writeCompletionRoutine b n status).Calm :=
  ⟨h.present, h.notCancelled, h.notPurged, h.uncancelled, h.sound⟩

theorem Books.completed (h : s.Books) (b n : Nat) (status : NtStatus) :
    (s.writeCompletionRoutine b n status).Books :=
  ⟨h.nodup, h.submitted, h.kept, h.information, h.le⟩

/-- A transfer comes back whole while none that failed waits. -/
theorem Line.usbSuccess (h : s.Line cfg sent [] [] (r :: out)) (hat : s.atUsb r.mwtBuf)
    (hn : n = (s.pMwtBuffer r.mwtBuf).length) :
    (s.writeCompletionRoutine r.mwtBuf n .success).Line cfg (sent ++ [r]) [] [] out := by
  have hrows : State.Rows _ (sent ++ [r]) [] [] out :=
    h.toRows.usbCompletes hat (by simp) (by simp) (.inr rfl) n .success
  have hsame := h.toRows.sameTransfer n .success
  have hself := s.writeCompletionRoutine_self r.mwtBuf n .success
  have hbytes := s.takenBytes_writeCompletionRoutine r.mwtBuf n .success
  have hcalling := h.calling
  have hattached := h.attached r (by simp)
  obtain ⟨t, ht⟩ : ∃ t, t = s.writeCompletionRoutine r.mwtBuf n .success := ⟨_, rfl⟩
  rw [← ht] at hrows hself hbytes hsame ⊢
  have hundone : s.undone [] [] (r :: out) = progress s.byInformation [r] ++ t.undone [] [] out := by
    have hsameline : t.undone [] [] out = s.undone [] [] out := by rw [ht]; rfl
    rw [hsameline, undone, ahead, progress_cons]
    simp only [progress_nil, List.nil_append, List.append_assoc]
    rfl
  have hgone : t.gone (sent ++ [r]) = s.gone sent ++ r.sentIrp.toList := by
    have hdone : t.done = s.done := by rw [ht]; rfl
    rw [gone, hdone, List.filterMap_append, gone, List.append_assoc]
    cases hsent : r.sentIrp <;> simp [hsent]
  have haccepted : t.accepted = t.gone (sent ++ [r]) ++ (t.undone [] [] out).map Prod.fst := by
    have hold := h.accepted
    rw [hundone, List.map_append, map_fst_progress] at hold
    rw [hgone, List.append_assoc]
    have hirp : [r].filterMap SentIrp.sentIrp = r.sentIrp.toList := by
      cases hsent : r.sentIrp <;> simp [hsent]
    rw [← hirp, ← hold, ht]
    rfl
  have hinfo : t.information = s.information := by rw [ht]; rfl
  have htransfers : t.Transfers (sent ++ [r]) [] out := by
    refine (h.toTransfers.tail.congr hsame fun _ _ irp _ => by rw [hinfo]).back ?_ ?_
    · rw [ht]
      exact hattached.completed n .success
    · exact ⟨by rw [hself], by rw [hself, hn]⟩
  have hdelivered : Delivered Irp.payload (t.gone (sent ++ [r])) (t.undone [] [] out) t.takenBytes := by
    have hold := h.delivered
    rw [hundone] at hold
    rw [hgone, hbytes]
    cases hsent : r.sentIrp with
    | none =>
      rw [progress_singleton_none _ hsent, List.nil_append] at hold
      rw [takenOf_none (hcalling.symm.trans hsent) n]
      simpa [Taken.bytes] using hold
    | some irp =>
      obtain ⟨hoffset, hlength⟩ := hattached.data irp hsent
      have htaken : (takenOf (s.pMwtBuffer r.mwtBuf) n .success).flatMap Taken.bytes =
          irp.payload.drop (s.information irp) := by
        rw [takenOf_some (hcalling.symm.trans hsent) n]
        simp [Taken.bytes, hoffset, hn, hlength]
      rw [progress_singleton_some _ hsent, List.singleton_append] at hold
      rw [htaken]
      exact hold.finish
  exact {
    toRows := hrows
    toTransfers := htransfers
    toCalm := ht ▸ h.toCalm.completed r.mwtBuf n .success
    toBooks := ht ▸ h.toBooks.completed r.mwtBuf n .success
    total := by
      rw [ht]
      exact h.total
    accepted := haccepted
    delivered := hdelivered
    zeroLength := by
      obtain ⟨owed, hmarked, howed, hout⟩ := h.zeroLength
      obtain ⟨x, hx, hzero, hasks⟩ : ∃ x, t.taken = s.taken ++ [x] ∧
          x.isZeroLength = r.sentIrp.isNone ∧
            x.asks cfg = asksZeroLength cfg (s.pMwtBuffer r.mwtBuf).length := by
        have htaken : t.taken = s.taken ++ takenOf (s.pMwtBuffer r.mwtBuf) n .success := by
          rw [ht]
          rfl
        rw [htaken]
        cases hsent : r.sentIrp with
        | none =>
          rw [takenOf_none (hcalling.symm.trans hsent) n, hattached.zeroLength hsent]
          exact ⟨.zeroLength, rfl, rfl, rfl⟩
        | some irp =>
          rw [takenOf_some (hcalling.symm.trans hsent) n]
          exact ⟨_, rfl, rfl, Bool.true_and _⟩
      refine ⟨x.asks cfg, ?_, ?_⟩
      · rw [hx]
        exact hmarked.snoc (hzero.trans howed)
      · rw [hasks]
        have howes : s.Owes cfg (asksZeroLength cfg (s.pMwtBuffer r.mwtBuf).length) [] out := hout
        exact howes.congr
          (fun x hx => (hsame x (List.mem_append_right _ hx)).length) (by rw [ht]; rfl)
    hand := by
      rw [ht]
      exact h.hand
    mwtState := by
      rw [ht]
      exact h.mwtState }

theorem takenOf_failed_none {buf : Buffer} (h : buf.callingIrp = none) (n : Nat)
    (hstatus : status ≠ .success) : takenOf buf n status = [] := by simp [takenOf, h, hstatus]

/-- Of a transfer that failed USB took the first bytes, or nothing. -/
theorem takenOf_failed_some {buf : Buffer} {irp : Irp} (h : buf.callingIrp = some irp) (n : Nat)
    (hstatus : status ≠ .success) : takenOf buf n status =
      if n = 0 then [] else [.data ((irp.payload.drop buf.offset).take n) buf.length false] := by
  simp [takenOf, h, hstatus]

/-- A transfer that began with the first byte of its write fails. Behind one that failed it took
nothing. -/
theorem Line.usbFailure (h : s.Line cfg sent waiting failed (r :: out)) (hat : s.atUsb r.mwtBuf)
    (hstatus : status ≠ .success) (hle : n ≤ (s.pMwtBuffer r.mwtBuf).length)
    (hoffset : (s.pMwtBuffer r.mwtBuf).offset = 0)
    (hshort : n < (s.pMwtBuffer r.mwtBuf).length ∨ (s.pMwtBuffer r.mwtBuf).length = 0)
    (hfirst : waiting ++ failed = [] ∨ n = 0) :
    (s.writeCompletionRoutine r.mwtBuf n status).Line cfg sent waiting (failed ++ [r]) out := by
  have hrows : State.Rows _ sent waiting (failed ++ [r]) out :=
    h.toRows.usbCompletes hat (by simp) (by simp) h.first n status
  have hsame := h.toRows.sameTransfer n status
  have hself := s.writeCompletionRoutine_self r.mwtBuf n status
  have hbytes := s.takenBytes_writeCompletionRoutine r.mwtBuf n status
  have hcalling := h.calling
  have hattached := h.attached r (by simp)
  have hbegins : ∀ irp, r.sentIrp = some irp → s.information irp = 0 := fun irp hirp =>
    (hattached.data irp hirp).1.symm.trans hoffset
  obtain ⟨t, ht⟩ : ∃ t, t = s.writeCompletionRoutine r.mwtBuf n status := ⟨_, rfl⟩
  rw [← ht] at hrows hself hbytes hsame ⊢
  have hinfo : t.information = s.information := by rw [ht]; rfl
  have hgone : t.gone sent = s.gone sent := by rw [ht]; rfl
  have htransfers : t.Transfers sent (failed ++ [r]) out := by
    refine (h.toTransfers.tail.congr hsame fun _ _ irp _ => by rw [hinfo]).short ?_ ?_
    · rw [ht]
      exact hattached.completed n status
    · refine ⟨?_, fun irp hirp => hinfo ▸ hbegins irp hirp, ?_, ?_⟩ <;> rw [hself]
      · exact hstatus
      · exact hshort
      · exact hle
  -- what is in front of the transfer, and what is behind it
  obtain ⟨front, behind, hundone, hundone', hfront⟩ : ∃ front behind,
      s.undone waiting failed (r :: out) = front ++ (progress s.byInformation [r] ++ behind) ∧
      t.undone waiting (failed ++ [r]) out = front ++ (progress t.byTransfer [r] ++ behind) ∧
      (waiting ++ failed = [] → front = []) := by
    have hfailed : progress t.byTransfer failed = progress s.byTransfer failed :=
      progress_congr fun x hx _ _ =>
        (hsame x (List.mem_append_right _ (List.mem_append_left _ hx))).transferBufferLength
    refine ⟨progress s.byInformation waiting ++ progress s.byTransfer failed,
      progress s.byInformation out ++
        (s.hand.toList ++ s.writeDataQueue).map fun irp => (irp, s.information irp), ?_, ?_, ?_⟩
    · rw [undone, ahead, progress_cons]
      simp only [List.append_assoc]
    · rw [undone, ahead, progress_append, hfailed]
      simp only [List.append_assoc]
      rw [ht]
      rfl
    · intro hnil
      obtain ⟨rfl, rfl⟩ := List.append_eq_nil_iff.mp hnil
      rfl
  have htransfer : ∀ irp, t.byTransfer r irp = n := fun irp => by rw [byTransfer, hself]
  have htaken : t.taken = s.taken ++ takenOf (s.pMwtBuffer r.mwtBuf) n status := by
    rw [ht]
    rfl
  exact {
    toRows := hrows
    toTransfers := htransfers
    toCalm := ht ▸ h.toCalm.completed r.mwtBuf n status
    toBooks := ht ▸ h.toBooks.completed r.mwtBuf n status
    total := by
      rw [ht]
      exact h.total
    accepted := by
      have hold := h.accepted
      rw [hundone, List.map_append, List.map_append, map_fst_progress] at hold
      rw [hundone', List.map_append, List.map_append, map_fst_progress, hgone, ← hold, ht]
      rfl
    delivered := by
      have hold := h.delivered
      rw [hundone] at hold
      rw [hundone', hgone, hbytes]
      cases hsent : r.sentIrp with
      | none =>
        rw [progress_singleton_none _ hsent] at hold ⊢
        rw [takenOf_failed_none (hcalling.symm.trans hsent) n hstatus]
        simpa using hold
      | some irp =>
        have hzero : s.byInformation r irp = 0 := hbegins irp hsent
        rw [progress_singleton_some _ hsent, hzero] at hold
        rw [progress_singleton_some _ hsent, htransfer,
          takenOf_failed_some (hcalling.symm.trans hsent) n hstatus, hoffset]
        rcases eq_or_ne n 0 with rfl | hn
        · simpa using hold
        · have hnil := hfront (hfirst.resolve_right hn)
          rw [hnil, List.nil_append, List.singleton_append] at hold ⊢
          rw [if_neg hn]
          simpa [Taken.bytes] using hold.advance n
    zeroLength := by
      obtain ⟨owed, hmarked, howes⟩ := h.zeroLength
      refine ⟨owed, ?_, ?_⟩
      · rw [htaken]
        cases hsent : r.sentIrp with
        | none =>
          rw [takenOf_failed_none (hcalling.symm.trans hsent) n hstatus, List.append_nil]
          exact hmarked
        | some irp =>
          rw [takenOf_failed_some (hcalling.symm.trans hsent) n hstatus]
          split
          · rw [List.append_nil]
            exact hmarked
          · rename_i hn
            rw [hfirst.resolve_right hn] at howes
            obtain rfl : r.sentIrp.isNone = owed := howes.1
            rw [hsent] at hmarked ⊢
            exact hmarked.snoc rfl
      · cases hback : waiting ++ failed with
        | nil =>
          rw [hback] at howes
          rw [← List.append_assoc, hback]
          exact howes.1
        | cons x back =>
          rw [hback] at howes
          rw [← List.append_assoc, hback]
          exact howes
    hand := by
      rw [ht]
      exact h.hand
    mwtState := by
      rw [ht]
      exact h.mwtState }

end State

end Transport.Mwt
