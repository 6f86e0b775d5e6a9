-- SUMMARY: The read path with one read at a time: an MBIM block is taken apart into its datagrams, one for each queued read.
import QcomUsb.Library.Loop
import QcomUsb.Transport.DownlinkReads
import QcomUsb.Transport.TlpReassembly

/-!
# Single reads

`USBRD_ReadIrpCompletion` fills queued reads from the level-2 buffer at `L2FillIdx`. With
`MBIMDLEnabled` the buffer is an NTB, and one call goes through its whole table of datagrams. The
pointer to the read and the status stay from one datagram to the next.
-/

namespace Transport.SingleReads

open Memory Loop
open Downlink (word ZeroAt)

/-! ## Data -/

/-- `NTSTATUS`. -/
abbrev NtStatus := UInt32

def statusSuccess : NtStatus := 0
def statusUnsuccessful : NtStatus := 0xC0000001
def statusNoMemory : NtStatus := 0xC0000017
def statusBufferTooSmall : NtStatus := 0xC0000023
def statusCancelled : NtStatus := 0xC0000120

/-- `NT_SUCCESS`. -/
def ntSuccess (status : NtStatus) : Bool := status < 0x80000000

/-- The settings of a device. -/
structure Device where
  mbimdlEnabled : Bool
  ipOnlyMode : Bool
  ethHdr : List UInt8
  ethHdr_length : ethHdr.length = ethHdrSize
  numOfRetriesOnError : Nat
  continueOnDataError : Bool

/-- A read: its buffer, which may be given by an MDL and may be impossible to map, its `IoStatus`, and
whether it has a cancel routine. -/
structure Irp where
  mdlByteCount : Option UInt32
  readLength : UInt32
  mapped : Bool
  buffer : Nat → Option UInt8
  information : Nat
  status : NtStatus
  cancelRoutine : Bool

/-- `pL2ReadBuffer[L2FillIdx]`. -/
structure L2Buffer where
  buffer : Nat → UInt8
  length : UInt32
  status : NtStatus

/-- The reads are known by their addresses. An observer keeps those whose data or status was written
while they were on `RdCompletionQueue`. -/
structure State (ι : Type) where
  l2 : L2Buffer
  rdErrorCount : Nat
  present : Bool
  irps : ι → Irp
  readDataQueue : List ι
  rdCompletionQueue : List ι
  interruptEmptyRdQueueEvent : Bool
  touched : List ι

/-- A call with its local variables. `pDatagramPtr` is an offset in the level-2 buffer. -/
structure Call (ι : Type) where
  state : State ι
  pIrp : Option ι
  ntStatus : NtStatus
  pDatagramPtr : Nat

variable {ι : Type} [DecidableEq ι]

/-! ## `USBRD_ReadIrpCompletion` -/

/-- `ulReqLength`. -/
def Irp.reqLength (irp : Irp) : UInt32 := irp.mdlByteCount.getD irp.readLength

/-- A write to the data or the status of a read. -/
def State.write (s : State ι) (i : ι) (irp : Irp) : State ι :=
  { s with
    irps := Function.update s.irps i irp
    touched := if i ∈ s.rdCompletionQueue then s.touched ++ [i] else s.touched }

/-- The count of errors in a row. -/
def State.countError (dev : Device) (s : State ι) : State ι :=
  if ntSuccess s.l2.status ∨ s.l2.status = statusCancelled then { s with rdErrorCount := 0 }
  else if s.rdErrorCount + 1 > dev.numOfRetriesOnError ∧ dev.continueOnDataError = false then
    { s with present := false, rdErrorCount := dev.numOfRetriesOnError }
  else { s with rdErrorCount := s.rdErrorCount + 1 }

/-- The data of a read, and its `Information`. -/
def Irp.fill (dev : Device) (irp : Irp) (data : List UInt8) : Irp :=
  if dev.ipOnlyMode then
    { irp with
      information := data.length + ethHdrSize
      buffer := TlpReads.setEtherType
        (copyIn (copyIn irp.buffer 0 (dev.ethHdr.map some)) ethHdrSize (data.map some)) }
  else { irp with information := data.length, buffer := copyIn irp.buffer 0 (data.map some) }

/-- The status for `n` bytes of data. The length without the header may wrap. -/
def Irp.fillStatus (dev : Device) (irp : Irp) (n : Nat) : NtStatus :=
  let ulReqLength := if dev.ipOnlyMode then irp.reqLength - 14 else irp.reqLength
  if irp.mapped = false then statusNoMemory
  else if n > ulReqLength.toNat then statusBufferTooSmall
  else statusSuccess

namespace Call

/-- With an empty queue `pIrp` stays what it was. -/
def dequeue (c : Call ι) : Call ι :=
  match c.state.readDataQueue with
  | [] => c
  | i :: rest => { c with state := { c.state with readDataQueue := rest }, pIrp := some i }

def fillIrp (dev : Device) (c : Call ι) (i : ι) (data : List UInt8) : Call ι :=
  let irp := c.state.irps i
  if c.ntStatus = statusSuccess then
    if irp.fillStatus dev data.length = statusSuccess then
      { c with state := c.state.write i (irp.fill dev data) }
    else { c with ntStatus := irp.fillStatus dev data.length }
  else c

/-- The cancel routine was still installed, and is taken off. -/
def completeIrp (c : Call ι) (i : ι) : Call ι :=
  let irp := c.state.irps i
  let s := c.state.write i { irp with
    cancelRoutine := false
    status := c.ntStatus
    information := if c.ntStatus = statusCancelled then 0 else irp.information }
  { c with state := { s with
      rdCompletionQueue := s.rdCompletionQueue ++ [i], interruptEmptyRdQueueEvent := true } }

/-- The next read gets some data. A read without a cancel routine ends the call. -/
def deliver (dev : Device) (c : Call ι) (data : List UInt8) : (NtStatus × State ι) ⊕ Call ι :=
  match c.dequeue.pIrp with
  | none => .inr { c.dequeue with ntStatus := statusUnsuccessful }
  | some i =>
    let filled := c.dequeue.fillIrp dev i data
    if (filled.state.irps i).cancelRoutine then .inr (filled.completeIrp i)
    else .inl (filled.ntStatus, filled.state)

/-- A turn of the loop over the table of datagrams. -/
def turn (dev : Device) (c : Call ι) : (NtStatus × State ι) ⊕ Call ι :=
  let l2 := c.state.l2.buffer
  if ZeroAt l2 c.pDatagramPtr then .inl (c.ntStatus, c.state)
  else
    { c with pDatagramPtr := c.pDatagramPtr + 4 }.deliver dev
      (slice l2 (word l2 c.pDatagramPtr) (word l2 (c.pDatagramPtr + 2)))

end Call

/-- `USBRD_ReadIrpCompletion`, with at most `turns` turns of its loop. -/
def State.readIrpCompletion (dev : Device) (turns : Nat) (s : State ι) :
    Option (NtStatus × State ι) :=
  let s := s.countError dev
  if dev.mbimdlEnabled then
    if word s.l2.buffer 8 ≠ s.l2.length.toNat then
      some (statusUnsuccessful, { s with l2 := { s.l2 with status := statusUnsuccessful } })
    else run (Call.turn dev) turns ⟨s, none, s.l2.status, word s.l2.buffer 10 + 8⟩
  else
    match Call.deliver dev ⟨s, none, s.l2.status, 0⟩ (slice s.l2.buffer 0 s.l2.length.toNat) with
    | .inl r => some r
    | .inr c => some (c.ntStatus, c.state)

/-! ## What a block holds, and what is delivered -/

/-- An entry of the table. -/
structure Datagram where
  off : Nat
  len : Nat

/-- The entries from `p` on, and the zero behind them. -/
def Table (b : Nat → UInt8) : Nat → List Datagram → Prop
  | p, [] => ZeroAt b p
  | p, d :: ds => ¬ZeroAt b p ∧ word b p = d.off ∧ word b (p + 2) = d.len ∧ Table b (p + 4) ds

/-- The transfer is an NTB with one NDP and these datagrams. -/
structure L2Buffer.Holds (l2 : L2Buffer) (ds : List Datagram) : Prop where
  success : l2.status = statusSuccess
  blockLength : word l2.buffer 8 = l2.length.toNat
  oneNdp : word l2.buffer (word l2.buffer 10 + 6) = 0
  table : Table l2.buffer (word l2.buffer 10 + 8) ds
  tableInside : word l2.buffer 10 + 8 + 4 * (ds.length + 1) ≤ l2.length.toNat
  inside : ∀ d ∈ ds, d.off + d.len ≤ l2.length.toNat
  nonempty : ds ≠ []

/-- The bytes before the datagram in a read. -/
def Device.headerSize (dev : Device) : Nat := if dev.ipOnlyMode then ethHdrSize else 0

/-- The header of a datagram by its first byte. -/
def Device.header (dev : Device) (first : UInt8) : List UInt8 :=
  if dev.ipOnlyMode then
    if ((first &&& 0xf0) >>> 4) = 6 then dev.ethHdr.take 12 ++ [0x86, 0xdd] else dev.ethHdr
  else []

/-- The datagram goes into the buffer of the read. -/
structure Irp.HasRoom (dev : Device) (d : Datagram) (irp : Irp) : Prop where
  mapped : irp.mapped = true
  long : dev.headerSize + d.len ≤ irp.reqLength.toNat

/-- A read that waits: nobody cancels it, and it has room for every datagram. -/
structure Irp.Ready (dev : Device) (ds : List Datagram) (irp : Irp) : Prop where
  cancelRoutine : irp.cancelRoutine = true
  room : ∀ d ∈ ds, irp.HasRoom dev d

/-- The read holds exactly the datagram behind its header. -/
structure Irp.Got (dev : Device) (l2 : L2Buffer) (irp : Irp) (d : Datagram) : Prop where
  information : irp.information = dev.headerSize + d.len
  datagram : slice irp.buffer dev.headerSize d.len = (slice l2.buffer d.off d.len).map some
  header : slice irp.buffer 0 dev.headerSize =
    (dev.header ((irp.buffer dev.headerSize).getD 0)).map some

/-- The reads that wait, none of which is on two queues. -/
structure State.Waits (dev : Device) (ds : List Datagram) (s : State ι) : Prop where
  nonempty : s.readDataQueue ≠ []
  nodup : (s.readDataQueue ++ s.rdCompletionQueue).Nodup
  ready : ∀ i ∈ s.readDataQueue, (s.irps i).Ready dev ds
  untouched : s.touched = []

/-- What a call has to do: one read for each datagram, as far as both go, and nothing else to a read on
`RdCompletionQueue`. -/
structure Delivers (dev : Device) (ds : List Datagram) (s t : State ι) : Prop where
  queue : t.rdCompletionQueue =
    s.rdCompletionQueue ++ s.readDataQueue.take (min ds.length s.readDataQueue.length)
  distinct : t.rdCompletionQueue.Nodup
  got : ∀ p ∈ s.readDataQueue.zip ds, (t.irps p.1).Got dev s.l2 p.2
  untouched : t.touched = []

/-! ## One read -/

variable {dev : Device} {irp : Irp} {d : Datagram} {ds : List Datagram} {c : Call ι} {i : ι}
  {rest : List ι} {data : List UInt8} {s : State ι}

theorem fillStatus_eq (hroom : irp.HasRoom dev d) : irp.fillStatus dev d.len = statusSuccess := by
  have hlong := hroom.long
  unfold Irp.fillStatus
  unfold Device.headerSize at hlong
  cases hmode : dev.ipOnlyMode with
  | false =>
    simp only [hmode, Bool.false_eq_true, if_false, Nat.zero_add] at hlong
    simp [hroom.mapped, Nat.not_lt.mpr hlong]
  | true =>
    have hle : 14 + d.len ≤ irp.reqLength.toNat := by simpa [hmode, ethHdrSize] using hlong
    have hsub : (irp.reqLength - 14).toNat = irp.reqLength.toNat - 14 :=
      UInt32.toNat_sub_of_le _ _ (UInt32.le_iff_toNat_le.mpr ((Nat.le_add_right 14 _).trans hle))
    have hnot : ¬irp.reqLength.toNat - 14 < d.len := by omega
    simp [hroom.mapped, hsub, hnot]

/-- The header is in front of the data, and its type follows their first byte. -/
theorem slice_setEtherType {packet : Nat → Option UInt8} {hdr : List UInt8}
    (hhdr : slice packet 0 ethHdrSize = hdr.map some) :
    slice (TlpReads.setEtherType packet) 0 ethHdrSize =
      (if (((packet ethHdrSize).getD 0 &&& 0xf0) >>> 4) = 6 then hdr.take 12 ++ [0x86, 0xdd]
        else hdr).map some := by
  unfold TlpReads.setEtherType
  split_ifs
  · have hfirst : slice packet 0 12 = (hdr.take 12).map some := by
      rw [List.map_take, ← hhdr, slice_take _ _ (by decide)]
    have hmac : slice (copyIn packet 12 [some 0x86, some 0xdd]) 0 12 = (hdr.take 12).map some := by
      rw [slice_copyIn_of_disjoint (.inl (Nat.le_refl 12)), hfirst]
    have htype : slice (copyIn packet 12 [some 0x86, some 0xdd]) 12 2 = [some 0x86, some 0xdd] :=
      slice_copyIn_self packet 12 [some 0x86, some 0xdd]
    have hsplit : ethHdrSize = 12 + 2 := rfl
    rw [hsplit, slice_add, hmac, Nat.zero_add, htype, List.map_append]
    rfl
  · exact hhdr

theorem got_fill_ethernet (l2 : L2Buffer) (irp : Irp) (d : Datagram)
    (hmode : dev.ipOnlyMode = false) :
    (irp.fill dev (slice l2.buffer d.off d.len)).Got dev l2 d := by
  set data := slice l2.buffer d.off d.len with hdata
  have hlen : data.length = d.len := slice_length _ _ _
  have hsize : dev.headerSize = 0 := by simp [Device.headerSize, hmode]
  have hfill : irp.fill dev data =
      { irp with information := data.length, buffer := copyIn irp.buffer 0 (data.map some) } := by
    simp [Irp.fill, hmode]
  refine ⟨?_, ?_, ?_⟩
  · rw [hfill, hsize, Nat.zero_add, hlen]
  · have hslice := slice_copyIn_self irp.buffer 0 (data.map some)
    rw [List.length_map, hlen] at hslice
    rw [hfill, hsize]
    exact hslice
  · simp [hsize, Device.header, hmode, slice]

theorem got_fill_ip (l2 : L2Buffer) (irp : Irp) (d : Datagram) (hmode : dev.ipOnlyMode = true) :
    (irp.fill dev (slice l2.buffer d.off d.len)).Got dev l2 d := by
  set data := slice l2.buffer d.off d.len with hdata
  have hlen : data.length = d.len := slice_length _ _ _
  have hsize : dev.headerSize = ethHdrSize := by simp [Device.headerSize, hmode]
  set headed := copyIn irp.buffer 0 (dev.ethHdr.map some) with hheaded
  set packet := copyIn headed ethHdrSize (data.map some) with hpacket
  have hfill : irp.fill dev data = { irp with
      information := data.length + ethHdrSize, buffer := TlpReads.setEtherType packet } := by
    simp [Irp.fill, hmode, hpacket, hheaded]
  have hhdr : slice packet 0 ethHdrSize = dev.ethHdr.map some := by
    have hself := slice_copyIn_self irp.buffer 0 (dev.ethHdr.map some)
    rw [List.length_map, dev.ethHdr_length] at hself
    rw [hpacket, slice_copyIn_of_disjoint (.inl (Nat.le_of_eq (Nat.zero_add _))), hself]
  have hbehind (j : Nat) : TlpReads.setEtherType packet (ethHdrSize + j) = packet (ethHdrSize + j) :=
    TlpReads.setEtherType_outside packet (Nat.le_add_right _ j)
  refine ⟨?_, ?_, ?_⟩
  · rw [hfill, hsize, hlen, Nat.add_comm]
  · have hslice := slice_copyIn_self headed ethHdrSize (data.map some)
    rw [List.length_map, hlen] at hslice
    rw [hfill, hsize, ← hslice]
    exact List.map_congr_left fun j _ => hbehind j
  · have hfirst : TlpReads.setEtherType packet ethHdrSize = packet ethHdrSize := hbehind 0
    rw [hfill, hsize]
    simp only [hfirst, Device.header, hmode, if_true]
    exact slice_setEtherType hhdr

theorem got_fill (l2 : L2Buffer) (irp : Irp) (d : Datagram) :
    (irp.fill dev (slice l2.buffer d.off d.len)).Got dev l2 d := by
  cases hmode : dev.ipOnlyMode with
  | false => exact got_fill_ethernet l2 irp d hmode
  | true => exact got_fill_ip l2 irp d hmode

@[simp] theorem fill_cancelRoutine (dev : Device) (irp : Irp) (data : List UInt8) :
    (irp.fill dev data).cancelRoutine = irp.cancelRoutine := by
  unfold Irp.fill
  split_ifs <;> rfl

/-- What is written into a read leaves its buffer as it is. -/
theorem Irp.HasRoom.fill (hroom : irp.HasRoom dev d) (data : List UInt8) :
    (irp.fill dev data).HasRoom dev d := by
  unfold Irp.fill
  split_ifs <;> exact ⟨hroom.mapped, hroom.long⟩

@[simp] theorem write_irps_self (s : State ι) (i : ι) (irp : Irp) : (s.write i irp).irps i = irp :=
  Function.update_self ..

theorem write_irps_of_ne (s : State ι) {i j : ι} (irp : Irp) (hne : j ≠ i) :
    (s.write i irp).irps j = s.irps j :=
  Function.update_of_ne hne ..

theorem write_touched_of_mem (hmem : i ∈ s.rdCompletionQueue) (irp : Irp) :
    (s.write i irp).touched = s.touched ++ [i] :=
  if_pos hmem

theorem write_touched_of_not_mem (hmem : i ∉ s.rdCompletionQueue) (irp : Irp) :
    (s.write i irp).touched = s.touched :=
  if_neg hmem

/-- A read with room is filled. -/
theorem fillIrp_eq (hstatus : c.ntStatus = statusSuccess) (hroom : (c.state.irps i).HasRoom dev d)
    (hlen : data.length = d.len) :
    c.fillIrp dev i data =
      { c with state := c.state.write i ((c.state.irps i).fill dev data) } := by
  simp [Call.fillIrp, hstatus, hlen, fillStatus_eq hroom]

/-! ## One datagram -/

/-- The loop is at the entry of the datagram. -/
structure Call.At (c : Call ι) (d : Datagram) : Prop where
  nonzero : ¬ZeroAt c.state.l2.buffer c.pDatagramPtr
  off : word c.state.l2.buffer c.pDatagramPtr = d.off
  len : word c.state.l2.buffer (c.pDatagramPtr + 2) = d.len

theorem turn_eq (hat : c.At d) :
    c.turn dev = { c with pDatagramPtr := c.pDatagramPtr + 4 }.deliver dev
      (slice c.state.l2.buffer d.off d.len) := by
  unfold Call.turn
  rw [if_neg hat.nonzero, hat.off, hat.len]

theorem deliver_eq {head filled : Call ι} (hdequeue : c.dequeue = head) (hirp : head.pIrp = some i)
    (hfill : head.fillIrp dev i data = filled) :
    c.deliver dev data = if (filled.state.irps i).cancelRoutine then .inr (filled.completeIrp i)
      else .inl (filled.ntStatus, filled.state) := by
  simp only [Call.deliver, hdequeue, hirp, hfill]

/-- What a turn leaves that completes the read `i` with the datagram. -/
structure Moves (dev : Device) (d : Datagram) (i : ι) (rest : List ι) (c c' : Call ι) : Prop where
  ntStatus : c'.ntStatus = statusSuccess
  l2 : c'.state.l2 = c.state.l2
  pDatagramPtr : c'.pDatagramPtr = c.pDatagramPtr + 4
  pIrp : c'.pIrp = some i
  readDataQueue : c'.state.readDataQueue = rest
  rdCompletionQueue : c'.state.rdCompletionQueue = c.state.rdCompletionQueue ++ [i]
  touched : c'.state.touched = c.state.touched
  got : (c'.state.irps i).Got dev c.state.l2 d
  cancelRoutine : (c'.state.irps i).cancelRoutine = false
  room : ∀ d', (c.state.irps i).HasRoom dev d' → (c'.state.irps i).HasRoom dev d'
  others : ∀ j, j ≠ i → c'.state.irps j = c.state.irps j

theorem completeIrp_irps_self (hstatus : c.ntStatus = statusSuccess) :
    (c.completeIrp i).state.irps i =
      { c.state.irps i with cancelRoutine := false, status := statusSuccess } := by
  have hnot : statusSuccess ≠ statusCancelled := by decide
  simp [Call.completeIrp, hstatus, hnot]

theorem completeIrp_irps_of_ne (c : Call ι) {i j : ι} (hne : j ≠ i) :
    (c.completeIrp i).state.irps j = c.state.irps j :=
  write_irps_of_ne c.state _ hne

theorem completeIrp_touched (hnew : i ∉ c.state.rdCompletionQueue) :
    (c.completeIrp i).state.touched = c.state.touched := by
  simp only [Call.completeIrp, write_touched_of_not_mem hnew]

/-- A datagram with a read at the head of the queue. -/
theorem turn_moves (hstatus : c.ntStatus = statusSuccess)
    (hqueue : c.state.readDataQueue = i :: rest)
    (hcancel : (c.state.irps i).cancelRoutine = true) (hroom : (c.state.irps i).HasRoom dev d)
    (hnew : i ∉ c.state.rdCompletionQueue) (hat : c.At d) :
    ∃ c', c.turn dev = .inr c' ∧ Moves dev d i rest c c' := by
  set data := slice c.state.l2.buffer d.off d.len with hdata
  set head : Call ι :=
    ⟨{ c.state with readDataQueue := rest }, some i, c.ntStatus, c.pDatagramPtr + 4⟩ with hhead
  have hdequeue : { c with pDatagramPtr := c.pDatagramPtr + 4 }.dequeue = head := by
    simp [Call.dequeue, hqueue, hhead]
  set filled : Call ι := { head with state := head.state.write i ((c.state.irps i).fill dev data) }
    with hfilled
  have hfill : head.fillIrp dev i data = filled := fillIrp_eq hstatus hroom (slice_length _ _ _)
  have hirp : filled.state.irps i = (c.state.irps i).fill dev data := write_irps_self _ i _
  have hdone := completeIrp_irps_self (c := filled) (i := i) hstatus
  rw [hirp] at hdone
  refine ⟨filled.completeIrp i, ?_, ?_⟩
  · rw [turn_eq hat, deliver_eq hdequeue rfl hfill, hirp, if_pos]
    rw [fill_cancelRoutine, hcancel]
  · refine ⟨hstatus, rfl, rfl, rfl, rfl, rfl, ?_, ?_, ?_, fun d' hroom' => ?_, fun j hne => ?_⟩
    · have hwritten : filled.state.touched = c.state.touched :=
        write_touched_of_not_mem (s := head.state) hnew _
      exact (completeIrp_touched (c := filled) hnew).trans hwritten
    · rw [hdone]
      have hgot : ((c.state.irps i).fill dev data).Got dev c.state.l2 d := got_fill _ _ d
      exact ⟨hgot.information, hgot.datagram, hgot.header⟩
    · rw [hdone]
    · rw [hdone]
      exact ⟨(hroom'.fill data).mapped, (hroom'.fill data).long⟩
    · exact (completeIrp_irps_of_ne filled hne).trans (write_irps_of_ne _ _ hne)

/-- Without a read in the queue the datagram goes to the read that was completed last. -/
theorem turn_strays (hstatus : c.ntStatus = statusSuccess) (hqueue : c.state.readDataQueue = [])
    (hlast : c.pIrp = some i) (hdone : i ∈ c.state.rdCompletionQueue)
    (hcancel : (c.state.irps i).cancelRoutine = false) (hroom : (c.state.irps i).HasRoom dev d)
    (hat : c.At d) : ∃ t, c.turn dev = .inl (statusSuccess, t) ∧ t.touched ≠ [] := by
  set data := slice c.state.l2.buffer d.off d.len with hdata
  set next : Call ι := { c with pDatagramPtr := c.pDatagramPtr + 4 } with hnext
  have hdequeue : next.dequeue = next := by simp [Call.dequeue, hqueue, hnext]
  have hfill : next.fillIrp dev i data =
      { next with state := c.state.write i ((c.state.irps i).fill dev data) } :=
    fillIrp_eq hstatus hroom (slice_length _ _ _)
  have hturn : c.turn dev = .inl (statusSuccess, c.state.write i ((c.state.irps i).fill dev data)) := by
    rw [turn_eq hat, deliver_eq hdequeue hlast hfill]
    simp [hcancel, hnext, hstatus]
  refine ⟨_, hturn, ?_⟩
  rw [write_touched_of_mem hdone]
  exact List.concat_ne_nil i c.state.touched

/-! ## The loop -/

/-- The reads that the loop still has, and the one it filled last. -/
structure Call.Ready (dev : Device) (ds : List Datagram) (c : Call ι) : Prop where
  ntStatus : c.ntStatus = statusSuccess
  table : Table c.state.l2.buffer c.pDatagramPtr ds
  nodup : (c.state.readDataQueue ++ c.state.rdCompletionQueue).Nodup
  ready : ∀ i ∈ c.state.readDataQueue, (c.state.irps i).Ready dev ds
  last : c.state.readDataQueue = [] → ∃ i, c.pIrp = some i ∧ i ∈ c.state.rdCompletionQueue ∧
    (c.state.irps i).cancelRoutine = false ∧ ∀ d ∈ ds, (c.state.irps i).HasRoom dev d

omit [DecidableEq ι] in
theorem Call.Ready.at {ds : List Datagram} (h : c.Ready dev (d :: ds)) : c.At d :=
  ⟨h.table.1, h.table.2.1, h.table.2.2.1⟩

/-- With a read in the queue the loop goes on to the next entry. -/
theorem Call.Ready.moves {ds : List Datagram} (h : c.Ready dev (d :: ds))
    (hqueue : c.state.readDataQueue = i :: rest) :
    ∃ c', c.turn dev = .inr c' ∧ Moves dev d i rest c c' ∧ c'.Ready dev ds := by
  have hi : i ∈ c.state.readDataQueue := hqueue ▸ List.mem_cons_self
  have hnodup := h.nodup
  rw [hqueue, List.cons_append, List.nodup_cons] at hnodup
  obtain ⟨hnew, hrest⟩ := hnodup
  have hroom := (h.ready i hi).room
  obtain ⟨c', hturn, hmoves⟩ := turn_moves h.ntStatus hqueue (h.ready i hi).cancelRoutine
    (hroom d List.mem_cons_self) (fun hmem => hnew (List.mem_append_right _ hmem)) h.at
  refine ⟨c', hturn, hmoves, hmoves.ntStatus, ?_, ?_, fun j hj => ?_, fun _ => ?_⟩
  · rw [hmoves.l2, hmoves.pDatagramPtr]
    exact h.table.2.2.2
  · rw [hmoves.readDataQueue, hmoves.rdCompletionQueue, ← List.append_assoc, ← List.concat_eq_append]
    exact (List.nodup_concat ..).mpr ⟨hnew, hrest⟩
  · rw [hmoves.readDataQueue] at hj
    have hne : j ≠ i := by
      rintro rfl
      exact hnew (List.mem_append_left _ hj)
    have hready := h.ready j (hqueue ▸ List.mem_cons_of_mem i hj)
    rw [hmoves.others j hne]
    exact ⟨hready.cancelRoutine, fun d' hd' => hready.room d' (List.mem_cons_of_mem d hd')⟩
  · refine ⟨i, hmoves.pIrp, ?_, hmoves.cancelRoutine, fun d' hd' => ?_⟩
    · rw [hmoves.rdCompletionQueue]
      exact List.mem_append_right _ List.mem_cons_self
    · exact hmoves.room d' (hroom d' (List.mem_cons_of_mem d hd'))

/-- What the loop leaves that has a read for each datagram. -/
structure Filled (dev : Device) (ds : List Datagram) (c : Call ι) (t : State ι) : Prop where
  queue : t.rdCompletionQueue = c.state.rdCompletionQueue ++ c.state.readDataQueue.take ds.length
  got : ∀ p ∈ c.state.readDataQueue.zip ds, (t.irps p.1).Got dev c.state.l2 p.2
  touched : t.touched = c.state.touched
  others : ∀ j, j ∉ c.state.readDataQueue → t.irps j = c.state.irps j

/-- Enough reads: the induction is on the table, one read for each entry. -/
theorem Call.Ready.fills (h : c.Ready dev ds) (henough : ds.length ≤ c.state.readDataQueue.length) :
    ∃ t, Returns (Call.turn dev) c (statusSuccess, t) ∧ Filled dev ds c t := by
  induction ds generalizing c with
  | nil =>
    have hzero : ZeroAt c.state.l2.buffer c.pDatagramPtr := h.table
    have hend : c.turn dev = .inl (statusSuccess, c.state) := by
      rw [Call.turn, if_pos hzero, h.ntStatus]
    refine ⟨c.state, returns_of_inl hend, ?_, ?_, rfl, fun _ _ => rfl⟩
    · simp
    · simp
  | cons d ds ih =>
    cases hqueue : c.state.readDataQueue with
    | nil =>
      rw [hqueue] at henough
      exact absurd henough (Nat.not_succ_le_zero _)
    | cons i rest =>
      obtain ⟨c', hturn, hmoves, hready⟩ := h.moves hqueue
      have henough' : ds.length ≤ c'.state.readDataQueue.length := by
        rw [hqueue] at henough
        rw [hmoves.readDataQueue]
        exact Nat.le_of_succ_le_succ henough
      obtain ⟨t, hreturns, hfilled⟩ := ih hready henough'
      have hnew : i ∉ rest := by
        have hnodup := h.nodup
        rw [hqueue, List.cons_append, List.nodup_cons] at hnodup
        exact fun hmem => hnodup.1 (List.mem_append_left _ hmem)
      have hkept : t.irps i = c'.state.irps i := hfilled.others i (hmoves.readDataQueue ▸ hnew)
      refine ⟨t, (returns_iff_of_inr hturn).mpr hreturns, ?_, ?_, ?_, fun j hj => ?_⟩
      · rw [hfilled.queue, hmoves.rdCompletionQueue, hmoves.readDataQueue, hqueue]
        simp
      · rw [hqueue, List.zip_cons_cons, List.forall_mem_cons]
        have hgot := hfilled.got
        rw [hmoves.readDataQueue, hmoves.l2] at hgot
        exact ⟨hkept ▸ hmoves.got, hgot⟩
      · exact hfilled.touched.trans hmoves.touched
      · rw [hqueue, List.mem_cons, not_or] at hj
        rw [hfilled.others j (hmoves.readDataQueue ▸ hj.2), hmoves.others j hj.1]

/-- Too few reads: the entry behind the last one is written into a read that was completed. -/
theorem Call.Ready.strays (h : c.Ready dev ds) (hshort : c.state.readDataQueue.length < ds.length) :
    ∃ t, Returns (Call.turn dev) c (statusSuccess, t) ∧ t.touched ≠ [] := by
  induction ds generalizing c with
  | nil => exact absurd hshort (Nat.not_lt_zero _)
  | cons d ds ih =>
    cases hqueue : c.state.readDataQueue with
    | nil =>
      obtain ⟨i, hlast, hdone, hcancel, hroom⟩ := h.last hqueue
      obtain ⟨t, hturn, htouched⟩ := turn_strays h.ntStatus hqueue hlast hdone hcancel
        (hroom d List.mem_cons_self) h.at
      exact ⟨t, returns_of_inl hturn, htouched⟩
    | cons i rest =>
      obtain ⟨c', hturn, hmoves, hready⟩ := h.moves hqueue
      have hshort' : c'.state.readDataQueue.length < ds.length := by
        rw [hqueue] at hshort
        rw [hmoves.readDataQueue]
        exact Nat.lt_of_succ_lt_succ hshort
      obtain ⟨t, hreturns, htouched⟩ := ih hready hshort'
      exact ⟨t, (returns_iff_of_inr hturn).mpr hreturns, htouched⟩

/-! ## A call -/

/-- A call for the block returns, and has delivered its datagrams. -/
def CallDelivers (dev : Device) (ds : List Datagram) (s : State ι) : Prop :=
  ∃ turns status t, s.readIrpCompletion dev turns = some (status, t) ∧ Delivers dev ds s t

/-- The loop of a call begins at the first entry of the table. -/
def State.start (s : State ι) : Call ι :=
  ⟨{ s with rdErrorCount := 0 }, none, statusSuccess, word s.l2.buffer 10 + 8⟩

omit [DecidableEq ι] in
theorem State.Waits.start_ready (h : s.Waits dev ds) (hblock : s.l2.Holds ds) :
    s.start.Ready dev ds :=
  ⟨rfl, hblock.table, h.nodup, h.ready, fun hempty => absurd hempty h.nonempty⟩

/-- A call for a block goes into the loop. -/
theorem readIrpCompletion_eq (hmode : dev.mbimdlEnabled = true) (hblock : s.l2.Holds ds)
    (turns : Nat) : s.readIrpCompletion dev turns = run (Call.turn dev) turns s.start := by
  have hcount : s.countError dev = { s with rdErrorCount := 0 } := by
    unfold State.countError
    rw [if_pos (.inl (by rw [hblock.success]; decide))]
  simp only [State.readIrpCompletion, hcount, hmode, if_true, hblock.blockLength, ne_eq,
    not_true_eq_false, if_false, hblock.success, State.start]

omit [DecidableEq ι] in
/-- What the loop fills in is what was asked for. -/
theorem State.Waits.delivers {t : State ι} (h : s.Waits dev ds)
    (henough : ds.length ≤ s.readDataQueue.length) (hfilled : Filled dev ds s.start t) :
    Delivers dev ds s t := by
  have hqueue : t.rdCompletionQueue = s.rdCompletionQueue ++ s.readDataQueue.take ds.length :=
    hfilled.queue
  refine ⟨?_, ?_, hfilled.got, hfilled.touched.trans h.untouched⟩
  · rw [hqueue, Nat.min_eq_left henough]
  · have hsub : (s.rdCompletionQueue ++ s.readDataQueue.take ds.length).Sublist
        (s.rdCompletionQueue ++ s.readDataQueue) :=
      (List.Sublist.refl _).append (List.take_sublist _ _)
    rw [hqueue]
    exact hsub.nodup (List.nodup_append_comm.mp h.nodup)

/-- A call with too few reads does not deliver. -/
theorem State.Waits.not_callDelivers (h : s.Waits dev ds) (hmode : dev.mbimdlEnabled = true)
    (hblock : s.l2.Holds ds) (hshort : s.readDataQueue.length < ds.length) :
    ¬CallDelivers dev ds s := by
  rintro ⟨turns, status, t, hreads, hdelivers⟩
  rw [readIrpCompletion_eq hmode hblock] at hreads
  obtain ⟨t', hreturns, htouched⟩ := (h.start_ready hblock).strays hshort
  have heq := returns_unique ⟨turns, hreads⟩ hreturns
  exact htouched ((congrArg (fun r => r.2.touched) heq).symm.trans hdelivers.untouched)

/-- The call delivers the block exactly if there is a read for each datagram. -/
theorem callDelivers_iff_enough_reads (hmode : dev.mbimdlEnabled = true) (hblock : s.l2.Holds ds)
    (hwaits : s.Waits dev ds) : CallDelivers dev ds s ↔ ds.length ≤ s.readDataQueue.length := by
  constructor
  · intro hcall
    by_contra hnot
    exact hwaits.not_callDelivers hmode hblock (Nat.not_le.mp hnot) hcall
  · intro henough
    obtain ⟨t, ⟨turns, hrun⟩, hfilled⟩ := (hwaits.start_ready hblock).fills henough
    refine ⟨turns, statusSuccess, t, ?_, hwaits.delivers henough hfilled⟩
    rw [readIrpCompletion_eq hmode hblock, hrun]

/-! ### Two blocks -/

/-- A device that sends MBIM blocks with Ethernet frames. -/
def mbimDevice : Device := ⟨true, false, List.replicate 14 0, rfl, 3, false⟩

/-- An NTB with the NDP at 12 and these bytes behind the header of the NDP. -/
def ntb (length : UInt8) (bytes : List UInt8) : L2Buffer :=
  ⟨fun i => ([0x4e, 0x43, 0x4d, 0x48, 12, 0, 0, 0, length, 0, 12, 0, 0x4e, 0x43, 0x4d, 0x30, 16, 0, 0, 0]
    ++ bytes).getD i 0, length.toUInt32, statusSuccess⟩

/-- A block with the datagram `[0x45, 7]`. -/
def oneDatagram : L2Buffer := ntb 30 [28, 0, 2, 0, 0, 0, 0, 0, 0x45, 7]

/-- A block with the datagrams `[0x45]` and `[7]`. -/
def twoDatagrams : L2Buffer := ntb 34 [32, 0, 1, 0, 33, 0, 1, 0, 0, 0, 0, 0, 0x45, 7]

theorem holds_oneDatagram : oneDatagram.Holds [⟨28, 2⟩] := by
  have hend : ZeroAt oneDatagram.buffer 24 := by decide
  exact ⟨rfl, by decide, by decide, ⟨by decide, by decide, by decide, hend⟩, by decide, by decide,
    by decide⟩

theorem holds_twoDatagrams : twoDatagrams.Holds [⟨32, 1⟩, ⟨33, 1⟩] := by
  have hend : ZeroAt twoDatagrams.buffer 28 := by decide
  exact ⟨rfl, by decide, by decide, ⟨by decide, by decide, by decide, by decide, by decide, by decide,
    hend⟩, by decide, by decide, by decide⟩

/-- A read of 64 bytes waits for a block. -/
def oneRead (l2 : L2Buffer) : State Nat :=
  ⟨l2, 0, true, fun _ => ⟨none, 64, true, fun _ => none, 0, 0, true⟩, [0], [], false, []⟩

theorem waits_oneRead (l2 : L2Buffer) (hlen : ∀ d ∈ ds, d.len ≤ 64) :
    (oneRead l2).Waits mbimDevice ds where
  nonempty := List.cons_ne_nil 0 []
  nodup := List.nodup_singleton 0
  ready := fun _ _ => ⟨rfl, fun d hd => ⟨rfl, (Nat.zero_add d.len).le.trans (hlen d hd)⟩⟩
  untouched := rfl

theorem callDelivers_oneDatagram : CallDelivers mbimDevice [⟨28, 2⟩] (oneRead oneDatagram) :=
  (callDelivers_iff_enough_reads rfl holds_oneDatagram (waits_oneRead _ (by decide))).mpr (by decide)

/-- The second datagram of a block is written over the first one, in the read that has it. -/
theorem not_callDelivers_twoDatagrams :
    twoDatagrams.Holds [⟨32, 1⟩, ⟨33, 1⟩] ∧
      (oneRead twoDatagrams).Waits mbimDevice [⟨32, 1⟩, ⟨33, 1⟩] ∧
      ¬CallDelivers mbimDevice [⟨32, 1⟩, ⟨33, 1⟩] (oneRead twoDatagrams) := by
  have hwaits : (oneRead twoDatagrams).Waits mbimDevice [⟨32, 1⟩, ⟨33, 1⟩] :=
    waits_oneRead twoDatagrams (by decide)
  exact ⟨holds_twoDatagrams, hwaits, hwaits.not_callDelivers rfl holds_twoDatagrams (by decide)⟩

end Transport.SingleReads
