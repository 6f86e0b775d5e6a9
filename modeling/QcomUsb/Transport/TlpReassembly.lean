-- SUMMARY: How the read path follows the stream of TLP packets, packet by packet, and when it goes wrong.
import QcomUsb.Transport.TlpReads

/-!
# TLP reassembly

While the read path follows the stream, the bytes before `DataPtr` are the packets handed over so
far and a part of the next one, which `TlpBufferState` tells. A step follows the stream or the
packet at hand is not handed over as it is, and then the reads go wrong at once or with the next
transfer.
-/

namespace Transport.TlpReads

open Memory Transition Pieces

/-! ## Packets -/

namespace TlpPacket

@[simp] theorem bytes_length (p : TlpPacket) : p.bytes.length = 2 + p.payload.length := by
  simp only [bytes, List.length_cons]
  omega

theorem bytes_drop (p : TlpPacket) : p.bytes.drop 2 = p.payload := rfl

/-- The header is read back. -/
theorem leWord_bytes (p : TlpPacket) {lo hi : UInt8} (h : p.bytes.take 2 = [lo, hi]) :
    leWord lo hi = p.length := by
  obtain ⟨rfl, hhi⟩ := List.cons.inj h
  obtain ⟨rfl, -⟩ := List.cons.inj hhi
  exact leWord_swappedBytes p.length

theorem payload_length_le (p : TlpPacket) : p.payload.length ≤ 2047 := by
  rw [← p.length_eq, UInt16.toNat_and]
  exact Nat.and_le_right

theorem masked_ne_zero (p : TlpPacket) : p.length &&& maskLength ≠ 0 ↔ p.payload ≠ [] := by
  rw [← not_iff_not, not_not, not_not, ← List.length_eq_zero_iff, ← p.length_eq]
  exact ⟨fun h => by rw [h]; rfl, fun h => UInt16.toNat.inj (by rw [h]; rfl)⟩

end TlpPacket

@[simp] theorem stream_nil : stream [] = [] := rfl

@[simp] theorem stream_cons (p : TlpPacket) (ps : List TlpPacket) :
    stream (p :: ps) = p.bytes ++ stream ps := rfl

@[simp] theorem stream_append (ps qs : List TlpPacket) :
    stream (ps ++ qs) = stream ps ++ stream qs := List.flatMap_append

/-- Empty packets are two bytes each. -/
theorem stream_length_of_empty {ps : List TlpPacket} (h : ∀ p ∈ ps, p.payload = []) :
    (stream ps).length = 2 * ps.length := by
  induction ps with
  | nil => rfl
  | cons p ps ih =>
    obtain ⟨hp, hps⟩ := List.forall_mem_cons.mp h
    rw [stream_cons, List.length_append, ih hps, p.bytes_length, hp]
    simp only [List.length_nil, List.length_cons]
    omega

@[simp] theorem nonEmpty_append (ps qs : List TlpPacket) :
    nonEmpty (ps ++ qs) = nonEmpty ps ++ nonEmpty qs := List.filter_append ..

theorem nonEmpty_eq_nil {ps : List TlpPacket} :
    nonEmpty ps = [] ↔ ∀ p ∈ ps, p.payload = [] := by
  simp [nonEmpty]

/-- Empty packets at the end, in one transfer, are handed over. -/
theorem reassembles_of_empty {dev : Device} {ts : List (List UInt8)} {start : Nat}
    {ps : List TlpPacket} (h : ∀ p ∈ ps, p.payload = []) (hfits : 2 * ps.length ≤ receiveBufferSize)
    (huncut : Uncut ts start (start + 2 * ps.length)) : Reassembles dev ts start ps := by
  induction ps generalizing start with
  | nil => trivial
  | cons p ps ih =>
    obtain ⟨hp, hps⟩ := List.forall_mem_cons.mp h
    rw [List.length_cons] at hfits huncut
    have hlater : Uncut ts (start + 2) (start + 2 + 2 * ps.length) :=
      huncut.mono (by omega) (by omega)
    have hhanded : HandedOver dev ts start p ps := by
      rw [HandedOver, if_pos hp]
      exact ⟨hps, by omega, hlater⟩
    refine ⟨hhanded, ?_⟩
    rw [p.bytes_length, hp]
    exact ih hps (by omega) hlater

/-! ## Reads -/

theorem setEtherType_written {xs : List UInt8} (h : ethHdrSize ≤ xs.length) :
    setEtherType (written xs) = written (Transport.setEtherType xs) := by
  have hlen : 14 ≤ xs.length := h
  have hcell : (written xs ethHdrSize).getD 0 = xs.getD ethHdrSize 0 := rfl
  have hcopy : copyIn (written xs) 12 [some 0x86, some 0xdd]
      = written ((xs.set 12 0x86).set 13 0xdd) := by
    rw [← copyIn_written_set (by rw [List.length_set]; omega), ← copyIn_written_set (by omega)]
    exact (copyIn_append (written xs) 12 [some 0x86] [some 0xdd]).symm
  rw [setEtherType, Transport.setEtherType, hcell, hcopy, apply_ite written]

theorem setEtherType_outside (packet : Nat → Option UInt8) {i : Nat} (h : ethHdrSize ≤ i) :
    setEtherType packet i = packet i := by
  have hi : 14 ≤ i := h
  unfold setEtherType
  split
  · exact copyIn_outside _ _ _ (.inr (by simpa using hi))
  · rfl

@[simp] theorem setEtherType_length (xs : List UInt8) :
    (Transport.setEtherType xs).length = xs.length := by
  unfold Transport.setEtherType
  split <;> simp

theorem frame_length (dev : Device) (p : TlpPacket) :
    (p.frame dev).length = dev.information .success p.payload.length := by
  unfold TlpPacket.frame Device.information
  split
  · simp [dev.ethHdr_length, Nat.add_comm]
  · simp

/-- The data of a read that is long enough. -/
theorem fillIrpData_success (dev : Device) {length : UInt32} {data : List (Option UInt8)}
    (h : ethHdrSize + data.length ≤ length.toNat) :
    fillIrpData dev (fun _ => none) length data = (.success,
      if dev.ipOnlyMode then setEtherType (copyIn (written dev.ethHdr) ethHdrSize data)
      else copyIn (fun _ => none) 0 data) := by
  have hle : (14 : UInt32) ≤ length :=
    UInt32.le_iff_toNat_le.mpr ((Nat.le_add_right 14 data.length).trans h)
  have hsub : (length - 14).toNat = length.toNat - 14 := UInt32.toNat_sub_of_le _ _ hle
  have hroom : 14 + data.length ≤ length.toNat := h
  unfold fillIrpData
  split
  · rw [if_neg (by omega), copyIn_none]
  · rfl

/-- A whole payload is filled in as the frame of its packet. -/
theorem fillIrpData_whole (dev : Device) (p : TlpPacket) {length : UInt32}
    (h : ethHdrSize + p.payload.length ≤ length.toNat) :
    fillIrpData dev (fun _ => none) length (p.payload.map some)
      = (.success, written (p.frame dev)) := by
  rw [fillIrpData_success dev (by simpa using h), TlpPacket.frame]
  split
  · have hle : ethHdrSize ≤ (dev.ethHdr ++ p.payload).length := by
      rw [List.length_append, dev.ethHdr_length]
      exact Nat.le_add_right _ _
    rw [← setEtherType_written hle, ← copyIn_written, dev.ethHdr_length]
  · rw [copyIn_none]

theorem delivers_whole (dev : Device) (p : TlpPacket) {length : UInt32}
    (h : ethHdrSize + p.payload.length ≤ length.toNat) :
    Delivers dev ⟨length, .success, dev.information .success p.payload.length,
      written (p.frame dev)⟩ p where
  status := rfl
  information := (frame_length dev p).symm
  fits := by
    have hroom : 14 + p.payload.length ≤ length.toNat := h
    simp only [Device.information, ethHdrSize, if_true]
    split <;> omega
  buffer := rfl

/-- What the two legs of a packet leave in a read. -/
def legs (dev : Device) (p : TlpPacket) (n : Nat) : Nat → Option UInt8 :=
  copyIn
    (if dev.ipOnlyMode then
      setEtherType (copyIn (written dev.ethHdr) ethHdrSize ((p.payload.take n).map some))
    else copyIn (fun _ => none) 0 ((p.payload.take n).map some))
    n ((p.payload.drop n).map some)

/-- Without an Ethernet header the second leg is written behind the first one. -/
theorem legs_eq_written {dev : Device} (hmode : dev.ipOnlyMode = false) {p : TlpPacket} {n : Nat}
    (hle : n ≤ p.payload.length) : legs dev p n = written (p.frame dev) := by
  have hfirst : (p.payload.take n).length = n := by
    rw [List.length_take]
    omega
  have hcopy := copyIn_written (p.payload.take n) (p.payload.drop n)
  rw [hfirst, List.take_append_drop] at hcopy
  simp only [legs, hmode, TlpPacket.frame, Bool.false_eq_true, if_false, copyIn_none, hcopy]

/-- With one it is written over the header and the first leg, so that nothing is written to the last
byte that `Information` counts. -/
theorem legs_last {dev : Device} (hmode : dev.ipOnlyMode = true) {p : TlpPacket} {n : Nat}
    (hlt : n < p.payload.length) :
    legs dev p n (dev.information .success p.payload.length - 1) = none := by
  have hlast : dev.information .success p.payload.length - 1 = p.payload.length + 13 := by
    simp only [Device.information, hmode, if_true, ethHdrSize]
    omega
  have hethHdr : dev.ethHdr.length = 14 := dev.ethHdr_length
  rw [legs, if_pos hmode, hlast,
    copyIn_outside _ _ _ (.inr (by rw [List.length_map, List.length_drop]; omega)),
    setEtherType_outside _ (by rw [ethHdrSize]; omega),
    copyIn_outside _ _ _ (.inr (by rw [ethHdrSize, List.length_map, List.length_take]; omega))]
  simp only [written, List.getElem?_eq_none_iff]
  omega

/-- A read that carries a packet has been written up to its `Information`. -/
theorem Delivers.last_ne_none {dev : Device} {r : CompletedRead} {p : TlpPacket}
    (h : Delivers dev r p) (hne : p.payload ≠ []) : r.buffer (r.information - 1) ≠ none := by
  have hpos := List.length_pos_iff.mpr hne
  have hlen : 0 < (p.frame dev).length := by
    rw [frame_length, Device.information, if_pos rfl]
    split <;> omega
  rw [h.information, h.buffer]
  simp only [written, ne_eq, List.getElem?_eq_none_iff]
  omega

/-- `Information` of a read that carries a packet. -/
theorem Delivers.information_eq {dev : Device} {r : CompletedRead} {p : TlpPacket}
    (h : Delivers dev r p) : r.information = dev.information .success p.payload.length :=
  h.information.trans (frame_length dev p)

/-- The legs of a packet of length zero, which wraps, are as long as no packet. -/
theorem information_ne_of_wrap {dev : Device} {p : TlpPacket} (hpay : p.payload ≠ [])
    (nts : IrpStatus) (w : UInt16) :
    dev.information nts (w.toNat + (0 - w).toNat) ≠ dev.information .success p.payload.length := by
  have hpos := List.length_pos_iff.mpr hpay
  have hle := p.payload_length_le
  have hsub := UInt16.toNat_sub 0 w
  have hw := w.toNat_lt
  rw [UInt16.toNat_zero] at hsub
  simp only [Device.information, ethHdrSize, if_true]
  split <;> split <;> omega

/-! ## Where the buffers stand in the stream -/

variable {dev : Device} {ts gone rest : List (List UInt8)} {ps done todo back : List TlpPacket}
variable {p : TlpPacket} {s s' : State} {l2 : List UInt8} {length : UInt32} {q offset : Nat}

/-- The transfers that are still to be handled are those behind `gone`. -/
structure Placed (ts gone : List (List UInt8)) (s : State) : Prop where
  transfers : ts = gone ++ (s.transfers ++ s.coming)
  inside : ∀ l2 rest, s.transfers = l2 :: rest → s.dataPtr < l2.length
  fresh : s.transfers = [] → s.dataPtr = 0

namespace Placed

theorem eq (h : Placed ts gone s) (htr : s.transfers = l2 :: rest) :
    ts = gone ++ l2 :: (rest ++ s.coming) := by
  rw [h.transfers, htr, List.cons_append]

theorem recycle (hne : ∀ t ∈ ts, t ≠ []) (h : Placed ts gone s)
    (htr : s.transfers = l2 :: rest) : Placed ts (gone ++ [l2]) s.recycleL2FillBuffer where
  transfers := by
    rw [h.eq htr]
    simp [State.recycleL2FillBuffer, htr]
  inside := by
    intro l2' rest' heq
    have hrest : rest = l2' :: rest' := by simpa [State.recycleL2FillBuffer, htr] using heq
    have hmem : l2' ∈ ts := by
      rw [h.eq htr, hrest]
      simp
    exact List.length_pos_iff.mpr (hne l2' hmem)
  fresh := fun _ => rfl

/-- The position moves to `q` of the buffer, whether it is recycled or not. -/
theorem advance (hne : ∀ t ∈ ts, t ≠ []) (h : Placed ts gone s) (htr : s.transfers = l2 :: rest)
    (hq : q ≤ l2.length) :
    ∃ gone', Placed ts gone' (s.advance l2.length q) ∧
      gone'.flatten.length + (s.advance l2.length q).dataPtr = gone.flatten.length + q := by
  unfold State.advance
  split
  · next hend =>
    refine ⟨gone ++ [l2], h.recycle hne htr, ?_⟩
    simp only [State.recycleL2FillBuffer, List.flatten_append, List.flatten_singleton,
      List.length_append]
    omega
  · next hlt =>
    refine ⟨gone, ⟨h.transfers, ?_, fun hnil => ?_⟩, rfl⟩
    · intro l2' rest' heq
      obtain ⟨rfl, -⟩ := List.cons.inj (htr.symm.trans heq)
      exact Nat.lt_of_not_le hlt
    · exact absurd (htr.symm.trans hnil) (List.cons_ne_nil _ _)

/-- What the buffer holds from `q` on is what the packets have there. -/
theorem behind (hcut : CutOf ts ps) (h : Placed ts gone s) (htr : s.transfers = l2 :: rest)
    (hps : ps = done ++ todo) (hq : q ≤ l2.length)
    (hpos : gone.flatten.length + q = (stream done).length + offset) :
    l2.drop q ++ (rest ++ s.coming).flatten = (stream todo).drop offset := by
  have hstream : gone.flatten ++ (l2 ++ (rest ++ s.coming).flatten)
      = stream done ++ stream todo := by
    rw [← stream_append, ← hps, ← hcut.flatten_eq, h.eq htr]
    simp
  rw [← List.drop_append_of_le_length hq]
  exact drop_eq_drop hstream hpos

/-- Without a transfer nothing of the packets is left. -/
theorem behind_nil (hcut : CutOf ts ps) (h : Placed ts gone s) (htr : s.transfers = [])
    (hcoming : s.coming = []) (hps : ps = done ++ todo)
    (hpos : gone.flatten.length + s.dataPtr = (stream done).length + offset) :
    (stream todo).drop offset = [] := by
  have hstream : gone.flatten ++ [] = stream done ++ stream todo := by
    rw [← stream_append, ← hps, ← hcut.flatten_eq, h.transfers, htr, hcoming]
    simp
  rw [h.fresh htr] at hpos
  exact (drop_eq_drop hstream hpos).symm

end Placed

/-! ## Following the stream -/

/-- What does not depend on the position: the packets done have been handed over, the others are
still to come. -/
structure Handed (dev : Device) (ts : List (List UInt8)) (ps done todo : List TlpPacket)
    (s : State) : Prop where
  packets : ps = done ++ todo
  delivered : List.Forall₂ (Delivers dev) s.completed (nonEmpty done)
  inFrame : ∀ i, receiveBufferSize ≤ i → s.frame.buffer i = none
  reads : ∀ length ∈ s.readDataQueue, ∀ p ∈ ps, ethHdrSize + p.payload.length ≤ length.toNat
  reassembles : Reassembles dev ts 0 ps ↔ Reassembles dev ts (stream done).length todo
  spans : SpansTwo ts (stream done).length todo

/-- `TlpBufferState` tells how many bytes of the next packet have been taken, and where they are.
Nothing is left when empty packets at the end have been taken for the first leg of one. -/
inductive Phase (s : State) : Nat → List TlpPacket → Prop
  | idle (todo : List TlpPacket) (st : s.tlpBufferState = .idle) : Phase s 0 todo
  | swallowed (st : s.tlpBufferState = .partialFill) : Phase s 0 []
  | partialHdr (p : TlpPacket) (back : List TlpPacket) (st : s.tlpBufferState = .partialHdr)
      (bytes : slice s.frame.buffer 0 1 = (p.bytes.take 1).map some)
      (pktLength : s.frame.pktLength = 1) (bytesNeeded : s.frame.bytesNeeded = 1) :
      Phase s 1 (p :: back)
  | hdrOnly (p : TlpPacket) (back : List TlpPacket) (st : s.tlpBufferState = .hdrOnly)
      (bytes : slice s.frame.buffer 0 2 = (p.bytes.take 2).map some) : Phase s 2 (p :: back)
  | partialFill (p : TlpPacket) (back : List TlpPacket) (n : Nat)
      (st : s.tlpBufferState = .partialFill) (pos : 0 < n) (lt : n < p.payload.length)
      (bytes : slice s.frame.buffer 0 n = (p.payload.take n).map some)
      (pktLength : s.frame.pktLength.toNat = n)
      (bytesNeeded : s.frame.bytesNeeded.toNat = p.payload.length - n)
      (fresh : s.dataPtr = 0) : Phase s (2 + n) (p :: back)

/-- The read path follows the stream. -/
structure Reading (dev : Device) (ts gone : List (List UInt8)) (ps done todo : List TlpPacket)
    (offset : Nat) (s : State) : Prop where
  handed : Handed dev ts ps done todo s
  placed : Placed ts gone s
  position : gone.flatten.length + s.dataPtr = (stream done).length + offset
  phase : Phase s offset todo

/-- The read path follows the stream and has come to a position. -/
def Follows (dev : Device) (ts : List (List UInt8)) (ps : List TlpPacket) (pos : Nat)
    (s : State) : Prop :=
  ∃ gone done todo offset,
    (stream done).length + offset = pos ∧ Reading dev ts gone ps done todo offset s

/-- The reads go wrong at once or with the next call. -/
def Doomed (dev : Device) (ps : List TlpPacket) (s : State) : Prop :=
  s.coming = [] → (nonEmpty ps).length < s.completed.length + s.readDataQueue.length →
    s.Transparent dev ps → ∃ s', s.fillReadRequest dev = some s' ∧ ¬ s'.Transparent dev ps

/-- A step goes on in the stream, or the packets are not reassembled and the reads go wrong. -/
def FollowsOrDoomed (dev : Device) (ts : List (List UInt8)) (ps : List TlpPacket) (pos : Nat)
    (s : State) : Prop :=
  (∃ pos', pos < pos' ∧ Follows dev ts ps pos' s) ∨
    (¬ Reassembles dev ts 0 ps ∧ Doomed dev ps s)

namespace State

@[simp] theorem advance_tlpBufferState (s : State) (L q : Nat) :
    (s.advance L q).tlpBufferState = s.tlpBufferState := by
  unfold advance
  split <;> rfl

@[simp] theorem advance_frame (s : State) (L q : Nat) : (s.advance L q).frame = s.frame := by
  unfold advance
  split <;> rfl

@[simp] theorem advance_coming (s : State) (L q : Nat) : (s.advance L q).coming = s.coming := by
  unfold advance
  split <;> rfl

@[simp] theorem advance_readDataQueue (s : State) (L q : Nat) :
    (s.advance L q).readDataQueue = s.readDataQueue := by
  unfold advance
  split <;> rfl

@[simp] theorem advance_completed (s : State) (L q : Nat) :
    (s.advance L q).completed = s.completed := by
  unfold advance
  split <;> rfl

/-- The rest of the buffer is at the beginning of `TlpFrameBuffer`. -/
theorem slice_keepRest (s : State) (l2 : List UInt8) (q : Nat) (needed : UInt16)
    (st : TlpBufState) :
    slice (s.keepRest l2 q needed st).frame.buffer 0 (l2.drop q).length
      = (l2.drop q).map some := by
  have hself := slice_copyIn_self s.frame.buffer 0 ((l2.drop q).map some)
  rwa [List.length_map] at hself

theorem keepRest_inFrame {s : State} (h : ∀ i, receiveBufferSize ≤ i → s.frame.buffer i = none)
    {l2 : List UInt8} {q : Nat} (hfits : (l2.drop q).length ≤ receiveBufferSize) (needed : UInt16)
    (st : TlpBufState) :
    ∀ i, receiveBufferSize ≤ i → (s.keepRest l2 q needed st).frame.buffer i = none := by
  intro i hi
  have hout : copyIn s.frame.buffer 0 ((l2.drop q).map some) i = s.frame.buffer i :=
    copyIn_outside _ _ _ (.inr (by rw [List.length_map]; omega))
  exact hout.trans (h i hi)

theorem fillReadRequest_eq {s : State} {l2 : List UInt8} {rest : List (List UInt8)}
    {length : UInt32} {queue : List UInt32} (htr : s.transfers = l2 :: rest) (hne : l2 ≠ [])
    (hqueue : s.readDataQueue = length :: queue) :
    s.fillReadRequest dev = some (s.readIrpCompletion dev l2 length) := by
  obtain ⟨b, l2, rfl⟩ := List.exists_cons_of_ne_nil hne
  simp only [fillReadRequest, htr, hqueue]

theorem fillReadRequest_nil {s : State} (htr : s.transfers = []) :
    s.fillReadRequest dev = none := by
  simp only [fillReadRequest, htr]

/-- Without a pending read nothing happens. -/
theorem fillReadRequest_idle {s : State} {l2 : List UInt8} {rest : List (List UInt8)}
    (htr : s.transfers = l2 :: rest) (hne : l2 ≠ []) (hqueue : s.readDataQueue = []) :
    s.fillReadRequest dev = none := by
  obtain ⟨b, l2, rfl⟩ := List.exists_cons_of_ne_nil hne
  simp only [fillReadRequest, htr, hqueue]

theorem readIrpCompletion_partialFill {s : State} (st : s.tlpBufferState = .partialFill)
    (l2 : List UInt8) (length : UInt32) :
    s.readIrpCompletion dev l2 length = s.secondLeg dev l2 length := by
  rw [readIrpCompletion, st]

/-- A completed read carries one of the packets. -/
theorem Transparent.exists_delivers {s : State} (h : s.Transparent dev ps) {r : CompletedRead}
    (hr : r ∈ s.completed) : ∃ p, p.payload ≠ [] ∧ Delivers dev r p := by
  obtain ⟨i, hi, rfl⟩ := List.mem_iff_getElem.mp hr
  have hlen := h.delivered.length_eq
  have hi' : i < ((nonEmpty ps).take s.completed.length).length := hlen ▸ hi
  have hmem := List.mem_of_mem_take (List.getElem_mem hi')
  exact ⟨_, by simpa using (List.mem_filter.mp hmem).2, h.delivered.get hi hi'⟩

/-- The second leg of a packet of length zero goes wrong. -/
theorem not_transparent_of_wrap {s : State} (hneeded : s.frame.bytesNeeded = 0 - s.frame.pktLength)
    (l2 : List UInt8) (length : UInt32) : ¬ (s.secondLeg dev l2 length).Transparent dev ps := by
  intro h
  dsimp only [secondLeg] at h
  split at h
  · exact h.noError rfl
  · obtain ⟨p, hpay, hdelivers⟩ := h.exists_delivers (by
      rw [advance_completed]
      exact List.mem_append_right _ (List.mem_singleton_self _))
    have heq := hdelivers.information_eq
    rw [hneeded] at heq
    exact information_ne_of_wrap hpay _ s.frame.pktLength heq

end State

/-- The next packet is handed over. -/
theorem Handed.next (h : Handed dev ts ps done (p :: back) s)
    (hgood : HandedOver dev ts (stream done).length p back)
    (hdelivered : List.Forall₂ (Delivers dev) s'.completed (nonEmpty (done ++ [p])))
    (hframe : s'.frame.buffer = s.frame.buffer)
    (hreads : ∀ length ∈ s'.readDataQueue, length ∈ s.readDataQueue) :
    Handed dev ts ps (done ++ [p]) back s' := by
  have hend : (stream (done ++ [p])).length = (stream done).length + p.bytes.length := by simp
  exact
    { packets := by rw [h.packets, List.append_cons]
      delivered := hdelivered
      inFrame := by rw [hframe]; exact h.inFrame
      reads := fun length hmem => h.reads length (hreads length hmem)
      reassembles := by
        rw [h.reassembles, hend]
        exact and_iff_right hgood
      spans := by
        rw [hend]
        exact h.spans.2 }

/-- The packets done stay so while a step only takes a part of the next one. -/
theorem Handed.keep (h : Handed dev ts ps done todo s) (hcompleted : s'.completed = s.completed)
    (hframe : ∀ i, receiveBufferSize ≤ i → s'.frame.buffer i = none)
    (hreads : s'.readDataQueue = s.readDataQueue) : Handed dev ts ps done todo s' where
  packets := h.packets
  delivered := by rw [hcompleted]; exact h.delivered
  inFrame := hframe
  reads := by rw [hreads]; exact h.reads
  reassembles := h.reassembles
  spans := h.spans

/-- A read that carries the next packet is added to those that carry the others. -/
theorem Handed.delivered_snoc (h : Handed dev ts ps done (p :: back) s) (hpay : p.payload ≠ [])
    {r : CompletedRead} (hr : Delivers dev r p) :
    List.Forall₂ (Delivers dev) (s.completed ++ [r]) (nonEmpty (done ++ [p])) := by
  rw [nonEmpty_append, show nonEmpty [p] = [p] by simp [nonEmpty, hpay]]
  exact List.rel_append h.delivered (.cons hr .nil)

theorem FollowsOrDoomed.mono {pos pos' : Nat} (h : FollowsOrDoomed dev ts ps pos s)
    (hle : pos' ≤ pos) : FollowsOrDoomed dev ts ps pos' s := by
  rcases h with ⟨pos'', hlt, hfollows⟩ | hdoomed
  · exact .inl ⟨pos'', hle.trans_lt hlt, hfollows⟩
  · exact .inr hdoomed

/-- The rest of the buffer is kept as a part of the next packet. -/
theorem Handed.keepRest (hcut : CutOf ts ps) (h : Handed dev ts ps done todo s)
    (hplaced : Placed ts gone s) (htr : s.transfers = l2 :: rest)
    (hpos : gone.flatten.length + q = (stream done).length + offset) (hq : q < l2.length)
    (hfits : l2.length - q ≤ receiveBufferSize) {needed : UInt16} {st : TlpBufState}
    (hphase : Phase (s.keepRest l2 q needed st) (offset + (l2.length - q)) todo) :
    FollowsOrDoomed dev ts ps ((stream done).length + offset) (s.keepRest l2 q needed st) := by
  refine .inl ⟨(stream done).length + (offset + (l2.length - q)), by omega, gone ++ [l2], done,
    todo, offset + (l2.length - q), rfl, ?_⟩
  exact
    { handed := h.keep rfl
        (State.keepRest_inFrame h.inFrame (by rwa [List.length_drop]) _ _) rfl
      placed := Placed.recycle hcut.nonempty
        ⟨hplaced.transfers, hplaced.inside, hplaced.fresh⟩ htr
      position := by
        simp only [State.keepRest, State.recycleL2FillBuffer, List.flatten_append,
          List.flatten_singleton, List.length_append]
        omega
      phase := hphase }

/-- The next packet is handed over by a read. -/
theorem Handed.deliver (hcut : CutOf ts ps) (h : Handed dev ts ps done (p :: back) s)
    (hplaced : Placed ts gone s) (hidle : s.tlpBufferState = .idle)
    (htr : s.transfers = l2 :: rest) (hpay : p.payload ≠ [])
    (hgood : HandedOver dev ts (stream done).length p back) {r : CompletedRead}
    (hr : Delivers dev r p) (hq : q ≤ l2.length)
    (hpos : gone.flatten.length + q = (stream done).length + p.bytes.length) :
    Follows dev ts ps ((stream done).length + p.bytes.length)
      ((s.completeIrp r).advance l2.length q) := by
  have hcompleted : Placed ts gone (s.completeIrp r) :=
    ⟨hplaced.transfers, hplaced.inside, hplaced.fresh⟩
  obtain ⟨gone', hplaced', hpos'⟩ := hcompleted.advance hcut.nonempty htr hq
  have hend : (stream (done ++ [p])).length = (stream done).length + p.bytes.length := by simp
  refine ⟨gone', done ++ [p], back, 0, hend, ?_⟩
  exact
    { handed := h.next hgood
        (by
          rw [State.advance_completed]
          exact h.delivered_snoc hpay hr)
        (by rw [State.advance_frame]; rfl)
        (by
          rw [State.advance_readDataQueue]
          exact fun length hmem => List.mem_of_mem_tail hmem)
      placed := hplaced'
      position := by omega
      phase := .idle _ (by rw [State.advance_tlpBufferState]; exact hidle) }

/-! ## The payload of a packet -/

/-- The payload of the next packet begins at `q` of the buffer, and a read is pending. -/
structure AtPayload (dev : Device) (ts gone rest : List (List UInt8))
    (ps done : List TlpPacket) (p : TlpPacket) (back : List TlpPacket) (s : State)
    (l2 : List UInt8) (length : UInt32) (q : Nat) : Prop where
  handed : Handed dev ts ps done (p :: back) s
  placed : Placed ts gone s
  idle : s.tlpBufferState = .idle
  buffer : s.transfers = l2 :: rest
  read : length ∈ s.readDataQueue
  inside : q < l2.length
  position : gone.flatten.length + q = (stream done).length + 2

namespace AtPayload

theorem behind (hcut : CutOf ts ps)
    (h : AtPayload dev ts gone rest ps done p back s l2 length q) :
    l2.drop q ++ (rest ++ s.coming).flatten = p.payload ++ stream back :=
  h.placed.behind hcut h.buffer h.handed.packets h.inside.le h.position

theorem room (h : AtPayload dev ts gone rest ps done p back s l2 length q) :
    ethHdrSize + p.payload.length ≤ length.toNat :=
  h.handed.reads length h.read p (by rw [h.handed.packets]; simp)

/-- The whole payload is in the buffer: the read at the head of the queue carries the packet. -/
theorem whole (hcut : CutOf ts ps) (h : AtPayload dev ts gone rest ps done p back s l2 length q)
    (hpay : p.payload ≠ []) (hend : q + p.payload.length ≤ l2.length) :
    FollowsOrDoomed dev ts ps ((stream done).length + 2)
      (s.takePacket dev l2 length q (p.length &&& maskLength)) := by
  have hlen : (p.length &&& maskLength).toNat = p.payload.length := p.length_eq
  have hpos := List.length_pos_iff.mpr hpay
  have hroom := h.room
  have hdata : (l2.drop q).take p.payload.length = p.payload := by
    have htake := congrArg (List.take p.payload.length) (h.behind hcut)
    rwa [List.take_append_of_le_length (by rw [List.length_drop]; omega), List.take_left] at htake
  let r : CompletedRead :=
    ⟨length, .success, dev.information .success p.payload.length, written (p.frame dev)⟩
  have htaken : s.takePacket dev l2 length q (p.length &&& maskLength)
      = (s.completeIrp r).advance l2.length (q + p.payload.length) := by
    rw [State.takePacket, if_pos ⟨p.masked_ne_zero.mpr hpay, by omega, by omega⟩, if_pos (by omega), hlen,
      hdata, fillIrpData_whole dev p hroom]
  have hposition := h.position
  have hgood : HandedOver dev ts (stream done).length p back := by
    rw [HandedOver, if_neg hpay]
    intro _
    rw [h.placed.eq h.buffer]
    exact (uncut_piece gone (rest ++ s.coming) l2).mono (by omega) (by omega)
  have hbytes := p.bytes_length
  rw [htaken]
  exact .inl ⟨_, by omega, h.handed.deliver hcut h.placed h.idle h.buffer hpay hgood
    (delivers_whole dev p hroom) hend (by omega)⟩

/-- The payload goes on behind the buffer: its first leg is kept. -/
theorem firstLeg (hcut : CutOf ts ps) (h : AtPayload dev ts gone rest ps done p back s l2 length q)
    (hend : l2.length < q + p.payload.length) :
    FollowsOrDoomed dev ts ps ((stream done).length + 2)
      (s.takePacket dev l2 length q (p.length &&& maskLength)) := by
  have hlen : (p.length &&& maskLength).toNat = p.payload.length := p.length_eq
  have hle := p.payload_length_le
  have hinside := h.inside
  have hroom := h.room
  have hn : (l2.drop q).length = l2.length - q := List.length_drop
  have hdata : l2.drop q = p.payload.take (l2.length - q) := by
    have htake := congrArg (List.take (l2.length - q)) (h.behind hcut)
    rwa [List.take_append_of_le_length hn.ge, List.take_append_of_le_length (by omega),
      List.take_of_length_le hn.le] at htake
  have htaken : s.takePacket dev l2 length q (p.length &&& maskLength)
      = s.keepRest l2 q (p.length &&& maskLength) .partialFill := by
    rw [State.takePacket, if_neg (fun hin => by omega), if_pos (by omega)]
  have htmp : (UInt16.ofNat (l2.length - q)).toNat = l2.length - q :=
    UInt16.toNat_ofNat_of_lt' (by change l2.length - q < 65536; omega)
  rw [htaken]
  refine h.handed.keepRest hcut h.placed h.buffer h.position hinside
    (by rw [receiveBufferSize]; omega) ?_
  exact .partialFill p back _ rfl (by omega) (by omega)
    (by
      have hslice := State.slice_keepRest s l2 q (p.length &&& maskLength) .partialFill
      rw [hn] at hslice
      rw [hslice, ← hdata])
    htmp
    (by
      rw [← hlen, ← htmp]
      exact UInt16.toNat_sub_of_le _ _ (UInt16.le_iff_toNat_le.mpr (by omega)))
    rfl

/-- An empty packet that is handed over: those behind it are empty and all in this buffer. -/
theorem swallow_followed (hcut : CutOf ts ps)
    (h : AtPayload dev ts gone rest ps done p back s l2 length q) (hpay : p.payload = [])
    (hgood : HandedOver dev ts (stream done).length p back) :
    Follows dev ts ps (stream ps).length (s.keepRest l2 q 0 .partialFill) ∧
      (stream done).length + 2 < (stream ps).length := by
  have hgood' := hgood
  rw [HandedOver, if_pos hpay] at hgood'
  obtain ⟨hempty, hfits, huncut⟩ := hgood'
  have hinside := h.inside
  have hposition := h.position
  have hn : (l2.drop q).length = l2.length - q := List.length_drop
  have hlast : gone.flatten.length + l2.length ∈ cuts ts := by
    rw [h.placed.eq h.buffer]
    exact end_mem_cuts gone (rest ++ s.coming) l2
  have hbehind := congrArg List.length (h.behind hcut)
  rw [List.length_append, List.length_append, hpay, stream_length_of_empty hempty, hn] at hbehind
  have hrest : l2.length - q = 2 * back.length := by
    have hend := huncut _ hlast
    simp only [List.length_nil] at hbehind
    omega
  have htotal : (stream ps).length = (stream done).length + 2 + 2 * back.length := by
    rw [h.handed.packets, stream_append, List.length_append, stream_cons, List.length_append,
      p.bytes_length, hpay, stream_length_of_empty hempty, List.length_nil]
    omega
  have hnothing : nonEmpty ps = nonEmpty done := by
    rw [h.handed.packets, nonEmpty_append,
      nonEmpty_eq_nil.mpr (List.forall_mem_cons.mpr ⟨hpay, hempty⟩), List.append_nil]
  have hre : Reassembles dev ts 0 ps := by
    refine h.handed.reassembles.mpr ⟨hgood, ?_⟩
    rw [p.bytes_length, hpay]
    exact reassembles_of_empty hempty hfits huncut
  refine ⟨⟨gone ++ [l2], ps, [], 0, rfl, ?_⟩, by omega⟩
  exact
    { handed :=
        { packets := (List.append_nil ps).symm
          delivered := by
            rw [hnothing]
            exact h.handed.delivered
          inFrame := State.keepRest_inFrame h.handed.inFrame (by omega) _ _
          reads := h.handed.reads
          reassembles := iff_of_true hre trivial
          spans := trivial }
      placed := Placed.recycle hcut.nonempty
        ⟨h.placed.transfers, h.placed.inside, h.placed.fresh⟩ h.buffer
      position := by
        simp only [State.keepRest, State.recycleL2FillBuffer, List.flatten_append,
          List.flatten_singleton, List.length_append]
        omega
      phase := .swallowed rfl }

/-- An empty packet that is not handed over: what is behind it is taken for the first leg of a
packet whose length is zero. -/
theorem swallow_doomed (hcut : CutOf ts ps)
    (h : AtPayload dev ts gone rest ps done p back s l2 length q) (hpay : p.payload = [])
    (hgood : ¬ HandedOver dev ts (stream done).length p back) :
    Doomed dev ps (s.keepRest l2 q 0 .partialFill) := by
  intro hcoming henough htransparent
  have hcoming' : s.coming = [] := hcoming
  have hinside := h.inside
  have hposition := h.position
  have hn : (l2.drop q).length = l2.length - q := List.length_drop
  have htransfers : (s.keepRest l2 q 0 .partialFill).transfers = rest := by
    simp only [State.keepRest, State.recycleL2FillBuffer, h.buffer, List.tail_cons]
  cases rest with
  | nil =>
    -- nothing can be done any more, so that everything must have been handed over
    refine absurd ?_ hgood
    have hall := htransparent.all hcoming (State.fillReadRequest_nil htransfers) henough.le
    have hempty : ∀ p' ∈ p :: back, p'.payload = [] := by
      have hdone := h.handed.delivered.length_eq
      rw [h.handed.packets, nonEmpty_append, List.length_append] at hall
      change s.completed.length = _ at hall
      exact nonEmpty_eq_nil.mp (List.length_eq_zero_iff.mp (by omega))
    obtain ⟨-, hback⟩ := List.forall_mem_cons.mp hempty
    have hbehind := congrArg List.length (h.behind hcut)
    rw [hcoming', hpay, List.append_nil, List.flatten_nil, List.append_nil, List.nil_append, hn,
      stream_length_of_empty hback] at hbehind
    rw [HandedOver, if_pos hpay]
    refine ⟨hback, ?_, ?_⟩
    · -- otherwise the copy has written behind `TlpFrameBuffer`
      by_contra hover
      have hcell := htransparent.inFrame receiveBufferSize le_rfl
      have hwritten : copyIn s.frame.buffer 0 ((l2.drop q).map some) receiveBufferSize ≠ none := by
        have hin := copyIn_inside s.frame.buffer 0 ((l2.drop q).map some) (k := receiveBufferSize)
          (by rw [List.length_map]; omega)
        rw [Nat.zero_add] at hin
        rw [hin]
        simp
      exact hwritten hcell
    · rw [h.placed.eq h.buffer]
      exact (uncut_piece gone ([] ++ s.coming) l2).mono (by omega) (by omega)
  | cons l2' rest' =>
    have hne : l2' ≠ [] := hcut.nonempty l2' (by rw [h.placed.eq h.buffer]; simp)
    obtain ⟨length', queue, hqueue⟩ := List.exists_cons_of_ne_nil (List.ne_nil_of_mem h.read)
    refine ⟨_, State.fillReadRequest_eq htransfers hne hqueue, fun hbad => ?_⟩
    rw [State.readIrpCompletion_partialFill rfl] at hbad
    exact State.not_transparent_of_wrap rfl l2' length' hbad

/-- A packet whose header has been read. -/
theorem takePacket (hcut : CutOf ts ps)
    (h : AtPayload dev ts gone rest ps done p back s l2 length q) :
    FollowsOrDoomed dev ts ps ((stream done).length + 2)
      (s.takePacket dev l2 length q (p.length &&& maskLength)) := by
  by_cases hpay : p.payload = []
  · have hzero : p.length &&& maskLength = 0 := by
      by_contra hne
      exact p.masked_ne_zero.mp hne hpay
    have htaken : s.takePacket dev l2 length q (p.length &&& maskLength)
        = s.keepRest l2 q 0 .partialFill := by
      rw [hzero, State.takePacket, if_neg (fun hin => hin.1 rfl), UInt16.toNat_zero,
        if_pos (Nat.zero_le _)]
    rw [htaken]
    by_cases hgood : HandedOver dev ts (stream done).length p back
    · obtain ⟨hfollows, hlt⟩ := h.swallow_followed hcut hpay hgood
      exact .inl ⟨_, hlt, hfollows⟩
    · exact .inr ⟨fun hre => hgood (h.handed.reassembles.mp hre).1,
        h.swallow_doomed hcut hpay hgood⟩
  · rcases Nat.lt_or_ge l2.length (q + p.payload.length) with hend | hend
    · exact h.firstLeg hcut hend
    · exact h.whole hcut hpay hend

end AtPayload

end Transport.TlpReads
