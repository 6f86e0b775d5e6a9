-- SUMMARY: Exactly which TLP packets and cuts the read path puts together again, over all orders of transfers, reads and calls.
import QcomUsb.Transport.TlpReassembly

/-!
# Transparent TLP reads

Every call of the read thread follows the stream, or a packet is not handed over as it is. A run that
goes on to the end decides which.
-/

namespace Transport.TlpReads

open Memory Transition Pieces

variable {dev : Device} {ts gone rest : List (List UInt8)} {ps done todo back : List TlpPacket}
variable {p : TlpPacket} {s s' : State} {l2 : List UInt8} {length : UInt32} {offset : Nat}

/-! ## A call of the read thread -/

namespace Reading

/-- `QCTLP_BUF_STATE_IDLE`. -/
theorem takeHeader (hcut : CutOf ts ps) (h : Reading dev ts gone ps done todo 0 s)
    (st : s.tlpBufferState = .idle) (htr : s.transfers = l2 :: rest)
    (hread : length ∈ s.readDataQueue) :
    FollowsOrDoomed dev ts ps (stream done).length (s.takeHeader dev l2 length) := by
  have hinside := h.placed.inside l2 rest htr
  have hposition := h.position
  have hbehind := h.placed.behind hcut htr h.handed.packets hinside.le h.position
  have hn : (l2.drop s.dataPtr).length = l2.length - s.dataPtr := List.length_drop
  cases todo with
  | nil =>
    have hnil := (List.append_eq_nil_iff.mp hbehind).1
    rw [hnil, List.length_nil] at hn
    omega
  | cons p back =>
    have htaken : ∀ k, k ≤ 2 → k ≤ l2.length - s.dataPtr →
        (l2.drop s.dataPtr).take k = p.bytes.take k := by
      intro k hk hle
      have htake := congrArg (List.take k) hbehind
      rwa [List.take_append_of_le_length (by omega), List.drop_zero, stream_cons,
        List.take_append_of_le_length (by rw [p.bytes_length]; omega)] at htake
    dsimp only [State.takeHeader]
    split
    · next hmany =>
      have hheader : leWord (l2.getD s.dataPtr 0) (l2.getD (s.dataPtr + 1) 0) = p.length := by
        refine p.leWord_bytes ((htaken 2 le_rfl (by omega)).symm.trans ?_)
        rw [List.drop_eq_getElem_cons (by omega), List.drop_eq_getElem_cons (by omega)]
        simp only [List.take_succ_cons, List.take_zero]
        rw [List.getD_eq_getElem _ _ (by omega), List.getD_eq_getElem _ _ (by omega)]
      rw [hheader]
      have hat : AtPayload dev ts gone rest ps done p back s l2 length (s.dataPtr + 2) :=
        { handed := h.handed
          placed := h.placed
          idle := st
          buffer := htr
          read := hread
          inside := by omega
          position := by omega }
      exact (hat.takePacket hcut).mono (by omega)
    · split
      · next htwo =>
        refine h.handed.keepRest hcut h.placed htr h.position hinside
          (by rw [receiveBufferSize]; omega) ?_
        rw [htwo]
        refine .hdrOnly p back rfl ?_
        have hslice := State.slice_keepRest s l2 s.dataPtr 2 .hdrOnly
        rw [hn, htwo] at hslice
        rw [hslice, ← htaken 2 le_rfl htwo.ge, List.take_of_length_le (by omega)]
      · next hfew =>
        have hone : l2.length - s.dataPtr = 1 := by omega
        rw [if_pos (by omega)]
        refine h.handed.keepRest hcut h.placed htr h.position hinside
          (by rw [receiveBufferSize]; omega) ?_
        rw [hone]
        refine .partialHdr p back rfl ?_ ?_ ?_
        · have hslice := State.slice_keepRest s l2 s.dataPtr 2 .partialHdr
          rw [hn, hone] at hslice
          rw [hslice, ← htaken 1 (by omega) hone.ge, List.take_of_length_le (by omega)]
        · simp only [State.keepRest, State.recycleL2FillBuffer, hone]
          rfl
        · simp only [State.keepRest, State.recycleL2FillBuffer, hone]
          rfl

/-- `QCTLP_BUF_STATE_PARTIAL_HDR`. -/
theorem completeHeader (hcut : CutOf ts ps) (h : Reading dev ts gone ps done (p :: back) 1 s)
    (hbytes : slice s.frame.buffer 0 1 = (p.bytes.take 1).map some)
    (hpktLength : s.frame.pktLength = 1) (hneeded : s.frame.bytesNeeded = 1)
    (htr : s.transfers = l2 :: rest) :
    FollowsOrDoomed dev ts ps ((stream done).length + 1) (s.completeHeader l2) := by
  have hinside := h.placed.inside l2 rest htr
  have hposition := h.position
  have hbehind := h.placed.behind hcut htr h.handed.packets hinside.le h.position
  have hdata : (l2.drop s.dataPtr).take 1 = (p.bytes.drop 1).take 1 := by
    have htake := congrArg (List.take 1) hbehind
    rwa [List.take_append_of_le_length (by rw [List.length_drop]; omega), stream_cons,
      List.drop_append_of_le_length (by rw [p.bytes_length]; omega),
      List.take_append_of_le_length (by rw [List.length_drop, p.bytes_length]; omega)] at htake
  let data : List (Option UInt8) := ((p.bytes.drop 1).take 1).map some
  let t : State := { s with
    frame := { s.frame with buffer := copyIn s.frame.buffer 1 data }, tlpBufferState := .hdrOnly }
  have hdone : s.completeHeader l2 = t.advance l2.length (s.dataPtr + 1) := by
    simp only [State.completeHeader, hpktLength, hneeded, UInt16.toNat_one, hdata, t, data]
  have hlen : data.length = 1 := by simp [data]
  have hplaced : Placed ts gone t := ⟨h.placed.transfers, h.placed.inside, h.placed.fresh⟩
  obtain ⟨gone', hplaced', hpos'⟩ :=
    hplaced.advance hcut.nonempty htr (q := s.dataPtr + 1) hinside
  rw [hdone]
  refine .inl ⟨(stream done).length + 2, by omega, gone', done, p :: back, 2, rfl, ?_⟩
  exact
    { handed := h.handed.keep (by rw [State.advance_completed])
        (by
          intro i hi
          have hout : copyIn s.frame.buffer 1 data i = s.frame.buffer i :=
            copyIn_outside _ _ _ (.inr (by rw [hlen]; exact le_trans (by decide) hi))
          rw [State.advance_frame]
          exact hout.trans (h.handed.inFrame i hi))
        (by rw [State.advance_readDataQueue])
      placed := hplaced'
      position := by omega
      phase := by
        refine .hdrOnly p back (by rw [State.advance_tlpBufferState]) ?_
        rw [State.advance_frame]
        have hfirst : slice (copyIn s.frame.buffer 1 data) 0 1 = (p.bytes.take 1).map some :=
          (slice_copyIn_of_disjoint (.inl le_rfl)).trans hbytes
        have hsecond : slice (copyIn s.frame.buffer 1 data) 1 1 = data := by
          have hself := slice_copyIn_self s.frame.buffer 1 data
          rwa [hlen] at hself
        calc slice (copyIn s.frame.buffer 1 data) 0 (1 + 1)
            = slice (copyIn s.frame.buffer 1 data) 0 1 ++ slice (copyIn s.frame.buffer 1 data) 1 1 :=
              slice_add _ 0 1 1
          _ = (p.bytes.take 1).map some ++ data := by rw [hfirst, hsecond]
          _ = (p.bytes.take (1 + 1)).map some := by rw [List.take_add, List.map_append] }

/-- `QCTLP_BUF_STATE_HDR_ONLY`. -/
theorem takePayload (hcut : CutOf ts ps) (h : Reading dev ts gone ps done (p :: back) 2 s)
    (hbytes : slice s.frame.buffer 0 2 = (p.bytes.take 2).map some)
    (htr : s.transfers = l2 :: rest) (hread : length ∈ s.readDataQueue) :
    FollowsOrDoomed dev ts ps ((stream done).length + 2) (s.takePayload dev l2 length) := by
  have hcells : [s.frame.buffer 0, s.frame.buffer 1] = (p.bytes.take 2).map some := hbytes
  have hlo := congrArg (fun cells => cells.getD 0 none) hcells
  have hhi := congrArg (fun cells => cells.getD 1 none) hcells
  have hheader : leWord ((s.frame.buffer 0).getD 0) ((s.frame.buffer 1).getD 0) = p.length := by
    change s.frame.buffer 0 = _ at hlo
    change s.frame.buffer 1 = _ at hhi
    rw [hlo, hhi]
    exact p.leWord_bytes rfl
  have hat : AtPayload dev ts gone rest ps done p back
      { s.recycleFrameBuffer with tlpBufferState := .idle } l2 length s.dataPtr :=
    { handed := h.handed.keep rfl h.handed.inFrame rfl
      placed := ⟨h.placed.transfers, h.placed.inside, h.placed.fresh⟩
      idle := rfl
      buffer := htr
      read := hread
      inside := h.placed.inside l2 rest htr
      position := h.position }
  rw [State.takePayload, hheader]
  exact hat.takePacket hcut

/-- The second leg is in the buffer, because the packet has only two transfers. -/
theorem rest_le {n : Nat} (h : Reading dev ts gone ps done (p :: back) (2 + n) s)
    (hlt : n < p.payload.length)
    (hfresh : s.dataPtr = 0) (htr : s.transfers = l2 :: rest) : p.payload.length - n ≤ l2.length := by
  have hposition := h.position
  have hinside := h.placed.inside l2 rest htr
  have hspan := h.handed.spans.1
  have hbegin := length_mem_cuts gone (l2 :: (rest ++ s.coming))
  have hend := end_mem_cuts gone (rest ++ s.coming) l2
  rw [← h.placed.eq htr] at hbegin hend
  rw [p.bytes_length] at hspan
  by_contra hover
  have hsame := hspan _ hbegin _ hend (by omega) (by omega) (by omega) (by omega)
  omega

/-- In `IPOnlyMode` the second leg is written where the Ethernet header and the first leg are. -/
theorem not_handedOver (h : Reading dev ts gone ps done (p :: back) (2 + n) s) (hpos : 0 < n)
    (hlt : n < p.payload.length) (hfresh : s.dataPtr = 0) (htr : s.transfers = l2 :: rest)
    (hmode : dev.ipOnlyMode) : ¬ Reassembles dev ts 0 ps := by
  intro hre
  have hposition := h.position
  have hgood := (h.handed.reassembles.mp hre).1
  rw [HandedOver, if_neg (List.length_pos_iff.mp (hpos.trans hlt))] at hgood
  have hbegin := length_mem_cuts gone (l2 :: (rest ++ s.coming))
  rw [← h.placed.eq htr] at hbegin
  rcases hgood hmode _ hbegin with hle | hge <;> omega

/-- The second leg is in the buffer: the read gets both legs. -/
theorem secondLeg_eq (hcut : CutOf ts ps) {n : Nat}
    (h : Reading dev ts gone ps done (p :: back) (2 + n) s) (hlt : n < p.payload.length)
    (hbytes : slice s.frame.buffer 0 n = (p.payload.take n).map some)
    (hpktLength : s.frame.pktLength.toNat = n)
    (hneeded : s.frame.bytesNeeded.toNat = p.payload.length - n) (hfresh : s.dataPtr = 0)
    (htr : s.transfers = l2 :: rest)
    (hroom : ethHdrSize + p.payload.length ≤ length.toNat) :
    s.secondLeg dev l2 length
      = ({ s.recycleFrameBuffer with tlpBufferState := .idle }.completeIrp
        ⟨length, .success, dev.information .success p.payload.length, legs dev p n⟩).advance
          l2.length (s.dataPtr + (p.payload.length - n)) := by
  have hfit := h.rest_le hlt hfresh htr
  have hsum : n + (p.payload.length - n) = p.payload.length := by omega
  have hdata : (l2.drop s.dataPtr).take (p.payload.length - n) = p.payload.drop n := by
    have hbehind := h.placed.behind hcut htr h.handed.packets (hfresh ▸ Nat.zero_le _) h.position
    have htake := congrArg (List.take (p.payload.length - n)) hbehind
    rwa [List.take_append_of_le_length (by rw [List.length_drop]; omega), stream_cons,
      List.drop_append_of_le_length (by rw [p.bytes_length]; omega), ← List.drop_drop,
      p.bytes_drop, List.take_left' List.length_drop] at htake
  have hroom' : ethHdrSize + ((p.payload.take n).map some).length ≤ length.toNat := by
    rw [List.length_map, List.length_take]
    omega
  simp only [State.secondLeg, hneeded, hpktLength, if_neg (Nat.not_lt.mpr hfit), hbytes,
    fillIrpData_success dev hroom', hdata, hsum, legs]

/-- `QCTLP_BUF_STATE_PARTIAL_FILL`. -/
theorem secondLeg (hcut : CutOf ts ps) {n : Nat}
    (h : Reading dev ts gone ps done (p :: back) (2 + n) s) (hpos : 0 < n)
    (hlt : n < p.payload.length)
    (hbytes : slice s.frame.buffer 0 n = (p.payload.take n).map some)
    (hpktLength : s.frame.pktLength.toNat = n)
    (hneeded : s.frame.bytesNeeded.toNat = p.payload.length - n) (hfresh : s.dataPtr = 0)
    (htr : s.transfers = l2 :: rest) (hread : length ∈ s.readDataQueue) :
    FollowsOrDoomed dev ts ps ((stream done).length + (2 + n)) (s.secondLeg dev l2 length) := by
  have hposition := h.position
  have hfit := h.rest_le hlt hfresh htr
  have hpay : p.payload ≠ [] := List.length_pos_iff.mp (hpos.trans hlt)
  have hroom : ethHdrSize + p.payload.length ≤ length.toNat :=
    h.handed.reads length hread p (by rw [h.handed.packets]; simp)
  rw [h.secondLeg_eq hcut hlt hbytes hpktLength hneeded hfresh htr hroom]
  cases hmode : dev.ipOnlyMode with
  | true =>
    refine .inr ⟨h.not_handedOver hpos hlt hfresh htr hmode, fun _ _ htransparent => ?_⟩
    obtain ⟨p', hpay', hdelivers⟩ := htransparent.exists_delivers (by
      rw [State.advance_completed]
      exact List.mem_append_right _ (List.mem_singleton_self _))
    exact absurd (legs_last hmode hlt) (hdelivers.last_ne_none hpay')
  | false =>
    have hdelivers := delivers_whole dev p hroom
    rw [← legs_eq_written hmode hlt.le] at hdelivers
    have hgood : HandedOver dev ts (stream done).length p back := by
      rw [HandedOver, if_neg hpay, hmode]
      exact fun hfalse => absurd hfalse Bool.false_ne_true
    have hhanded : Handed dev ts ps done (p :: back)
        { s.recycleFrameBuffer with tlpBufferState := .idle } :=
      h.handed.keep rfl h.handed.inFrame rfl
    have hbytes := p.bytes_length
    refine .inl ⟨(stream done).length + p.bytes.length, by omega, ?_⟩
    exact hhanded.deliver hcut ⟨h.placed.transfers, h.placed.inside, h.placed.fresh⟩ rfl htr hpay
      hgood hdelivers (by omega) (by omega)

/-- A call goes on in the stream, or the packets are not reassembled. -/
theorem fill (hcut : CutOf ts ps) (h : Reading dev ts gone ps done todo offset s)
    (hfill : s.fillReadRequest dev = some s') :
    FollowsOrDoomed dev ts ps ((stream done).length + offset) s' := by
  cases htr : s.transfers with
  | nil =>
    rw [State.fillReadRequest_nil htr] at hfill
    cases hfill
  | cons l2 rest =>
    have hinside := h.placed.inside l2 rest htr
    have hne : l2 ≠ [] := List.length_pos_iff.mp (Nat.zero_lt_of_lt hinside)
    cases hqueue : s.readDataQueue with
    | nil =>
      rw [State.fillReadRequest_idle htr hne hqueue] at hfill
      cases hfill
    | cons length queue =>
      rw [State.fillReadRequest_eq htr hne hqueue] at hfill
      obtain rfl := Option.some.inj hfill
      have hread : length ∈ s.readDataQueue := by
        rw [hqueue]
        exact List.mem_cons_self
      cases h.phase with
      | idle todo st =>
        rw [State.readIrpCompletion, st]
        exact h.takeHeader hcut st htr hread
      | swallowed st =>
        have hbehind := h.placed.behind hcut htr h.handed.packets hinside.le h.position
        have hnil := congrArg List.length (List.append_eq_nil_iff.mp hbehind).1
        rw [List.length_drop, List.length_nil] at hnil
        omega
      | partialHdr p back st bytes pktLength bytesNeeded =>
        rw [State.readIrpCompletion, st]
        exact h.completeHeader hcut bytes pktLength bytesNeeded htr
      | hdrOnly p back st bytes =>
        rw [State.readIrpCompletion, st]
        exact h.takePayload hcut bytes htr hread
      | partialFill p back n st pos lt bytes pktLength bytesNeeded fresh =>
        rw [State.readIrpCompletion, st]
        exact h.secondLeg hcut pos lt bytes pktLength bytesNeeded fresh htr hread

end Reading

/-! ## The other steps -/

theorem Phase.congr (h : Phase s offset todo) (hst : s'.tlpBufferState = s.tlpBufferState)
    (hframe : s'.frame = s.frame) (hptr : s'.dataPtr = s.dataPtr) : Phase s' offset todo := by
  cases h with
  | idle todo st => exact .idle todo (hst.trans st)
  | swallowed st => exact .swallowed (hst.trans st)
  | partialHdr p back st bytes pktLength bytesNeeded =>
    rw [← hframe] at bytes pktLength bytesNeeded
    exact .partialHdr p back (hst.trans st) bytes pktLength bytesNeeded
  | hdrOnly p back st bytes =>
    rw [← hframe] at bytes
    exact .hdrOnly p back (hst.trans st) bytes
  | partialFill p back n st pos lt bytes pktLength bytesNeeded fresh =>
    rw [← hframe] at bytes pktLength bytesNeeded
    exact .partialFill p back n (hst.trans st) pos lt bytes pktLength bytesNeeded (hptr.trans fresh)

/-- When nothing is behind it, the packets have been taken up to the header of an empty one. -/
theorem Phase.eq_nil_or (h : Phase s offset todo) (hnil : (stream todo).drop offset = []) :
    todo = [] ∨ ∃ p, todo = [p] ∧ p.payload = [] := by
  have hlen := List.drop_eq_nil_iff.mp hnil
  have hcons : ∀ (p : TlpPacket) (back : List TlpPacket),
      (stream (p :: back)).length = 2 + p.payload.length + (stream back).length := by
    intro p back
    rw [stream_cons, List.length_append, p.bytes_length]
  cases h with
  | idle todo _ =>
    left
    cases todo with
    | nil => rfl
    | cons p back =>
      rw [hcons] at hlen
      omega
  | swallowed _ => exact .inl rfl
  | partialHdr p back _ _ _ _ =>
    rw [hcons] at hlen
    omega
  | hdrOnly p back _ _ =>
    rw [hcons] at hlen
    have hpay : p.payload = [] := List.length_eq_zero_iff.mp (by omega)
    refine .inr ⟨p, ?_, hpay⟩
    cases back with
    | nil => rfl
    | cons p' back =>
      rw [hcons] at hlen
      omega
  | partialFill p back n _ _ lt _ _ _ _ =>
    rw [hcons] at hlen
    omega

theorem Placed.transferCompletes (hne : ∀ t ∈ ts, t ≠ []) (h : Placed ts gone s)
    {t : List UInt8} {coming : List (List UInt8)} (hcoming : s.coming = t :: coming) :
    Placed ts gone { s with transfers := s.transfers ++ [t], coming := coming } where
  transfers := by rw [h.transfers, hcoming, List.append_assoc, List.singleton_append]
  inside := by
    intro l2 rest heq
    change s.dataPtr < l2.length
    cases htr : s.transfers with
    | nil =>
      change s.transfers ++ [t] = l2 :: rest at heq
      rw [htr, List.nil_append] at heq
      obtain ⟨rfl, -⟩ := List.cons.inj heq
      rw [h.fresh htr]
      exact List.length_pos_iff.mpr (hne t (by rw [h.transfers, hcoming]; simp))
    | cons l2' rest' =>
      change s.transfers ++ [t] = l2 :: rest at heq
      rw [htr, List.cons_append] at heq
      obtain ⟨rfl, -⟩ := List.cons.inj heq
      exact h.inside l2' rest' htr
  fresh := fun hnil => absurd hnil (List.append_ne_nil_of_right_ne_nil _ (List.cons_ne_nil t []))

/-- A transfer completes, or a read is queued. -/
theorem Follows.other (hcut : CutOf ts ps) {pos : Nat} (h : Follows dev ts ps pos s) {op : Op}
    (hroomy : op.Roomy ps) (hop : op ≠ .fill) {o : Unit}
    (hstep : step dev s op = some (s', o)) : Follows dev ts ps pos s' := by
  obtain ⟨gone, done, todo, offset, hpos, h⟩ := h
  refine ⟨gone, done, todo, offset, hpos, ?_⟩
  cases op with
  | transferCompletes =>
    cases hcoming : s.coming with
    | nil => simp [step, hcoming] at hstep
    | cons t coming =>
      simp only [step, hcoming, Option.some.injEq, Prod.mk.injEq] at hstep
      obtain ⟨rfl, -⟩ := hstep
      exact
        { handed := h.handed.keep rfl h.handed.inFrame rfl
          placed := h.placed.transferCompletes hcut.nonempty hcoming
          position := h.position
          phase := h.phase.congr rfl rfl rfl }
  | read length =>
    simp only [step, Option.some.injEq, Prod.mk.injEq] at hstep
    obtain ⟨rfl, -⟩ := hstep
    exact
      { handed :=
          { h.handed with
            reads := by
              intro length' hmem
              rcases List.mem_append.mp hmem with hold | hnew
              · exact h.handed.reads length' hold
              · obtain rfl := List.mem_singleton.mp hnew
                exact hroomy }
        placed := ⟨h.placed.transfers, h.placed.inside, h.placed.fresh⟩
        position := h.position
        phase := h.phase.congr rfl rfl rfl }
  | fill => exact absurd rfl hop

/-! ## Over runs -/

theorem Follows.initial (hcut : CutOf ts ps) : Follows dev ts ps 0 (initial ts) := by
  refine ⟨[], [], ps, 0, rfl, ?_⟩
  exact
    { handed :=
        { packets := rfl
          delivered := .nil
          inFrame := fun _ _ => rfl
          reads := fun length hmem => absurd hmem List.not_mem_nil
          reassembles := Iff.rfl
          spans := hcut.spans }
      placed := ⟨rfl, fun _ _ heq => absurd heq.symm (List.cons_ne_nil _ _), fun _ => rfl⟩
      position := rfl
      phase := .idle ps rfl }

/-- The bytes that are still to be handled. -/
def State.left (s : State) : Nat :=
  s.transfers.flatten.length + s.coming.flatten.length - s.dataPtr

theorem Follows.pos_add_left {pos : Nat} (h : Follows dev ts ps pos s) :
    pos + s.left = ts.flatten.length := by
  obtain ⟨gone, done, todo, offset, rfl, h⟩ := h
  have htotal : ts.flatten.length
      = gone.flatten.length + (s.transfers.flatten.length + s.coming.flatten.length) := by
    rw [h.placed.transfers]
    simp
  have hptr : s.dataPtr ≤ s.transfers.flatten.length := by
    cases htr : s.transfers with
    | nil => exact (h.placed.fresh htr).le
    | cons l2 rest =>
      have hinside := h.placed.inside l2 rest htr
      rw [List.flatten_cons, List.length_append]
      omega
  have hposition := h.position
  rw [State.left]
  omega

/-- When nothing is left to do and a read is pending, the packets have been reassembled. -/
theorem Reading.finished (hcut : CutOf ts ps) (h : Reading dev ts gone ps done todo offset s)
    (hcoming : s.coming = []) (hfill : s.fillReadRequest dev = none)
    (hread : s.readDataQueue ≠ []) : nonEmpty todo = [] ∧ Reassembles dev ts 0 ps := by
  cases htr : s.transfers with
  | nil =>
    have hnil := h.placed.behind_nil hcut htr hcoming h.handed.packets h.position
    rcases h.phase.eq_nil_or hnil with rfl | ⟨p, rfl, hpay⟩
    · exact ⟨rfl, h.handed.reassembles.mpr trivial⟩
    · refine ⟨by simp [nonEmpty, hpay], h.handed.reassembles.mpr ⟨?_, trivial⟩⟩
      rw [HandedOver, if_pos hpay]
      exact ⟨fun q hq => absurd hq List.not_mem_nil, Nat.zero_le _, fun b _ => Nat.le_total b _⟩
  | cons l2 rest =>
    have hinside := h.placed.inside l2 rest htr
    have hne : l2 ≠ [] := List.length_pos_iff.mp (Nat.zero_lt_of_lt hinside)
    obtain ⟨length, queue, hqueue⟩ := List.exists_cons_of_ne_nil hread
    rw [State.fillReadRequest_eq htr hne hqueue] at hfill
    cases hfill

/-- While the stream is followed, the reads carry the packets. -/
theorem Follows.transparent (hcut : CutOf ts ps) {pos : Nat} (h : Follows dev ts ps pos s) :
    s.Transparent dev ps := by
  obtain ⟨gone, done, todo, offset, -, h⟩ := h
  have hdone := h.handed.delivered.length_eq
  have hall : nonEmpty ps = nonEmpty done ++ nonEmpty todo := by
    rw [h.handed.packets, nonEmpty_append]
  exact
    { delivered := by
        rw [hall, hdone, List.take_left]
        exact h.handed.delivered
      inFrame := h.handed.inFrame
      noError := by
        intro herror
        cases h.phase with
        | idle _ st => rw [herror] at st; cases st
        | swallowed st => rw [herror] at st; cases st
        | partialHdr _ _ st _ _ _ => rw [herror] at st; cases st
        | hdrOnly _ _ st _ => rw [herror] at st; cases st
        | partialFill _ _ _ st _ _ _ _ _ _ => rw [herror] at st; cases st
      all := by
        intro hcoming hfill henough
        rw [hall, List.length_append] at henough ⊢
        by_cases hread : s.readDataQueue = []
        · rw [hread, List.length_nil] at henough
          omega
        · rw [(h.finished hcut hcoming hfill hread).1, List.length_nil]
          omega }

/-- The transfers to come, and the reads that are pending or completed, stay. -/
structure Counted (s s' : State) : Prop where
  coming : s'.coming = s.coming
  reads : s'.completed.length + s'.readDataQueue.length
    = s.completed.length + s.readDataQueue.length

theorem Counted.trans {s'' : State} (h : Counted s s') (h' : Counted s' s'') : Counted s s'' :=
  ⟨h'.coming.trans h.coming, h'.reads.trans h.reads⟩

namespace State

theorem counted_idle (s : State) :
    Counted s { s.recycleFrameBuffer with tlpBufferState := .idle } := ⟨rfl, rfl⟩

theorem counted_advance (s : State) (L q : Nat) : Counted s (s.advance L q) :=
  ⟨by simp, by simp⟩

theorem counted_completeIrp {s : State} (h : s.readDataQueue ≠ []) (r : CompletedRead) :
    Counted s (s.completeIrp r) := by
  obtain ⟨length, queue, hqueue⟩ := List.exists_cons_of_ne_nil h
  refine ⟨rfl, ?_⟩
  simp only [completeIrp, hqueue, List.length_append, List.length_nil, List.length_cons,
    List.tail_cons]
  omega

theorem counted_takePacket {s : State} (h : s.readDataQueue ≠ []) (l2 : List UInt8)
    (length : UInt32) (q : Nat) (pktLen : UInt16) :
    Counted s (s.takePacket dev l2 length q pktLen) := by
  unfold takePacket
  split
  · split
    · exact (counted_completeIrp h _).trans (counted_advance _ _ _)
    · split
      · split
        · exact ⟨rfl, rfl⟩
        · exact counted_advance s _ _
      · exact counted_completeIrp h _
  · split
    · exact ⟨rfl, rfl⟩
    · split
      · split
        · exact ⟨rfl, rfl⟩
        · exact ⟨rfl, rfl⟩
      · exact counted_completeIrp h _

theorem counted_readIrpCompletion {s : State} (h : s.readDataQueue ≠ []) (l2 : List UInt8)
    (length : UInt32) : Counted s (s.readIrpCompletion dev l2 length) := by
  have hidle : ({ s.recycleFrameBuffer with tlpBufferState := .idle } : State).readDataQueue ≠ [] :=
    h
  unfold readIrpCompletion
  split
  · dsimp only [takeHeader]
    split
    · exact counted_takePacket h _ _ _ _
    · split
      · exact ⟨rfl, rfl⟩
      · split
        · exact ⟨rfl, rfl⟩
        · exact ⟨rfl, rfl⟩
  · exact (counted_idle s).trans (counted_takePacket hidle _ _ _ _)
  · exact ⟨(counted_advance _ _ _).coming, (counted_advance _ _ _).reads⟩
  · dsimp only [secondLeg]
    split
    · exact ⟨rfl, rfl⟩
    · exact (counted_idle s).trans ((counted_completeIrp hidle _).trans (counted_advance _ _ _))
  · unfold discard
    split
    · exact ⟨rfl, rfl⟩
    · exact ⟨rfl, rfl⟩

theorem counted_fillReadRequest {s s' : State} (h : s.fillReadRequest dev = some s') :
    Counted s s' := by
  unfold fillReadRequest at h
  split at h
  · cases h
  · obtain rfl := Option.some.inj h
    exact ⟨rfl, rfl⟩
  · cases h
  · next length queue _ hqueue =>
    obtain rfl := Option.some.inj h
    exact counted_readIrpCompletion (by rw [hqueue]; exact List.cons_ne_nil _ _) _ _

end State

/-- A run of admissible steps visits the state. -/
def Visited (dev : Device) (ts : List (List UInt8)) (ps : List TlpPacket) (s : State) : Prop :=
  ∃ ops, (∀ op ∈ ops, op.Roomy ps) ∧ s ∈ (step dev).visits (initial ts) ops

theorem Visited.step (h : Visited dev ts ps s) {op : Op} (hroomy : op.Roomy ps) {o : Unit}
    (hstep : step dev s op = some (s', o)) : Visited dev ts ps s' := by
  obtain ⟨ops, hops, hs⟩ := h
  obtain ⟨ops', hpre, hs'⟩ := Machine.exists_mem_visits_snoc hs hstep
  refine ⟨ops' ++ [op], fun op' hmem => ?_, hs'⟩
  rcases List.mem_append.mp hmem with hold | hnew
  · exact hops op' (hpre.subset hold)
  · obtain rfl := List.mem_singleton.mp hnew
    exact hroomy

theorem Visited.fill (h : Visited dev ts ps s) (hfill : s.fillReadRequest dev = some s') :
    Visited dev ts ps s' :=
  have hstep : TlpReads.step dev s .fill = some (s', ()) := by
    simp only [TlpReads.step, hfill, Option.map_some]
  have hroomy : Op.Roomy ps .fill := trivial
  h.step hroomy hstep

/-- A read of the largest length is long enough. -/
theorem roomy_max (ps : List TlpPacket) : Op.Roomy ps (.read 0xffffffff) := by
  intro p _
  have hle := p.payload_length_le
  simp only [ethHdrSize]
  change 14 + p.payload.length ≤ 4294967295
  omega

/-- If no run goes wrong, the packets have been reassembled at the end of one: all transfers come,
enough reads are queued, and the read thread calls until nothing is left. -/
theorem Follows.reassembles (hcut : CutOf ts ps)
    (htransparent : ∀ s, Visited dev ts ps s → s.Transparent dev ps) {pos : Nat}
    (h : Follows dev ts ps pos s) (hvisited : Visited dev ts ps s) : Reassembles dev ts 0 ps := by
  -- on what is still to come, to be queued and to be read
  induction hn : s.coming.length
      + ((nonEmpty ps).length + 1 - (s.completed.length + s.readDataQueue.length))
      + (ts.flatten.length - pos) using Nat.strong_induction_on generalizing s pos with
  | h n ih =>
    subst hn
    have hpos := h.pos_add_left
    cases hcoming : s.coming with
    | cons t coming =>
      have hstep : step dev s .transferCompletes
          = some ({ s with transfers := s.transfers ++ [t], coming := coming }, ()) := by
        simp only [step, hcoming]
      have hroomy : Op.Roomy ps .transferCompletes := trivial
      refine ih _ ?_ (h.other hcut hroomy (by simp) hstep) (hvisited.step hroomy hstep) rfl
      rw [hcoming, List.length_cons]
      dsimp only
      omega
    | nil =>
      rcases Nat.lt_or_ge (nonEmpty ps).length (s.completed.length + s.readDataQueue.length)
        with henough | hfew
      · cases hfill : s.fillReadRequest dev with
        | none =>
          obtain ⟨gone, done, todo, offset, -, h⟩ := h
          have hdone := h.handed.delivered.length_eq
          rw [h.handed.packets, nonEmpty_append, List.length_append] at henough
          have hread : s.readDataQueue ≠ [] := by
            rintro hnil
            rw [hnil, List.length_nil] at henough
            omega
          exact (h.finished hcut hcoming hfill hread).2
        | some s' =>
          have hvisited' := hvisited.fill hfill
          have hcounted := State.counted_fillReadRequest hfill
          obtain ⟨gone, done, todo, offset, rfl, h⟩ := h
          rcases h.fill hcut hfill with ⟨pos', hlt, hfollows⟩ | ⟨-, hdoomed⟩
          · refine ih _ ?_ hfollows hvisited' rfl
            have hpos' := hfollows.pos_add_left
            rw [hcounted.coming, hcounted.reads]
            omega
          · obtain ⟨s'', hfill', hbad⟩ := hdoomed (hcounted.coming.trans hcoming)
              (by rw [hcounted.reads]; exact henough) (htransparent s' hvisited')
            exact absurd (htransparent s'' (hvisited'.fill hfill')) hbad
      · have hstep : step dev s (.read 0xffffffff)
            = some ({ s with readDataQueue := s.readDataQueue ++ [0xffffffff] }, ()) := rfl
        refine ih _ ?_ (h.other hcut (roomy_max ps) (by simp) hstep)
          (hvisited.step (roomy_max ps) hstep) rfl
        rw [hcoming]
        simp only [List.length_append, List.length_singleton]
        omega

/-- If the packets are reassembled, every run follows the stream. -/
theorem Reassembles.follows (hcut : CutOf ts ps) (hre : Reassembles dev ts 0 ps) {ops : List Op}
    (hops : ∀ op ∈ ops, op.Roomy ps) :
    ∀ s ∈ (step dev).visits (initial ts) ops, ∃ pos, Follows dev ts ps pos s := by
  refine Machine.visits_all ?_ ⟨0, Follows.initial hcut⟩ hops
  rintro s op s' o ⟨pos, h⟩ hroomy hstep
  cases op with
  | fill =>
    obtain ⟨_, hfill, heq⟩ := Option.map_eq_some_iff.mp hstep
    obtain ⟨rfl, -⟩ := Prod.mk.inj heq
    obtain ⟨gone, done, todo, offset, -, h⟩ := h
    rcases h.fill hcut hfill with ⟨pos', -, hfollows⟩ | ⟨hbroken, -⟩
    · exact ⟨pos', hfollows⟩
    · exact absurd hre hbroken
  | transferCompletes => exact ⟨pos, h.other hcut hroomy (by simp) hstep⟩
  | read length => exact ⟨pos, h.other hcut hroomy (by simp) hstep⟩

/-- Then every call handles some bytes. -/
theorem Reassembles.calls_le (hcut : CutOf ts ps) (hre : Reassembles dev ts 0 ps) {ops : List Op}
    (hops : ∀ op ∈ ops, op.Roomy ps) : calls dev ts ops ≤ (stream ps).length := by
  have htotal : (initial ts).left = (stream ps).length := by
    have hfollows : Follows dev ts ps 0 (initial ts) := Follows.initial hcut
    have hstart := hfollows.pos_add_left
    rw [hcut.flatten_eq] at hstart
    omega
  rw [← htotal]
  refine Machine.countP_fires_le ?_
  rintro ⟨s, op⟩ hp s' o hstep
  obtain ⟨pos, h⟩ := hre.follows hcut hops s (Machine.fst_mem_visits_of_mem_fires hp)
  have hleft := h.pos_add_left
  have hroomy := hops op (Machine.mem_of_mem_fires hp)
  cases op with
  | fill =>
    obtain ⟨_, hfill, heq⟩ := Option.map_eq_some_iff.mp hstep
    obtain ⟨rfl, -⟩ := Prod.mk.inj heq
    obtain ⟨gone, done, todo, offset, rfl, h⟩ := h
    rcases h.fill hcut hfill with ⟨pos', hlt, hfollows⟩ | ⟨hbroken, -⟩
    · have hleft' := hfollows.pos_add_left
      simp only [Op.isFill, if_true]
      omega
    · exact absurd hre hbroken
  | transferCompletes =>
    have hleft' := (h.other hcut hroomy (by simp) hstep).pos_add_left
    simp only [Op.isFill, Bool.false_eq_true, if_false]
    omega
  | read length =>
    have hleft' := (h.other hcut hroomy (by simp) hstep).pos_add_left
    simp only [Op.isFill, Bool.false_eq_true, if_false]
    omega

/-- However a stream of TLP packets is cut into transfers, with at most two for a packet, and in
whatever order the transfers complete, reads are queued and the read thread calls: the reads carry
exactly the packets that are not empty, after no more calls than there are bytes, exactly if all
packets are handed over as they are. -/
theorem visits_transparent_iff (dev : Device) {ts : List (List UInt8)} {ps : List TlpPacket}
    (hcut : CutOf ts ps) :
    (∀ ops : List Op, (∀ op ∈ ops, op.Roomy ps) →
      (∀ s ∈ (step dev).visits (initial ts) ops, s.Transparent dev ps) ∧
        calls dev ts ops ≤ (stream ps).length) ↔ Reassembles dev ts 0 ps := by
  constructor
  · intro htransparent
    have hvisited : Visited dev ts ps (initial ts) :=
      ⟨[], fun op hmem => absurd hmem List.not_mem_nil, List.mem_singleton_self _⟩
    refine (Follows.initial hcut).reassembles hcut ?_ hvisited
    rintro s ⟨ops, hops, hs⟩
    exact (htransparent ops hops).1 s hs
  · intro hre ops hops
    refine ⟨fun s hs => ?_, hre.calls_le hcut hops⟩
    obtain ⟨pos, h⟩ := hre.follows hcut hops s hs
    exact h.transparent hcut

/-- Two packets, the first one with its payload in two transfers, and an empty one at the end. -/
theorem visits_transparent_split :
    CutOf [[3, 0, 0x45, 8], [9, 1, 0, 7, 0, 0]]
        [⟨3, [0x45, 8, 9], by decide⟩, ⟨1, [7], by decide⟩, ⟨0, [], by decide⟩] ∧
      ∀ ops : List Op,
        (∀ op ∈ ops, op.Roomy [⟨3, [0x45, 8, 9], by decide⟩, ⟨1, [7], by decide⟩,
          ⟨0, [], by decide⟩]) →
        (∀ s ∈ (step ⟨false, List.replicate 14 0, rfl, 4096⟩).visits
            (initial [[3, 0, 0x45, 8], [9, 1, 0, 7, 0, 0]]) ops,
          s.Transparent ⟨false, List.replicate 14 0, rfl, 4096⟩
            [⟨3, [0x45, 8, 9], by decide⟩, ⟨1, [7], by decide⟩, ⟨0, [], by decide⟩]) ∧
          calls ⟨false, List.replicate 14 0, rfl, 4096⟩
            [[3, 0, 0x45, 8], [9, 1, 0, 7, 0, 0]] ops ≤ 10 :=
  ⟨⟨by decide, by decide, by decide⟩,
    (visits_transparent_iff _ ⟨by decide, by decide, by decide⟩).mpr (by decide)⟩

/-- In `IPOnlyMode` a packet whose payload is cut is not read as it was sent. -/
theorem not_visits_transparent_ipOnly :
    ¬ ∀ (dev : Device) (ts : List (List UInt8)) (ps : List TlpPacket), CutOf ts ps →
      ∀ ops : List Op, (∀ op ∈ ops, op.Roomy ps) →
        (∀ s ∈ (step dev).visits (initial ts) ops, s.Transparent dev ps) ∧
          calls dev ts ops ≤ (stream ps).length := by
  intro h
  let dev : Device := ⟨true, List.replicate 14 0, rfl, 4096⟩
  let ts : List (List UInt8) := [[3, 0, 0x45], [8, 9]]
  let ops : List Op := [.transferCompletes, .transferCompletes, .read 100, .fill, .fill]
  have hvisit : ∃ s ∈ (step dev).visits (initial ts) ops, ∃ r ∈ s.completed,
      (r.buffer (r.information - 1)).isNone := by
    decide +kernel
  obtain ⟨s, hs, r, hr, hnone⟩ := hvisit
  have hroomy : ∀ op ∈ ops, op.Roomy [⟨3, [0x45, 8, 9], by decide⟩] := by
    simp [ops, Op.Roomy, ethHdrSize]
  have hcut : CutOf ts [⟨3, [0x45, 8, 9], by decide⟩] := ⟨by decide, by decide, by decide⟩
  have htransparent := (h dev ts _ hcut ops hroomy).1 s hs
  obtain ⟨p, hpay, hdelivers⟩ := htransparent.exists_delivers hr
  exact hdelivers.last_ne_none hpay (Option.isNone_iff_eq_none.mp hnone)

end Transport.TlpReads
