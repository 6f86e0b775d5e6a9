-- SUMMARY: The QMI response parsers that write their outputs through GetTLV, and when they change an output only by what was received.
import QcomUsb.UsbNet.GetTlv

/-!
# QMI response parsers

`QMIWDSEventResp` reads the packet statistics of an event report and
`QMIWDASetDataFormatResp` the aggregation limits of the device. Both hand their outputs
to `GetTLV`, which writes as many bytes as the TLV claims to have.
-/

namespace UsbNet

open Memory

/-! ## The message in a read buffer -/

/-- `sizeof( sQMUX ) + 3`: the QMUX header and the SDU. -/
abbrev qmuxSduSize : Nat := 9

/-- `pBuffer + offset` and `buffSize - offset`. -/
def QmiMessage.skipSdu (pBuffer : QmiMessage) : QmiMessage where
  data := fun i => pBuffer.data (qmuxSduSize + i)
  messageLen := pBuffer.messageLen - 9

/-- `GetQMIMessageID`. -/
def getQMIMessageID (msg : QmiMessage) : Int :=
  if msg.messageLen.toNat < 2 then -enodata
  else ((ofBytes (msg.data 0) (msg.data 1)).toNat : Int)

variable {bufferLen : Nat}

/-- `GetTLV`: no result if its loop never ends. -/
def callGetTLV (msg : QmiMessage) (type : UInt8) (pOutDataBuf : Buf bufferLen) :
    Option (TlvResult bufferLen) := getTLV 65536 msg type pOutDataBuf

/-- `ValidQMIMessage`, on the mandatory TLV. -/
def validQMIMessage (msg : QmiMessage) : Option Int :=
  (callGetTLV msg 2 (fun _ => 0 : Buf 4)).map fun r =>
    if r.result = 4 then
      if ofBytes (r.pOutDataBuf 0) (r.pOutDataBuf 1) ≠ 0 then
        ((ofBytes (r.pOutDataBuf 2) (r.pOutDataBuf 3)).toNat : Int)
      else 0
    else -enomsg

/-! ## Packet statistics -/

/-- The statistics outputs of `QMIWDSEventResp`. -/
inductive WdsStat where
  | txOk | rxOk | txErr | rxErr | txOfl | rxOfl | txBytesOk | rxBytesOk
  deriving DecidableEq, Repr

namespace WdsStat

/-- The TLV an output is read from. -/
def type : WdsStat → UInt8
  | txOk => 0x10
  | rxOk => 0x11
  | txErr => 0x12
  | rxErr => 0x13
  | txOfl => 0x14
  | rxOfl => 0x15
  | txBytesOk => 0x19
  | rxBytesOk => 0x1A

/-- The packet counters are `u32`, the byte counters `u64`. -/
def size : WdsStat → Nat
  | txBytesOk => 8
  | rxBytesOk => 8
  | _ => 4

/-- The order in which they are read. -/
def all : List WdsStat := [txOk, rxOk, txErr, rxErr, txOfl, rxOfl, txBytesOk, rxBytesOk]

theorem mem_all (s : WdsStat) : s ∈ all := by cases s <;> decide

end WdsStat

/-- The statistics, each as it lies in memory. -/
abbrev WdsStats := (s : WdsStat) → Buf s.size

/-- The outputs of `QMIWDSEventResp`. -/
structure WdsOutputs where
  stats : WdsStats
  pbLinkState : Bool
  pbReconfigure : Bool

/-- `GetTLV` for one output after another, whatever it returns. -/
def readStats (msg : QmiMessage) : List WdsStat → WdsStats → Option WdsStats
  | [], out => some out
  | s :: rest, out =>
    (callGetTLV msg s.type (out s)).bind fun r =>
      readStats msg rest (Function.update out s r.pOutDataBuf)

/-- The packet service status: one or two bytes. -/
def readPktStatus (msg : QmiMessage) (out : WdsOutputs) : Option (Int × WdsOutputs) :=
  (callGetTLV msg 0x01 (fun _ => 0 : Buf 2)).map fun r =>
    let out :=
      if 1 ≤ r.result then { out with pbLinkState := r.pOutDataBuf ⟨0, Nat.zero_lt_two⟩ == 0x02 }
      else out
    let out :=
      if r.result = 2 then { out with pbReconfigure := r.pOutDataBuf ⟨1, Nat.one_lt_two⟩ == 0x01 }
      else out
    if r.result < 0 then (r.result, out) else (0, out)

/-- `QMIWDSEventResp`. -/
def qmiwdsEventResp (pBuffer : QmiMessage) (out : WdsOutputs) : Option (Int × WdsOutputs) :=
  if pBuffer.messageLen.toNat < qmuxSduSize then some (-enomem, out)
  else
    let msg := pBuffer.skipSdu
    let result := getQMIMessageID msg
    -- Set Event Report
    if result = 0x01 then
      (readStats msg WdsStat.all out.stats).map fun stats => (0, { out with stats := stats })
    -- Get PKG SRVC Status
    else if result = 0x22 ∨ result = 0x20 then readPktStatus msg out
    else some (-efault, out)

/-! ## Aggregation limits -/

/-- The limits that `QMIWDASetDataFormatResp` fills in the device context. -/
inductive WdaLimit where
  | dlDatagram | dlDatagramSize | ulDatagram | ulDatagramSize
  deriving DecidableEq, Repr

namespace WdaLimit

/-- The TLV a limit is read from. -/
def type : WdaLimit → UInt8
  | dlDatagram => 0x15
  | dlDatagramSize => 0x16
  | ulDatagram => 0x17
  | ulDatagramSize => 0x18

/-- The order in which they are read. -/
def all : List WdaLimit := [dlDatagram, dlDatagramSize, ulDatagram, ulDatagramSize]

end WdaLimit

/-- The limits, each a `u32` as it lies in memory. -/
abbrev WdaLimits := WdaLimit → Buf 4

/-- `GetTLV` for one limit after another, up to the first that is not of four bytes. -/
def readLimits (msg : QmiMessage) : List WdaLimit → WdaLimits → Option (Int × WdaLimits)
  | [], out => some (0, out)
  | l :: rest, out =>
    (callGetTLV msg l.type (out l)).bind fun r =>
      let out := Function.update out l r.pOutDataBuf
      if r.result ≠ 4 then some (-efault, out) else readLimits msg rest out

/-- `QMIWDASetDataFormatResp`. -/
def qmiwdaSetDataFormatResp (pBuffer : QmiMessage) (out : WdaLimits) : Option (Int × WdaLimits) :=
  if pBuffer.messageLen.toNat < qmuxSduSize then some (-enomem, out)
  else
    let msg := pBuffer.skipSdu
    if getQMIMessageID msg ≠ 0x20 then some (-efault, out)
    else
      (validQMIMessage msg).bind fun result =>
        if result ≠ 0 then some (-efault, out) else readLimits msg WdaLimit.all out

/-! ## What one call of GetTLV leaves -/

/-- The scan stops at this TLV of the type. -/
def Meets (msg : QmiMessage) (type : UInt8) (pos : UInt16) : Prop :=
  ∃ k, pos = tlvPos msg 4 k ∧ (∀ i < k, Passed msg type (tlvPos msg 4 i)) ∧
    InScan msg pos ∧ msg.data pos.toNat = type

/-- The value of the TLV at `pos`, as long as its length field says. -/
def QmiMessage.valueAt (msg : QmiMessage) (pos : UInt16) : List UInt8 :=
  slice msg.data (pos.toNat + 3) (msg.tlvSize pos)

/-- The output holds these bytes at its start. -/
def Buf.Holds (out : Buf bufferLen) (value : List UInt8) : Prop := out.overwrite value = out

variable {msg : QmiMessage} {type : UInt8} {out new : Buf bufferLen} {pos : UInt16}

@[simp] theorem valueAt_length : (msg.valueAt pos).length = msg.tlvSize pos := slice_length ..

theorem callGetTLV_eq_some {r : TlvResult bufferLen} :
    callGetTLV msg type out = some r ↔ Loop.Returns (scan msg type out) 4 r := getTLV_positions

variable (out) in
/-- A call returns exactly if the scan ends. -/
theorem callGetTLV_isSome : (callGetTLV msg type out).isSome ↔ NoFullTurn msg type 4 := by
  rw [← scan_ends_iff out, Option.isSome_iff_exists]
  exact exists_congr fun _ => callGetTLV_eq_some

/-- The scan stops at one TLV of the type only. -/
theorem Meets.unique {pos' : UInt16} (h : Meets msg type pos) (h' : Meets msg type pos') :
    pos = pos' := by
  obtain ⟨k, rfl, hall, hin, heq⟩ := h
  obtain ⟨k', rfl, hall', hin', heq'⟩ := h'
  rcases Nat.lt_trichotomy k k' with hlt | rfl | hgt
  · exact absurd heq (hall' k hlt).2
  · rfl
  · exact absurd heq' (hall k' hgt).2

theorem Meets.returns {r : TlvResult bufferLen} (h : Meets msg type pos)
    (hr : scan msg type out pos = .inl r) : callGetTLV msg type out = some r := by
  obtain ⟨k, rfl, hall, -, -⟩ := h
  exact callGetTLV_eq_some.mpr (Loop.returns_iff_turn.mpr ⟨k, _, turn_scan_iff.mpr ⟨rfl, hall⟩, hr⟩)

variable (out) in
/-- A TLV that fits is taken. -/
theorem Meets.call_found (h : Meets msg type pos) (hfit : msg.tlvSize pos ≤ bufferLen) :
    callGetTLV msg type out = some ⟨msg.tlvSize pos, out.overwrite (msg.valueAt pos)⟩ := by
  obtain ⟨k, -, -, hin, heq⟩ := id h
  exact h.returns (scan_found hin heq hfit)

/-- A call takes the TLV at which the scan stops if it fits, and leaves the output alone
otherwise. -/
theorem callGetTLV_cases {r : TlvResult bufferLen} (h : callGetTLV msg type out = some r) :
    (∃ pos, Meets msg type pos ∧ msg.tlvSize pos ≤ bufferLen ∧
        r = ⟨msg.tlvSize pos, out.overwrite (msg.valueAt pos)⟩) ∨
      ((∀ pos, Meets msg type pos → bufferLen < msg.tlvSize pos) ∧ r.result < 0 ∧
        r.pOutDataBuf = out) := by
  obtain ⟨k, pos, hturn, hr⟩ := Loop.returns_iff_turn.mp (callGetTLV_eq_some.mp h)
  obtain ⟨rfl, hall⟩ := turn_scan_iff.mp hturn
  by_cases hin : InScan msg (tlvPos msg 4 k)
  · by_cases heq : msg.data (tlvPos msg 4 k).toNat = type
    · have hmeets : Meets msg type (tlvPos msg 4 k) := ⟨k, rfl, hall, hin, heq⟩
      rcases Nat.lt_or_ge bufferLen (msg.tlvSize (tlvPos msg 4 k)) with hlong | hfit
      · rw [scan_tooLong hin heq hlong] at hr
        obtain rfl := Sum.inl.inj hr
        exact .inr ⟨fun pos hpos => hpos.unique hmeets ▸ hlong, by simp, rfl⟩
      · rw [scan_found hin heq hfit] at hr
        exact .inl ⟨_, hmeets, hfit, (Sum.inl.inj hr).symm⟩
    · rw [scan_passed ⟨hin, heq⟩] at hr
      cases hr
  · rw [scan_end hin] at hr
    obtain rfl := Sum.inl.inj hr
    refine .inr ⟨fun pos hpos => absurd hpos ?_, by simp, rfl⟩
    rintro ⟨j, rfl, hbefore, hin', heq'⟩
    rcases Nat.lt_trichotomy j k with hlt | rfl | hgt
    · exact (hall j hlt).2 heq'
    · exact hin hin'
    · exact hin (hbefore k hgt).1

/-- Taking the TLV leaves the output as it is: nothing fits, or the bytes are there
already. -/
def TakesNothingNew (msg : QmiMessage) (type : UInt8) (out : Buf bufferLen) : Prop :=
  ∀ pos, Meets msg type pos → msg.tlvSize pos ≤ bufferLen → out.Holds (msg.valueAt pos)

theorem callGetTLV_unchanged_iff {r : TlvResult bufferLen}
    (h : callGetTLV msg type out = some r) :
    r.pOutDataBuf = out ↔ TakesNothingNew msg type out := by
  obtain ⟨pos, hmeets, hfit, rfl⟩ | ⟨hlong, -, hout⟩ := callGetTLV_cases h
  · exact ⟨fun hout pos' hpos' _ => hpos'.unique hmeets ▸ hout, fun hall => hall pos hmeets hfit⟩
  · refine ⟨fun _ pos hpos hfit => ?_, fun _ => hout⟩
    exact absurd hfit (Nat.not_le.mpr (hlong pos hpos))

/-- A value of the size of the output replaces it. -/
theorem ofFn_overwrite {value : List UInt8} (h : value.length = bufferLen) :
    List.ofFn (out.overwrite value) = value := by
  subst h
  apply List.ext_getElem
  · simp
  · intro i _ hi
    simp [Buf.overwrite, List.getD, hi]

/-! ## Statistics -/

/-- The output is what it was, or the complete value of its TLV. -/
def UnchangedOrReceived (msg : QmiMessage) (type : UInt8) (out new : Buf bufferLen) : Prop :=
  new = out ∨ ∃ item, Tlv.first? msg.tlvBytes type = some item ∧ List.ofFn new = item.value

/-- The TLV at which the scan stops is the first complete one and has the size of the
output, unless it does not fit or its bytes are in the output already. -/
def TakenWhole (msg : QmiMessage) (type : UInt8) (out : Buf bufferLen) : Prop :=
  ∀ pos, Meets msg type pos → msg.tlvSize pos ≤ bufferLen →
    out.Holds (msg.valueAt pos) ∨
      msg.tlvSize pos = bufferLen ∧
        Tlv.first? msg.tlvBytes type = some ⟨type, msg.valueAt pos⟩

/-- The scan stops at the first complete TLV of the type that has a value. -/
theorem meets_first {item : Tlv.Item} (h : Tlv.first? msg.tlvBytes type = some item)
    (hpos : 0 < item.value.length) :
    ∃ pos, Meets msg type pos ∧ item = ⟨type, msg.valueAt pos⟩ := by
  obtain ⟨k, hall, hcomplete, heq, hvalue, -⟩ :=
    reaches_first (show Tlv.first? (msg.tlvBytesFrom 4) type = some item from h)
  have hin : InScan msg (tlvPos msg 4 k) := by
    rw [hvalue, slice_length] at hpos
    unfold InScan
    omega
  have htype : item.type = type := by simpa using List.find?_some h
  refine ⟨_, ⟨k, rfl, hall, hin, heq⟩, ?_⟩
  rw [← htype, QmiMessage.valueAt, ← hvalue]

theorem callGetTLV_received_iff {r : TlvResult bufferLen}
    (h : callGetTLV msg type out = some r) :
    UnchangedOrReceived msg type out r.pOutDataBuf ↔ TakenWhole msg type out := by
  obtain ⟨pos, hmeets, hfit, rfl⟩ | ⟨hlong, -, hout⟩ := callGetTLV_cases h
  · constructor
    · intro hkept pos' hpos' _
      obtain rfl := hpos'.unique hmeets
      rcases hkept with hsame | ⟨item, hfirst, hnew⟩
      · exact .inl hsame
      · have hlength : item.value.length = bufferLen := by rw [← hnew, List.length_ofFn]
        rcases Nat.eq_zero_or_pos bufferLen with rfl | hpos
        · exact .inl (Subsingleton.elim _ _)
        · obtain ⟨pos', hpos', rfl⟩ := meets_first hfirst (hlength ▸ hpos)
          obtain rfl := hpos'.unique hmeets
          exact .inr ⟨valueAt_length ▸ hlength, hfirst⟩
    · intro hwhole
      refine (hwhole pos hmeets hfit).imp id fun hfirst => ⟨_, hfirst.2, ?_⟩
      exact ofFn_overwrite (valueAt_length.trans hfirst.1)
  · refine ⟨fun _ pos hpos hfit => ?_, fun _ => .inl hout⟩
    exact absurd hfit (Nat.not_le.mpr (hlong pos hpos))

variable {todo : List WdsStat} {stats stats' : WdsStats}

theorem readStats_isSome :
    (readStats msg todo stats).isSome ↔ ∀ s ∈ todo, NoFullTurn msg s.type 4 := by
  induction todo generalizing stats with
  | nil => simp [readStats]
  | cons s todo ih =>
    rw [List.forall_mem_cons, ← callGetTLV_isSome (stats s), readStats]
    cases h : callGetTLV msg s.type (stats s) with
    | none => simp
    | some r => simpa using ih

/-- Each statistic is what its own call of `GetTLV` leaves. -/
theorem readStats_spec (hnodup : todo.Nodup) (h : readStats msg todo stats = some stats') :
    (∀ s ∈ todo, ∃ r, callGetTLV msg s.type (stats s) = some r ∧ stats' s = r.pOutDataBuf) ∧
      ∀ s ∉ todo, stats' s = stats s := by
  induction todo generalizing stats with
  | nil =>
    obtain rfl := Option.some.inj h
    exact ⟨nofun, fun _ _ => rfl⟩
  | cons s todo ih =>
    obtain ⟨hfresh, hnodup⟩ := List.nodup_cons.mp hnodup
    obtain ⟨r, hr, hrest⟩ := Option.bind_eq_some_iff.mp h
    obtain ⟨hread, hother⟩ := ih hnodup hrest
    constructor
    · rintro u (_ | ⟨_, hu⟩)
      · exact ⟨r, hr, by rw [hother s hfresh, Function.update_self]⟩
      · have hne : u ≠ s := fun heq => hfresh (heq ▸ hu)
        simpa only [Function.update_of_ne hne] using hread u hu
    · intro u hu
      rw [List.mem_cons, not_or] at hu
      obtain ⟨hne, hu⟩ := hu
      rw [hother u hu, Function.update_of_ne hne]

/-- `QMIWDSEventResp` returns, and each statistic is unchanged or received. -/
def KeepsStats (pBuffer : QmiMessage) (out : WdsOutputs) : Prop :=
  ∃ result out', qmiwdsEventResp pBuffer out = some (result, out') ∧
    ∀ s, UnchangedOrReceived pBuffer.skipSdu s.type (out.stats s) (out'.stats s)

/-- The event report can be read: every scan ends, and the statistics TLVs it stops at are
taken whole. -/
def StatsTakenWhole (pBuffer : QmiMessage) (out : WdsOutputs) : Prop :=
  qmuxSduSize ≤ pBuffer.messageLen.toNat →
    (getQMIMessageID pBuffer.skipSdu = 0x01 →
      ∀ s : WdsStat, NoFullTurn pBuffer.skipSdu s.type 4 ∧
        TakenWhole pBuffer.skipSdu s.type (out.stats s)) ∧
    (getQMIMessageID pBuffer.skipSdu = 0x22 ∨ getQMIMessageID pBuffer.skipSdu = 0x20 →
      NoFullTurn pBuffer.skipSdu 0x01 4)

theorem readStats_keeps_iff :
    (∃ stats', readStats msg WdsStat.all stats = some stats' ∧
        ∀ s, UnchangedOrReceived msg s.type (stats s) (stats' s)) ↔
      ∀ s : WdsStat, NoFullTurn msg s.type 4 ∧ TakenWhole msg s.type (stats s) := by
  constructor
  · rintro ⟨stats', h, hkept⟩ s
    obtain ⟨r, hr, hout⟩ := (readStats_spec (by decide) h).1 s s.mem_all
    refine ⟨(callGetTLV_isSome _).mp (Option.isSome_of_eq_some hr), ?_⟩
    exact (callGetTLV_received_iff hr).mp (hout ▸ hkept s)
  · intro hall
    obtain ⟨stats', h⟩ := Option.isSome_iff_exists.mp
      (readStats_isSome.mpr fun s (_ : s ∈ WdsStat.all) => (hall s).1)
    refine ⟨stats', h, fun s => ?_⟩
    obtain ⟨r, hr, hout⟩ := (readStats_spec (by decide) h).1 s s.mem_all
    exact hout ▸ (callGetTLV_received_iff hr).mpr (hall s).2

/-- The packet service status is no statistic. -/
theorem readPktStatus_stats {out : WdsOutputs} {res : Int × WdsOutputs}
    (h : readPktStatus msg out = some res) : res.2.stats = out.stats := by
  obtain ⟨r, -, rfl⟩ := Option.map_eq_some_iff.mp h
  dsimp only
  split_ifs <;> rfl

theorem readPktStatus_keeps_iff (out : WdsOutputs) :
    (∃ result out', readPktStatus msg out = some (result, out') ∧
        ∀ s, UnchangedOrReceived msg s.type (out.stats s) (out'.stats s)) ↔
      NoFullTurn msg 0x01 4 := by
  rw [← callGetTLV_isSome (fun _ => 0 : Buf 2), Option.isSome_iff_exists]
  constructor
  · rintro ⟨result, out', h, -⟩
    obtain ⟨r, hr, -⟩ := Option.map_eq_some_iff.mp h
    exact ⟨r, hr⟩
  · rintro ⟨r, hr⟩
    obtain ⟨res, hres⟩ : ∃ res, readPktStatus msg out = some res :=
      ⟨_, Option.map_eq_some_iff.mpr ⟨r, hr, rfl⟩⟩
    exact ⟨res.1, res.2, hres, fun s => .inl (by rw [readPktStatus_stats hres])⟩

theorem keepsStats_iff (pBuffer : QmiMessage) (out : WdsOutputs) :
    KeepsStats pBuffer out ↔ StatsTakenWhole pBuffer out := by
  unfold KeepsStats StatsTakenWhole qmiwdsEventResp
  rcases Nat.lt_or_ge pBuffer.messageLen.toNat qmuxSduSize with hshort | hlong
  · rw [if_pos hshort]
    exact iff_of_true ⟨_, _, rfl, fun _ => .inl rfl⟩ fun hlong => absurd hlong (by omega)
  · rw [if_neg (by omega)]
    simp only [hlong, forall_const]
    by_cases hid : getQMIMessageID pBuffer.skipSdu = 0x01
    · rw [if_pos hid, ← readStats_keeps_iff]
      simp [hid]
    · rw [if_neg hid]
      simp only [hid, false_implies, true_and]
      by_cases hstatus :
          getQMIMessageID pBuffer.skipSdu = 0x22 ∨ getQMIMessageID pBuffer.skipSdu = 0x20
      · rw [if_pos hstatus, ← readPktStatus_keeps_iff out]
        simp only [hstatus, forall_const]
      · rw [if_neg hstatus]
        exact iff_of_true ⟨_, _, rfl, fun _ => .inl rfl⟩ fun h => absurd h hstatus

/-! ## Limits -/

/-- The TLV of the limit is there with four bytes. -/
def Sized (msg : QmiMessage) (l : WdaLimit) : Prop :=
  ∃ pos, Meets msg l.type pos ∧ msg.tlvSize pos = 4

theorem callGetTLV_four_iff {l : WdaLimit} {out : Buf 4} {r : TlvResult 4}
    (h : callGetTLV msg l.type out = some r) : r.result = 4 ↔ Sized msg l := by
  obtain ⟨pos, hmeets, -, rfl⟩ | ⟨hlong, hneg, -⟩ := callGetTLV_cases h
  · constructor
    · intro hfour
      simp only at hfour
      exact ⟨pos, hmeets, by omega⟩
    · rintro ⟨pos', hpos', hfour⟩
      obtain rfl := hpos'.unique hmeets
      simp [hfour]
  · refine iff_of_false (by omega) ?_
    rintro ⟨pos, hpos, hfour⟩
    have := hlong pos hpos
    omega

/-- The outputs after `GetTLV` was called for the limits in `called`. -/
def LeftBy (msg : QmiMessage) (called : List WdaLimit) (out out' : WdaLimits) : Prop :=
  (∀ l ∈ called, ∃ r, callGetTLV msg l.type (out l) = some r ∧ out' l = r.pOutDataBuf) ∧
    ∀ l ∉ called, out' l = out l

/-- The limit `l` is the first whose TLV is not of four bytes. -/
structure FailsAt (msg : QmiMessage) (todo before : List WdaLimit) (l : WdaLimit) : Prop where
  split : ∃ after, todo = before ++ l :: after
  sized : ∀ b ∈ before, Sized msg b
  ends : NoFullTurn msg l.type 4
  notSized : ¬ Sized msg l

variable {limits limits' : WdaLimits} {before limitsTodo : List WdaLimit} {l : WdaLimit}

theorem LeftBy.cons {r : TlvResult 4} {called : List WdaLimit} (hl : l ∉ called)
    (hr : callGetTLV msg l.type (limits l) = some r)
    (h : LeftBy msg called (Function.update limits l r.pOutDataBuf) limits') :
    LeftBy msg (l :: called) limits limits' := by
  constructor
  · rintro m (_ | ⟨_, hm⟩)
    · exact ⟨r, hr, by rw [h.2 l hl, Function.update_self]⟩
    · have hne : m ≠ l := fun heq => hl (heq ▸ hm)
      simpa only [Function.update_of_ne hne] using h.1 m hm
  · intro m hm
    rw [List.mem_cons, not_or] at hm
    rw [h.2 m hm.2, Function.update_of_ne hm.1]

theorem LeftBy.nil : LeftBy msg [] limits limits := ⟨nofun, fun _ _ => rfl⟩

/-- Nothing has changed exactly if no call took anything new. -/
theorem LeftBy.eq_iff {called : List WdaLimit} (h : LeftBy msg called limits limits') :
    limits' = limits ↔ ∀ l ∈ called, TakesNothingNew msg l.type (limits l) := by
  constructor
  · rintro rfl l hl
    obtain ⟨r, hr, hout⟩ := h.1 l hl
    exact (callGetTLV_unchanged_iff hr).mp hout.symm
  · intro hall
    funext l
    by_cases hl : l ∈ called
    · obtain ⟨r, hr, hout⟩ := h.1 l hl
      exact hout.trans ((callGetTLV_unchanged_iff hr).mpr (hall l hl))
    · exact h.2 l hl

/-- The limits up to the failing one are among those to be read. -/
theorem mem_called {b : WdaLimit} {after : List WdaLimit} (h : b ∈ before ++ [l]) :
    b ∈ before ++ l :: after := by
  rw [List.append_cons]
  exact List.mem_append_left after h

/-- An error comes from the first limit that is not of four bytes. -/
theorem readLimits_error {result : Int} (hnodup : limitsTodo.Nodup)
    (h : readLimits msg limitsTodo limits = some (result, limits')) (hneg : result < 0) :
    ∃ before l, FailsAt msg limitsTodo before l ∧ LeftBy msg (before ++ [l]) limits limits' := by
  induction limitsTodo generalizing limits with
  | nil =>
    obtain ⟨rfl, -⟩ := Prod.mk.inj (Option.some.inj h)
    exact absurd hneg (by decide)
  | cons m todo ih =>
    obtain ⟨hfresh, hnodup⟩ := List.nodup_cons.mp hnodup
    obtain ⟨r, hr, hrest⟩ := Option.bind_eq_some_iff.mp h
    have hends : NoFullTurn msg m.type 4 := (callGetTLV_isSome _).mp (Option.isSome_of_eq_some hr)
    by_cases hfour : r.result = 4
    · rw [if_neg (not_not.mpr hfour)] at hrest
      obtain ⟨before, l, ⟨⟨after, rfl⟩, hsized, hl, hnot⟩, hleft⟩ := ih hnodup hrest
      refine ⟨m :: before, l, ⟨⟨after, rfl⟩, ?_, hl, hnot⟩,
        hleft.cons (fun hmem => hfresh (mem_called hmem)) hr⟩
      exact List.forall_mem_cons.mpr ⟨(callGetTLV_four_iff hr).mp hfour, hsized⟩
    · rw [if_pos hfour] at hrest
      obtain ⟨-, rfl⟩ := Prod.mk.inj (Option.some.inj hrest)
      refine ⟨[], m, ⟨⟨todo, rfl⟩, nofun, hends, ?_⟩, LeftBy.nil.cons (by simp) hr⟩
      exact fun hsized => hfour ((callGetTLV_four_iff hr).mpr hsized)

variable (limits) in
/-- The first limit that is not of four bytes ends the call with an error. -/
theorem readLimits_of_failsAt (hnodup : limitsTodo.Nodup) (h : FailsAt msg limitsTodo before l) :
    ∃ limits', readLimits msg limitsTodo limits = some (-efault, limits') ∧
      LeftBy msg (before ++ [l]) limits limits' := by
  obtain ⟨⟨after, rfl⟩, hsized, hends, hnot⟩ := h
  induction before generalizing limits with
  | nil =>
    obtain ⟨r, hr⟩ := Option.isSome_iff_exists.mp ((callGetTLV_isSome (limits l)).mpr hends)
    have hfour : r.result ≠ 4 := fun hfour => hnot ((callGetTLV_four_iff hr).mp hfour)
    refine ⟨_, ?_, LeftBy.nil.cons (by simp) hr⟩
    rw [List.nil_append, readLimits, hr, Option.bind_some, if_pos hfour]
  | cons b before ih =>
    obtain ⟨hb, hsized⟩ := List.forall_mem_cons.mp hsized
    obtain ⟨hfresh, hnodup⟩ := List.nodup_cons.mp hnodup
    obtain ⟨pos, hmeets, hfour⟩ := id hb
    have hr := hmeets.call_found (limits b) hfour.le
    obtain ⟨limits', hrest, hleft⟩ := ih _ hsized hnodup
    refine ⟨limits', ?_, hleft.cons (fun hmem => hfresh (mem_called hmem)) hr⟩
    rw [List.cons_append, readLimits, hr, Option.bind_some,
      if_neg (not_not.mpr ((callGetTLV_four_iff hr).mpr hb))]
    exact hrest

/-- An error of `QMIWDASetDataFormatResp` leaves all four limits as they were. -/
def ErrorKeepsLimits (pBuffer : QmiMessage) (out : WdaLimits) : Prop :=
  ∀ result out', qmiwdaSetDataFormatResp pBuffer out = some (result, out') → result < 0 → out' = out

/-- Up to the first limit of a valid response that is not of four bytes, the TLVs hold what
the limits are already. -/
def NothingNewBeforeError (pBuffer : QmiMessage) (out : WdaLimits) : Prop :=
  qmuxSduSize ≤ pBuffer.messageLen.toNat → getQMIMessageID pBuffer.skipSdu = 0x20 →
    validQMIMessage pBuffer.skipSdu = some 0 →
      ∀ before l, FailsAt pBuffer.skipSdu WdaLimit.all before l →
        ∀ m ∈ before ++ [l], TakesNothingNew pBuffer.skipSdu m.type (out m)

theorem errorKeepsLimits_iff (pBuffer : QmiMessage) (out : WdaLimits) :
    ErrorKeepsLimits pBuffer out ↔ NothingNewBeforeError pBuffer out := by
  have hnodup : WdaLimit.all.Nodup := by decide
  constructor
  · intro hkeeps hlong hid hvalid before l hfails
    obtain ⟨out', hout', hleft⟩ := readLimits_of_failsAt out hnodup hfails
    refine hleft.eq_iff.mp (hkeeps (-efault) out' ?_ (by decide))
    rw [qmiwdaSetDataFormatResp, if_neg (Nat.not_lt.mpr hlong), if_neg (not_not.mpr hid), hvalid]
    exact hout'
  · intro hnothing result out' h hneg
    simp only [qmiwdaSetDataFormatResp] at h
    split_ifs at h with hshort hid
    · exact (Prod.mk.inj (Option.some.inj h)).2.symm
    · exact (Prod.mk.inj (Option.some.inj h)).2.symm
    · obtain ⟨valid, hvalid, hrest⟩ := Option.bind_eq_some_iff.mp h
      split_ifs at hrest with hzero
      · exact (Prod.mk.inj (Option.some.inj hrest)).2.symm
      · obtain ⟨before, l, hfails, hleft⟩ := readLimits_error hnodup hrest hneg
        refine hleft.eq_iff.mpr (hnothing (Nat.not_lt.mp hshort) (not_not.mp hid) ?_ _ _ hfails)
        rw [hvalid, not_not.mp hzero]

/-! ## Outputs and what was received -/

/-- The response parsers change an output only by what they received exactly if the
statistics are taken whole and no limit is taken before an error. -/
theorem outputs_received_iff (pBuffer : QmiMessage) (stats : WdsOutputs) (limits : WdaLimits) :
    KeepsStats pBuffer stats ∧ ErrorKeepsLimits pBuffer limits ↔
      StatsTakenWhole pBuffer stats ∧ NothingNewBeforeError pBuffer limits :=
  and_congr (keepsStats_iff pBuffer stats) (errorKeepsLimits_iff pBuffer limits)

/-- A read buffer: QMUX header and SDU, then the message. -/
def readBuffer (message : List UInt8) : QmiMessage where
  data := fun i => (List.replicate qmuxSduSize 0 ++ message).getD i 0
  messageLen := 9 + UInt16.ofNat message.length

/-- An event report whose counter of transmitted packets has two bytes. -/
def shortStatReport : QmiMessage := readBuffer [0x01, 0, 5, 0, 0x10, 2, 0, 1, 2]

/-- A valid response that has the first limit only. -/
def firstLimitResponse : QmiMessage :=
  readBuffer [0x20, 0, 14, 0, 0x02, 4, 0, 0, 0, 0, 0, 0x15, 4, 0, 1, 0, 0, 0]

/-- Half of a counter is overwritten, and a limit is changed although the response is
refused. -/
theorem outputs_not_received :
    ¬ KeepsStats shortStatReport ⟨fun _ _ => 9, false, false⟩ ∧
      ¬ ErrorKeepsLimits firstLimitResponse fun _ _ => 9 := by
  constructor
  · rintro ⟨result, out', h, hkept⟩
    have hmixed : (qmiwdsEventResp shortStatReport ⟨fun _ _ => 9, false, false⟩).map
        (fun res => List.ofFn (res.2.stats .txOk)) = some [1, 2, 9, 9] := by decide +kernel
    rw [h, Option.map_some, Option.some.injEq] at hmixed
    have hfirst : Tlv.first? shortStatReport.skipSdu.tlvBytes 0x10 = some ⟨0x10, [1, 2]⟩ := by
      decide +kernel
    rcases hkept .txOk with hsame | ⟨item, hitem, hvalue⟩
    · rw [hsame] at hmixed
      revert hmixed
      decide
    · obtain rfl := Option.some.inj (hfirst.symm.trans hitem)
      rw [hmixed] at hvalue
      cases hvalue
  · intro hkeeps
    have herror : ((qmiwdaSetDataFormatResp firstLimitResponse fun _ _ => 9).map
        fun res => (res.1, res.2 .dlDatagram 0)) = some (-efault, 1) := by decide +kernel
    obtain ⟨⟨result, out'⟩, h, heq⟩ := Option.map_eq_some_iff.mp herror
    obtain ⟨rfl, hone⟩ := Prod.mk.inj heq
    have hsame := hkeeps _ out' h (by decide)
    rw [hsame] at hone
    revert hone
    decide

end UsbNet
