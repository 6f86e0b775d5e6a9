-- SUMMARY: Modem events and the waits for them: which completions report what happened, and which events no wait ever reports.
import QcomUsb.Library.Transition

/-!
# Waiting for modem events

`QCSER_ProcessNewUartState` turns a new modem state into event bits and completes the pending
`WAIT_ON_MASK` with those in the mask. The changes themselves are kept nowhere.
-/

namespace WdfSerial

namespace WaitMask

open Transition

abbrev Ushort := BitVec 16

abbrev Ulong := BitVec 32

def serialEvCts : Ushort := 0x0008
def serialEvDsr : Ushort := 0x0010
def serialEvRlsd : Ushort := 0x0020
def serialEvBreak : Ushort := 0x0040
def serialEvErr : Ushort := 0x0080
def serialEvRing : Ushort := 0x0100
def serialEvPerr : Ushort := 0x0200

/-- `US_BITS_MODEM`. -/
def usBitsModem : Ushort :=
  serialEvCts ||| serialEvDsr ||| serialEvRlsd ||| serialEvBreak ||| serialEvErr ||| serialEvRing

/-- `US_BITS_MODEM_RAW`. -/
def usBitsModemRaw : Ushort := serialEvDsr ||| serialEvRlsd ||| serialEvBreak ||| serialEvRing

/-- A call of `QCSER_WaitOnMask`: the bits that were due, and the value it was completed with
in the call. -/
structure WaitCall where
  request : Nat
  due : Ulong
  answer : Option Ulong
deriving DecidableEq

/-- A completion of a `WAIT_ON_MASK`: what happened since the one before, and its value. -/
structure WaitCompletion where
  request : Nat
  happened : Ushort
  value : Ulong
deriving DecidableEq

/-- The fields of the device context. Beside them, the modem lines as the device last
reported them, their changes since the last completion, those in the mask that no wait was
pending for, and all calls and completions. -/
structure State where
  currUartState : Ushort
  modemStatusReg : BitVec 8
  waitMask : Ulong
  uartStateInitialized : Bool
  waitOnMaskQueue : List Nat
  lines : Ushort
  happened : Ushort
  missed : Ulong
  calls : List WaitCall
  completions : List WaitCompletion

/-- `SERIAL_EV_CTS` follows `SERIAL_EV_DSR`. -/
def withCts (usBits : Ushort) : Ushort :=
  if usBits &&& serialEvDsr ≠ 0 then usBits ||| serialEvCts else usBits &&& ~~~serialEvCts

/-- `ucModemStatusNew`. -/
def modemStatus (usBitsEvent usBitsNew : Ushort) : BitVec 8 :=
  (if usBitsEvent &&& serialEvCts ≠ 0 then 0x01 else 0) |||
  (if usBitsNew &&& serialEvCts ≠ 0 then 0x10 else 0) |||
  (if usBitsEvent &&& serialEvDsr ≠ 0 then 0x02 else 0) |||
  (if usBitsNew &&& serialEvDsr ≠ 0 then 0x20 else 0) |||
  (if usBitsEvent &&& serialEvRing ≠ 0 then 0x04 else 0) |||
  (if usBitsNew &&& serialEvRing ≠ 0 then 0x40 else 0) |||
  (if usBitsEvent &&& serialEvRlsd ≠ 0 then 0x08 else 0) |||
  (if usBitsNew &&& serialEvRlsd ≠ 0 then 0x80 else 0)

namespace State

/-- A completion is recorded with what happened up to it. -/
def completed (s : State) (r : Nat) (value : Ulong) : State :=
  { s with completions := s.completions ++ [⟨r, s.happened, value⟩], happened := 0 }

/-- `QCSER_CompleteWomRequest`. -/
def completeWomRequest (s : State) (outValue : Ulong) : State :=
  match s.waitOnMaskQueue with
  | [] => s
  | r :: rest => { s with waitOnMaskQueue := rest }.completed r outValue

/-- `QCSER_ProcessNewUartState`. -/
def processNewUartState (s : State) (usNewUartState usBitsMask : Ushort) : State :=
  let usBitsOld := s.currUartState
  let usBitsNew := withCts ((usBitsOld &&& ~~~usBitsMask) ||| (usNewUartState &&& usBitsMask))
  let change := (usBitsNew ^^^ usBitsOld) &&& usBitsModem
  let usBitsEvent := change ||| (usBitsNew &&& ~~~usBitsModem)
  let full := usBitsEvent &&& serialEvPerr ≠ 0
  let s :=
    { s with
      modemStatusReg := if change ≠ 0 then modemStatus change usBitsNew else s.modemStatusReg
      currUartState := if full then usBitsNew &&& ~~~serialEvPerr else usBitsNew }
  let ulNewEvent :=
    (if full then usBitsEvent &&& ~~~serialEvPerr else usBitsEvent).zeroExtend 32
  if ulNewEvent &&& s.waitMask ≠ 0 then
    { s with currUartState := s.currUartState &&& usBitsModem }.completeWomRequest
      (ulNewEvent &&& s.waitMask)
  else s

/-- `QCSER_InitUartStateFromModem`. -/
def initUartStateFromModem (s : State) : State :=
  let newUartState := (s.currUartState &&& usBitsModemRaw) ||| (s.currUartState &&& ~~~usBitsModem)
  { s with currUartState := 0 }.processNewUartState newUartState 0xffff

/-- `QCSER_SetWaitMask`. -/
def setWaitMask (s : State) (waitMask : Ulong) (copied : Bool) : State :=
  if copied then { s with waitMask := waitMask }.completeWomRequest 0 else s

/-- A wait is called. What was missed before is due now. -/
def called (s : State) (r : Nat) (answer : Option Ulong) : State :=
  { s with calls := s.calls ++ [⟨r, s.missed, answer⟩], missed := 0 }

/-- `QCSER_WaitOnMask`. -/
def waitOnMask (s : State) (r : Nat) (outputBufferLength : Nat) (forwarded : Bool) : State :=
  if outputBufferLength < 4 then s
  else
    let s :=
      if s.uartStateInitialized then s
      else { s with uartStateInitialized := true }.initUartStateFromModem
    if s.waitMask ≠ 0 then
      if s.waitOnMaskQueue ≠ [] then (s.called r (some 0)).completed r 0
      else if forwarded then { s.called r none with waitOnMaskQueue := [r] }
      else s.called r none
    else (s.called r (some 0)).completed r 0

/-- The modem lines a notification reports. -/
def reported (usStatusBits : Ushort) : Ushort := withCts (usStatusBits &&& usBitsModemRaw)

/-- The modem lines change. -/
def observe (s : State) (usStatusBits : Ushort) : State :=
  let change := reported usStatusBits ^^^ s.lines
  { s with
    lines := reported usStatusBits
    happened := s.happened ||| change
    missed :=
      if s.waitOnMaskQueue = [] then s.missed ||| (change.zeroExtend 32 &&& s.waitMask)
      else s.missed }

/-- `QCINT_HandleSerialStateNotification`, from the status bits on. -/
def handleSerialStateNotification (s : State) (usStatusBits : Ushort) : State :=
  let s :=
    if s.uartStateInitialized then s
    else { s with currUartState := s.currUartState &&& ~~~usBitsModem }
  s.processNewUartState (usStatusBits &&& usBitsModemRaw) usBitsModemRaw

end State

inductive Op where
  | setWaitMask (waitMask : Ulong) (copied : Bool)
  | waitOnMask (request : Nat) (outputBufferLength : Nat) (forwarded : Bool)
  | serialState (usStatusBits : Ushort)

def step : Machine State Op Unit
  | s, .setWaitMask waitMask copied => some (s.setWaitMask waitMask copied, ())
  | s, .waitOnMask r outputBufferLength forwarded =>
    some (s.waitOnMask r outputBufferLength forwarded, ())
  | s, .serialState usStatusBits =>
    some ((s.observe usStatusBits).handleSerialStateNotification usStatusBits, ())

/-- The device context after `QCPNP_DeviceConfig`. -/
def start (modemStatusReg : BitVec 8) : State where
  currUartState := 0
  modemStatusReg := modemStatusReg
  waitMask := 0xffff
  uartStateInitialized := false
  waitOnMaskQueue := []
  lines := 0
  happened := 0
  missed := 0
  calls := []
  completions := []

/-! ## The modem lines -/

open State

theorem getElem_raw : ∀ i (hi : i < 16),
    usBitsModemRaw[i] = (i == 4 || i == 5 || i == 6 || i == 8) := by
  decide

theorem getElem_modem : ∀ i (hi : i < 16),
    usBitsModem[i] = (i == 3 || i == 4 || i == 5 || i == 6 || i == 7 || i == 8) := by
  decide

theorem getElem_cts : ∀ i (hi : i < 16), serialEvCts[i] = (i == 3) := by
  decide

theorem and_dsr_ne_zero (x : Ushort) : x &&& serialEvDsr ≠ 0 ↔ x[4] = true := by
  change x &&& BitVec.twoPow 16 4 ≠ 0 ↔ _
  rw [BitVec.and_twoPow, BitVec.getLsbD_eq_getElem (by decide)]
  cases x[4] <;> decide

/-- Bit 4 is copied to bit 3. -/
theorem getElem_withCts (x : Ushort) {i : Nat} (hi : i < 16) :
    (withCts x)[i] = if i = 3 then x[4] else x[i] := by
  unfold withCts
  by_cases hset : x[4] = true
  · rw [if_pos ((and_dsr_ne_zero x).mpr hset), BitVec.getElem_or, getElem_cts i hi]
    by_cases h3 : i = 3 <;> simp [h3, hset]
  · rw [if_neg (fun h => hset ((and_dsr_ne_zero x).mp h)), BitVec.getElem_and,
      BitVec.getElem_not, getElem_cts i hi]
    by_cases h3 : i = 3
    · simp [h3, Bool.eq_false_of_not_eq_true hset]
    · simp [h3]

theorem getElem_reported (x : Ushort) {i : Nat} (hi : i < 16) :
    (reported x)[i] =
      if i = 3 then x[4] else x[i] && (i == 4 || i == 5 || i == 6 || i == 8) := by
  rw [reported, getElem_withCts _ hi, BitVec.getElem_and, BitVec.getElem_and, getElem_raw i hi,
    getElem_raw 4 (by decide)]
  simp

/-- The modem lines are modem bits. -/
theorem reported_and_not_modem (x : Ushort) : reported x &&& ~~~usBitsModem = 0#16 := by
  apply BitVec.eq_of_getElem_eq
  intro i hi
  rw [BitVec.getElem_and, BitVec.getElem_not, getElem_reported x hi, getElem_modem i hi]
  interval_cases i <;> simp

/-- New raw bits over old lines are the new lines. -/
theorem withCts_reported (x y : Ushort) :
    withCts ((reported y &&& ~~~usBitsModemRaw) |||
      ((x &&& usBitsModemRaw) &&& usBitsModemRaw)) = reported x := by
  apply BitVec.eq_of_getElem_eq
  intro i hi
  rw [getElem_withCts _ hi, getElem_reported x hi]
  simp only [BitVec.getElem_or, BitVec.getElem_and, BitVec.getElem_not, getElem_reported y hi,
    getElem_reported y (show 4 < 16 by decide), getElem_raw i hi, getElem_raw 4 (by decide)]
  interval_cases i <;> simp

/-- The lines are found again in a state that holds nothing else. -/
theorem withCts_init (x : Ushort) :
    withCts ((0 &&& ~~~(0xffff : Ushort)) |||
      (((reported x &&& usBitsModemRaw) ||| (reported x &&& ~~~usBitsModem)) &&& 0xffff)) =
      reported x := by
  have hones : (0xffff : Ushort) = BitVec.allOnes 16 := by decide
  rw [reported_and_not_modem, hones, BitVec.and_allOnes, BitVec.ofNat_eq_ofNat, BitVec.zero_and,
    BitVec.or_zero, BitVec.zero_or]
  apply BitVec.eq_of_getElem_eq
  intro i hi
  rw [getElem_withCts _ hi, BitVec.getElem_and, BitVec.getElem_and, getElem_reported x hi,
    getElem_reported x (show 4 < 16 by decide), getElem_raw i hi, getElem_raw 4 (by decide)]
  interval_cases i <;> simp

theorem reported_zero : reported 0 = 0 := by decide

/-- Bits inside a mask are left alone by it. -/
theorem and_eq_self {w : Nat} {x y : BitVec w} (h : x &&& ~~~y = 0#w) : x &&& y = x := by
  apply BitVec.eq_of_getElem_eq
  intro i hi
  have hbit := congrArg (fun z : BitVec w => z[i]) h
  simp only [BitVec.getElem_and, BitVec.getElem_not, BitVec.getElem_zero] at hbit ⊢
  cases hx : x[i] <;> simp_all

/-! ## One call of `QCSER_ProcessNewUartState` -/

/-- The modem events of new modem lines, as a wait sees them. -/
def events (s : State) (lines : Ushort) : Ulong :=
  ((lines ^^^ s.currUartState) &&& usBitsModem).zeroExtend 32 &&& s.waitMask

/-- The state with new modem lines. -/
def update (s : State) (lines : Ushort) : State :=
  let change := (lines ^^^ s.currUartState) &&& usBitsModem
  { s with
    modemStatusReg := if change ≠ 0 then modemStatus change lines else s.modemStatusReg
    currUartState := lines }

/-- When the new state is nothing but modem lines, its changes in the mask complete the wait. -/
theorem processNewUartState_eq {s : State} {usNewUartState usBitsMask lines : Ushort}
    (hlines : withCts ((s.currUartState &&& ~~~usBitsMask) ||| (usNewUartState &&& usBitsMask)) =
      lines) (hmodem : lines &&& ~~~usBitsModem = 0#16) :
    s.processNewUartState usNewUartState usBitsMask =
      if events s lines ≠ 0 then (update s lines).completeWomRequest (events s lines)
      else update s lines := by
  have hperr : ((lines ^^^ s.currUartState) &&& usBitsModem) &&& serialEvPerr = 0#16 := by
    have hapart : usBitsModem &&& serialEvPerr = 0#16 := by decide
    rw [BitVec.and_assoc, hapart, BitVec.and_zero]
  have hself := and_eq_self hmodem
  simp only [processNewUartState, hlines, hmodem, BitVec.or_zero, hperr, BitVec.ofNat_eq_ofNat,
    ne_eq, not_true_eq_false, if_false, hself, events, update]
  rfl

theorem completeWomRequest_nil {s : State} (hqueue : s.waitOnMaskQueue = []) (value : Ulong) :
    s.completeWomRequest value = s := by
  rw [completeWomRequest, hqueue]

/-- Without a pending wait the new modem lines are stored, and that is all. -/
theorem processNewUartState_of_no_wait {s : State} {usNewUartState usBitsMask lines : Ushort}
    (hlines : withCts ((s.currUartState &&& ~~~usBitsMask) ||| (usNewUartState &&& usBitsMask)) =
      lines) (hmodem : lines &&& ~~~usBitsModem = 0#16) (hqueue : s.waitOnMaskQueue = []) :
    s.processNewUartState usNewUartState usBitsMask = update s lines := by
  rw [processNewUartState_eq hlines hmodem]
  split
  · exact completeWomRequest_nil (s := update s lines) hqueue _
  · rfl

/-! ## What is reported, and what is missed -/

/-- A call of `QCSER_WaitOnMask` was answered with the bits that were due. -/
def WaitCall.Honoured (c : WaitCall) : Prop :=
  c.due = 0 ∨ ∃ value ∈ c.answer, c.due &&& ~~~value = 0

/-- The value of a completion has only bits of lines that changed since the one before. -/
def WaitCompletion.Fresh (c : WaitCompletion) : Prop :=
  c.value &&& ~~~(c.happened.zeroExtend 32) = 0

/-- No event is lost between two waits, and none is made up. -/
structure EventsKept (s : State) : Prop where
  calls : ∀ c ∈ s.calls, c.Honoured
  completions : ∀ c ∈ s.completions, c.Fresh

/-- A wait is only called when no modem event of the mask was missed before. -/
def NothingMissed (s : State) : Op → Prop
  | .waitOnMask _ outputBufferLength _ => 4 ≤ outputBufferLength → s.missed = 0
  | _ => True

/-- The UART state is the modem lines last reported, and before the first wait there is none
pending. -/
structure Inv (s : State) : Prop where
  lines : ∃ usStatusBits, s.lines = reported usStatusBits
  uartState : s.currUartState = s.lines
  uninitialized : s.uartStateInitialized = false → s.waitOnMaskQueue = []
  completions : ∀ c ∈ s.completions, c.Fresh

namespace Inv

variable {s : State}

theorem start (modemStatusReg : BitVec 8) : Inv (start modemStatusReg) where
  lines := ⟨0, reported_zero.symm⟩
  uartState := rfl
  uninitialized := fun _ => rfl
  completions := fun _ hc => absurd hc List.not_mem_nil

/-- A completion with a fresh value. -/
theorem completed (h : Inv s) (r : Nat) {value : Ulong}
    (hvalue : value &&& ~~~(s.happened.zeroExtend 32) = 0) : Inv (s.completed r value) where
  lines := h.lines
  uartState := h.uartState
  uninitialized := h.uninitialized
  completions := by
    intro c hc
    rcases List.mem_append.mp hc with hold | hnew
    · exact h.completions c hold
    · rw [List.mem_singleton.mp hnew]
      exact hvalue

theorem completeWomRequest (h : Inv s) {value : Ulong}
    (hvalue : value &&& ~~~(s.happened.zeroExtend 32) = 0) : Inv (s.completeWomRequest value) := by
  unfold State.completeWomRequest
  cases hqueue : s.waitOnMaskQueue with
  | nil => exact h
  | cons r rest =>
    have hinit : s.uartStateInitialized = true := by
      by_contra hnot
      have hnil := h.uninitialized (Bool.eq_false_of_not_eq_true hnot)
      simp [hqueue] at hnil
    have hrest : Inv { s with waitOnMaskQueue := rest } :=
      ⟨h.lines, h.uartState, fun hno => absurd (hinit.symm.trans hno) (by decide),
        h.completions⟩
    exact hrest.completed r hvalue

theorem setWaitMask (h : Inv s) (waitMask : Ulong) (copied : Bool) :
    Inv (s.setWaitMask waitMask copied) := by
  cases copied with
  | false => exact h
  | true =>
    have hmask : Inv { s with waitMask := waitMask } :=
      ⟨h.lines, h.uartState, h.uninitialized, h.completions⟩
    exact hmask.completeWomRequest (BitVec.zero_and)

/-- The first wait finds no wait to complete, so it only marks the state as initialized. -/
theorem initUartState_eq (h : Inv s) (hinit : s.uartStateInitialized = false) :
    ∃ modemStatusReg, { s with uartStateInitialized := true }.initUartStateFromModem =
      { s with uartStateInitialized := true, modemStatusReg := modemStatusReg } := by
  obtain ⟨x, hx⟩ := h.lines
  have hcurr : s.currUartState = reported x := h.uartState.trans hx
  let cleared : State := { s with uartStateInitialized := true, currUartState := 0 }
  have hprocess : cleared.processNewUartState
      ((s.currUartState &&& usBitsModemRaw) ||| (s.currUartState &&& ~~~usBitsModem)) 0xffff =
      update cleared (reported x) := by
    apply processNewUartState_of_no_wait
    · rw [hcurr]
      exact withCts_init x
    · exact reported_and_not_modem x
    · exact h.uninitialized hinit
  refine ⟨(update cleared (reported x)).modemStatusReg, hprocess.trans ?_⟩
  rw [hcurr]
  rfl

/-- The state in which a call of `QCSER_WaitOnMask` looks at the mask. -/
theorem exists_initialized (h : Inv s) :
    ∃ t, (if s.uartStateInitialized then s
        else { s with uartStateInitialized := true }.initUartStateFromModem) = t ∧
      Inv t ∧ t.uartStateInitialized = true ∧ t.missed = s.missed ∧ t.calls = s.calls := by
  cases hinit : s.uartStateInitialized with
  | true => exact ⟨s, rfl, h, hinit, rfl, rfl⟩
  | false =>
    obtain ⟨m, hm⟩ := h.initUartState_eq hinit
    refine ⟨_, hm, ⟨h.lines, h.uartState, ?_, h.completions⟩, rfl, rfl, rfl⟩
    rintro ⟨⟩

/-- What a call of `QCSER_WaitOnMask` can do: answer zero, leave the wait pending, or fail. -/
theorem waitOnMask_cases (h : Inv s) (r : Nat) {outputBufferLength : Nat}
    (hlength : 4 ≤ outputBufferLength) (forwarded : Bool) :
    ∃ t, Inv t ∧ t.uartStateInitialized = true ∧ t.missed = s.missed ∧ t.calls = s.calls ∧
      (s.waitOnMask r outputBufferLength forwarded = (t.called r (some 0)).completed r 0 ∨
        s.waitOnMask r outputBufferLength forwarded =
          { t.called r none with waitOnMaskQueue := [r] } ∨
        s.waitOnMask r outputBufferLength forwarded = t.called r none) := by
  obtain ⟨t, ht, hinv, hinit, hmissed, hcalls⟩ := h.exists_initialized
  refine ⟨t, hinv, hinit, hmissed, hcalls, ?_⟩
  simp only [State.waitOnMask, Nat.not_lt.mpr hlength, if_false, ht]
  by_cases hmask : t.waitMask = 0
  · exact .inl (if_neg (not_not_intro hmask))
  rw [if_pos hmask]
  by_cases hqueue : t.waitOnMaskQueue = []
  · rw [if_neg (not_not_intro hqueue)]
    cases forwarded with
    | true => exact .inr (.inl rfl)
    | false => exact .inr (.inr rfl)
  · exact .inl (if_pos hqueue)

theorem called (h : Inv s) (r : Nat) (answer : Option Ulong) : Inv (s.called r answer) :=
  ⟨h.lines, h.uartState, h.uninitialized, h.completions⟩

theorem waitOnMask (h : Inv s) (r outputBufferLength : Nat) (forwarded : Bool) :
    Inv (s.waitOnMask r outputBufferLength forwarded) := by
  by_cases hlength : 4 ≤ outputBufferLength
  · obtain ⟨t, ht, hinit, -, -, heq | heq | heq⟩ := h.waitOnMask_cases r hlength forwarded
    · rw [heq]
      exact (ht.called r (some 0)).completed r BitVec.zero_and
    · rw [heq]
      exact ⟨ht.lines, ht.uartState, fun hno => absurd (hinit.symm.trans hno) (by decide),
        ht.completions⟩
    · rw [heq]
      exact ht.called r none
  · simpa [State.waitOnMask, Nat.not_le.mp hlength] using h

/-- The calls are answered at once or not at all, and never with an event. -/
theorem calls_waitOnMask (h : Inv s) (r : Nat) {outputBufferLength : Nat}
    (hlength : 4 ≤ outputBufferLength) (forwarded : Bool) :
    ∃ answer : Option Ulong, (answer = none ∨ answer = some 0) ∧
      (s.waitOnMask r outputBufferLength forwarded).calls =
        s.calls ++ [⟨r, s.missed, answer⟩] := by
  obtain ⟨t, -, -, hmissed, hcalls, heq | heq | heq⟩ := h.waitOnMask_cases r hlength forwarded
  · exact ⟨some 0, .inr rfl, by rw [heq, ← hmissed, ← hcalls]; rfl⟩
  · exact ⟨none, .inl rfl, by rw [heq, ← hmissed, ← hcalls]; rfl⟩
  · exact ⟨none, .inl rfl, by rw [heq, ← hmissed, ← hcalls]; rfl⟩

end Inv

/-- Events of the mask are changes of the lines. -/
theorem events_fresh (change happened modem : Ushort) (waitMask : Ulong) :
    ((change &&& modem).zeroExtend 32 &&& waitMask) &&&
      ~~~((happened ||| change).zeroExtend 32) = 0#32 := by
  apply BitVec.eq_of_getElem_eq
  intro i hi
  simp only [BitVec.zeroExtend, BitVec.getElem_and, BitVec.getElem_not, BitVec.getElem_zero,
    BitVec.getElem_setWidth, BitVec.getLsbD_and, BitVec.getLsbD_or]
  cases change.getLsbD i <;> simp

/-- New modem lines are stored as they were observed. -/
theorem Inv.update {s t : State} (h : Inv s) {x : Ushort} (hlines : t.lines = reported x)
    (hinit : t.uartStateInitialized = s.uartStateInitialized)
    (hqueue : t.waitOnMaskQueue = s.waitOnMaskQueue)
    (hcompletions : t.completions = s.completions) :
    Inv (update t (reported x)) where
  lines := ⟨x, hlines⟩
  uartState := hlines.symm
  uninitialized := fun hno => hqueue.trans (h.uninitialized (hinit.symm.trans hno))
  completions := fun c hc => h.completions c (hcompletions ▸ hc)

theorem calls_completeWomRequest (s : State) (value : Ulong) :
    (s.completeWomRequest value).calls = s.calls := by
  unfold completeWomRequest
  split <;> rfl

/-- A notification stores the new lines, and completes a pending wait with the changes. -/
theorem Inv.serialState {s : State} (h : Inv s) (x : Ushort) :
    Inv ((s.observe x).handleSerialStateNotification x) ∧
      ((s.observe x).handleSerialStateNotification x).calls = s.calls := by
  obtain ⟨y, hy⟩ := h.lines
  have hcurr : s.currUartState = reported y := h.uartState.trans hy
  have hmodem := reported_and_not_modem x
  cases hinit : s.uartStateInitialized with
  | false =>
    -- the lines stored so far are dropped first
    let t : State :=
      { s.observe x with currUartState := (s.observe x).currUartState &&& ~~~usBitsModem }
    have hzero : t.currUartState = reported 0 := by
      change s.currUartState &&& ~~~usBitsModem = _
      rw [hcurr, reported_and_not_modem, reported_zero]
      rfl
    have hlines : withCts ((t.currUartState &&& ~~~usBitsModemRaw) |||
        ((x &&& usBitsModemRaw) &&& usBitsModemRaw)) = reported x := by
      rw [hzero]
      exact withCts_reported x 0
    have hhandle :
        (s.observe x).handleSerialStateNotification x = WaitMask.update t (reported x) := by
      have hinit' : (s.observe x).uartStateInitialized = false := hinit
      rw [handleSerialStateNotification, if_neg (ne_true_of_eq_false hinit')]
      exact processNewUartState_of_no_wait hlines hmodem (h.uninitialized hinit)
    rw [hhandle]
    exact ⟨h.update rfl rfl rfl rfl, rfl⟩
  | true =>
    have hlines : withCts (((s.observe x).currUartState &&& ~~~usBitsModemRaw) |||
        ((x &&& usBitsModemRaw) &&& usBitsModemRaw)) = reported x := by
      change withCts ((s.currUartState &&& _) ||| _) = _
      rw [hcurr]
      exact withCts_reported x y
    have hhandle : (s.observe x).handleSerialStateNotification x =
        (s.observe x).processNewUartState (x &&& usBitsModemRaw) usBitsModemRaw := by
      have hinit' : (s.observe x).uartStateInitialized = true := hinit
      rw [handleSerialStateNotification, if_pos hinit']
    have hupdate : Inv (WaitMask.update (s.observe x) (reported x)) := h.update rfl rfl rfl rfl
    rw [hhandle, processNewUartState_eq hlines hmodem]
    split
    · refine ⟨hupdate.completeWomRequest ?_, calls_completeWomRequest _ _⟩
      have hfresh := events_fresh (reported x ^^^ s.lines) s.happened usBitsModem s.waitMask
      rw [← h.uartState] at hfresh
      change events (s.observe x) (reported x) &&&
        ~~~((s.happened ||| (reported x ^^^ s.lines)).zeroExtend 32) = 0#32
      rw [← h.uartState]
      exact hfresh
    · exact ⟨hupdate, rfl⟩

/-- Every step keeps the invariant. -/
theorem Inv.step {s t : State} (h : Inv s) {op : Op} (hstep : WaitMask.step s op = some (t, ())) :
    Inv t := by
  cases op with
  | setWaitMask waitMask copied =>
    cases hstep
    exact h.setWaitMask waitMask copied
  | waitOnMask r outputBufferLength forwarded =>
    cases hstep
    exact h.waitOnMask r outputBufferLength forwarded
  | serialState x =>
    cases hstep
    exact (h.serialState x).1

/-- An answer without events honours a call only if nothing was due. -/
theorem honoured_iff {r : Nat} {due : Ulong} {answer : Option Ulong}
    (hanswer : answer = none ∨ answer = some 0) :
    WaitCall.Honoured ⟨r, due, answer⟩ ↔ due = 0 := by
  refine ⟨?_, .inl⟩
  rintro (hdue | ⟨value, hvalue, hbits⟩)
  · exact hdue
  rcases hanswer with rfl | rfl
  · cases hvalue
  · cases hvalue
    have hones : ~~~(0 : Ulong) = BitVec.allOnes 32 := by decide
    rw [hones, BitVec.and_allOnes] at hbits
    exact hbits

/-- A step loses no event exactly if it is no wait behind a missed one. -/
theorem Inv.kept_iff {s t : State} (h : Inv s) (hkept : EventsKept s) {op : Op}
    (hstep : WaitMask.step s op = some (t, ())) : EventsKept t ↔ NothingMissed s op := by
  have hfresh := (h.step hstep).completions
  have hsame : t.calls = s.calls → EventsKept t :=
    fun hcalls => ⟨hcalls ▸ hkept.calls, hfresh⟩
  cases op with
  | setWaitMask waitMask copied =>
    refine iff_of_true (hsame ?_) trivial
    cases hstep
    cases copied with
    | false => rfl
    | true => exact calls_completeWomRequest _ 0
  | serialState x =>
    refine iff_of_true (hsame ?_) trivial
    cases hstep
    exact (h.serialState x).2
  | waitOnMask r outputBufferLength forwarded =>
    cases hstep
    by_cases hlength : 4 ≤ outputBufferLength
    · obtain ⟨answer, hanswer, hcalls⟩ := h.calls_waitOnMask r hlength forwarded
      constructor
      · intro hkept' _
        have hcall := hkept'.calls ⟨r, s.missed, answer⟩ (by simp [hcalls])
        exact (honoured_iff hanswer).mp hcall
      · intro hok
        refine ⟨?_, hfresh⟩
        intro c hc
        rw [hcalls] at hc
        rcases List.mem_append.mp hc with hold | hnew
        · exact hkept.calls c hold
        · rw [List.mem_singleton.mp hnew]
          exact .inl (hok hlength)
    · refine iff_of_true (hsame ?_) fun hle => absurd hle hlength
      simp [State.waitOnMask, Nat.not_le.mp hlength]

/-- In every run no event is lost between two waits exactly if no wait is called after a modem
event of the mask that no wait was pending for; and no completion reports what did not happen. -/
theorem eventsKept_iff (modemStatusReg : BitVec 8) (ops : List Op) :
    (∀ s ∈ step.visits (start modemStatusReg) ops, EventsKept s) ↔
      ∀ p ∈ step.fires (start modemStatusReg) ops, NothingMissed p.1 p.2 := by
  have hkept : EventsKept (start modemStatusReg) :=
    ⟨fun _ hc => absurd hc List.not_mem_nil, fun _ hc => absurd hc List.not_mem_nil⟩
  refine Machine.visits_all_iff_fires_of_ok ?_ ?_ (Inv.start modemStatusReg) hkept
  · intro s op t _ hs _ _ hstep
    exact hs.step hstep
  · intro s op t _ hs hkept hstep
    exact hs.kept_iff hkept hstep

/-- The drop of DSR between two waits is lost: the second wait stays pending. -/
theorem modem_event_lost :
    ¬∀ (modemStatusReg : BitVec 8) (ops : List Op),
      ∀ s ∈ step.visits (start modemStatusReg) ops, EventsKept s := by
  intro hall
  let s₁ := (start 0).waitOnMask 1 4 true
  let s₂ := (s₁.observe serialEvDsr).handleSerialStateNotification serialEvDsr
  let s₃ := (s₂.observe 0).handleSerialStateNotification 0
  let s₄ := s₃.waitOnMask 2 4 true
  have hmem : s₄ ∈ step.visits (start 0)
      [.waitOnMask 1 4 true, .serialState serialEvDsr, .serialState 0, .waitOnMask 2 4 true] :=
    .tail _ (.tail _ (.tail _ (.tail _ (.head _))))
  have hcalls : s₄.calls = [⟨1, 0, none⟩, ⟨2, 0x18, none⟩] := by decide
  have hcall := (hall 0 _ s₄ hmem).calls ⟨2, 0x18, none⟩ (by simp [hcalls])
  have hdue := (honoured_iff (.inl rfl)).mp hcall
  exact absurd hdue (by decide)

end WaitMask

end WdfSerial
