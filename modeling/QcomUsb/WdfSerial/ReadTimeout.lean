-- SUMMARY: The read timeouts of the serial driver: their classification and the timer of a single read.
import Mathlib

/-!
# Read timeouts

`QCSER_SetTimeout` sorts the three read timeouts into eleven cases.
`QCRD_StartReadTimeout` looks the case up when a read has to wait.
-/

namespace WdfSerial

/-- The read fields of `SERIAL_TIMEOUTS`, in milliseconds. -/
structure SerialTimeouts where
  readIntervalTimeout : UInt32
  readTotalTimeoutMultiplier : UInt32
  readTotalTimeoutConstant : UInt32
deriving DecidableEq

/-- `MAXULONG`. -/
def maxUlong : UInt32 := 0xffffffff

/-- `ucTimeoutType`: the constants `QCSER_READ_TIMEOUT_*`. -/
inductive ReadTimeoutType
  | undef | case1 | case2 | case3 | case4 | case5 | case6 | case7 | case8 | case9 | case10 | case11
deriving DecidableEq

/-- The field `ReadTimeout` of the device context. -/
structure ReadTimeout where
  ucTimeoutType : ReadTimeoutType
  bUseReadInterval : Bool
  bReturnOnAnyChars : Bool
deriving DecidableEq

/-- The case `QCSER_SetTimeout` chooses. -/
def timeoutType (t : SerialTimeouts) : ReadTimeoutType :=
  if t.readIntervalTimeout = 0 then
    if t.readTotalTimeoutMultiplier = 0 ∧ t.readTotalTimeoutConstant = 0 then .case1
    else if t.readTotalTimeoutMultiplier = maxUlong ∨ t.readTotalTimeoutConstant = maxUlong then
      .case2
    else .case3
  else if t.readIntervalTimeout = maxUlong then
    if t.readTotalTimeoutMultiplier = 0 ∧ t.readTotalTimeoutConstant = 0 then .case4
    else if t.readTotalTimeoutMultiplier = maxUlong then
      if 0 < t.readTotalTimeoutConstant ∧ t.readTotalTimeoutConstant < maxUlong then .case5
      else .case6
    else if t.readTotalTimeoutConstant = maxUlong then .case7
    else .case8
  else if t.readTotalTimeoutConstant = 0 ∧ t.readTotalTimeoutMultiplier = 0 then .case9
  else if t.readTotalTimeoutConstant = maxUlong ∨ t.readTotalTimeoutMultiplier = maxUlong then
    .case10
  else .case11

/-- `QCSER_SetTimeout`. The flags are set in three of the cases and reset in the others. -/
def setTimeout (t : SerialTimeouts) : ReadTimeout where
  ucTimeoutType := timeoutType t
  bUseReadInterval := timeoutType t = .case9 ∨ timeoutType t = .case10
  bReturnOnAnyChars := timeoutType t = .case5

/-- `QCRD_StartReadTimeout`: `none` when the read is not to wait, else whether the timer is
set. The length is cut to a `ULONG`, and the product is a `LONGLONG`. -/
def startReadTimeout (t : SerialTimeouts) (type : ReadTimeoutType) (readLength : Nat) :
    Option Bool :=
  match type with
  | .undef | .case1 | .case2 | .case7 | .case9 | .case10 => some false
  | .case5 | .case11 => some (0 < t.readTotalTimeoutConstant)
  | .case3 | .case8 =>
    let timeoutMillisecond : Int :=
      (t.readTotalTimeoutConstant.toNat +
        t.readTotalTimeoutMultiplier.toNat * (readLength % 2 ^ 32) : Nat)
    some (0 < timeoutMillisecond.bmod (2 ^ 64))
  | .case4 | .case6 => none

end WdfSerial
