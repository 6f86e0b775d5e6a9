-- SUMMARY: The timer a waiting read is given, and when it is the total timeout.
import QcomUsb.WdfSerial.ReadTimeout

/-!
# The total read timeout

`QCRD_StartReadTimeout` computes its timeout in a `LONGLONG` and scales it to units of 100 ns
for `KeSetTimer`. A negative due time is relative.
-/

namespace WdfSerial

/-- A value stored in a `LONGLONG`. -/
def longlong (v : Int) : Int := v.bmod (2 ^ 64)

/-- `timeoutMillisecond` of `QCRD_StartReadTimeout`. `none` when it returns `FALSE`. -/
def timeoutMillisecond (t : SerialTimeouts) (type : ReadTimeoutType) (readLength : Nat) :
    Option Int :=
  match type with
  | .undef | .case1 | .case2 | .case7 | .case9 | .case10 => some 0
  | .case5 | .case11 => some t.readTotalTimeoutConstant.toNat
  | .case3 | .case8 =>
    some (longlong (t.readTotalTimeoutConstant.toNat +
      t.readTotalTimeoutMultiplier.toNat * (readLength % 2 ^ 32) : Nat))
  | .case4 | .case6 => none

/-- `readTimer`: the due time given to `KeSetTimer`. `none` when no timer is set. -/
def dueTime (timeoutMillisecond : Int) : Option Int :=
  if 0 < timeoutMillisecond then some (longlong (-10000 * timeoutMillisecond)) else none

/-- The timer `QCRD_StartReadTimeout` sets. -/
def readTimer (t : SerialTimeouts) (type : ReadTimeoutType) (readLength : Nat) : Option Int :=
  (timeoutMillisecond t type readLength).bind dueTime

/-- The milliseconds of the total timeout. -/
def totalTimeout (t : SerialTimeouts) (readLength : UInt32) : Nat :=
  t.readTotalTimeoutConstant.toNat + t.readTotalTimeoutMultiplier.toNat * readLength.toNat

/-- A read that has to wait is given a timer of exactly the total timeout, and is not left
waiting without one. -/
structure TotalTimeoutHonoured (t : SerialTimeouts) (readLength : UInt32) : Prop where
  timer : readTimer t (setTimeout t).ucTimeoutType readLength.toNat =
    some (-(10000 * (totalTimeout t readLength : Int)))
  running : startReadTimeout t (setTimeout t).ucTimeoutType readLength.toNat ≠ some false

/-! ## Values of a `LONGLONG` -/

theorem neg_le_longlong (v : Int) : -2 ^ 63 ≤ longlong v := by
  have hle := Int.le_bmod (x := v) (m := 2 ^ 64) (by decide)
  unfold longlong
  omega

theorem longlong_eq_self {v : Int} (hlow : -2 ^ 63 ≤ v) (hhigh : v < 2 ^ 63) : longlong v = v :=
  Int.bmod_eq_of_le (by simpa using hlow) (by simpa using hhigh)

/-! ## The timer -/

/-- The model of the waiting alone looks only at the sign of the timeout. -/
theorem startReadTimeout_eq_map (t : SerialTimeouts) (type : ReadTimeoutType) (readLength : Nat) :
    startReadTimeout t type readLength =
      (timeoutMillisecond t type readLength).map fun timeout => decide (0 < timeout) := by
  have hconst :
      (0 < t.readTotalTimeoutConstant) = (0 < (t.readTotalTimeoutConstant.toNat : Int)) := by
    rw [UInt32.lt_iff_toNat_lt, Int.natCast_pos]
    rfl
  cases type <;> simp [startReadTimeout, timeoutMillisecond, longlong, hconst]

/-- A read waits with a timer running exactly when `KeSetTimer` was called for it. -/
theorem startReadTimeout_eq_some_true {t : SerialTimeouts} {type : ReadTimeoutType}
    {readLength : Nat} :
    startReadTimeout t type readLength = some true ↔
      (readTimer t type readLength).isSome := by
  rw [startReadTimeout_eq_map]
  cases htimeout : timeoutMillisecond t type readLength with
  | none => simp [readTimer, htimeout]
  | some timeout =>
    by_cases hpos : 0 < timeout <;> simp [readTimer, dueTime, htimeout, hpos]

/-- A timeout that had to fit a `LONGLONG` gives the wanted due time only if that fits too. -/
theorem dueTime_longlong (wanted : Nat) :
    dueTime (longlong wanted) = some (-(10000 * (wanted : Int))) ↔
      0 < wanted ∧ 10000 * wanted ≤ 2 ^ 63 := by
  unfold dueTime
  constructor
  · intro hdue
    split at hdue
    · rename_i hpos
      have hvalue := Option.some.inj hdue
      have hlow := neg_le_longlong (-10000 * longlong wanted)
      have hself : longlong wanted = wanted := longlong_eq_self (by omega) (by omega)
      omega
    · cases hdue
  · rintro ⟨hpos, hfit⟩
    have hself : longlong wanted = wanted := longlong_eq_self (by omega) (by omega)
    have hscaled : longlong (-10000 * (wanted : Int)) = -10000 * wanted :=
      longlong_eq_self (by omega) (by omega)
    rw [hself, hscaled, if_pos (by omega)]
    exact congrArg some (by omega)

/-- The constant alone always fits, so it is the wanted timeout only where it equals it. -/
theorem dueTime_constant (constant : UInt32) (wanted : Nat) :
    dueTime constant.toNat = some (-(10000 * (wanted : Int))) ↔
      constant.toNat = wanted ∧ 0 < wanted := by
  have hlt := constant.toNat_lt
  have hscaled : longlong (-10000 * (constant.toNat : Int)) = -10000 * constant.toNat :=
    longlong_eq_self (by omega) (by omega)
  rw [dueTime, hscaled]
  constructor
  · intro hdue
    split at hdue
    · have hvalue := Option.some.inj hdue
      omega
    · cases hdue
  · rintro ⟨heq, hpos⟩
    rw [if_pos (by omega)]
    exact congrArg some (by omega)

/-! ## Which class a total timeout falls into -/

section Classes

variable {t : SerialTimeouts}

/-- Without an interval timeout the total timeout is used, with one only its constant. -/
theorem timeoutType_total (hmultiplier : t.readTotalTimeoutMultiplier < maxUlong)
    (hconstant : t.readTotalTimeoutConstant < maxUlong)
    (hset : ¬(t.readTotalTimeoutMultiplier = 0 ∧ t.readTotalTimeoutConstant = 0)) :
    timeoutType t =
      if t.readIntervalTimeout = 0 then .case3
      else if t.readIntervalTimeout = maxUlong then .case8 else .case11 := by
  have hm : t.readTotalTimeoutMultiplier ≠ maxUlong := UInt32.ne_of_lt hmultiplier
  have hc : t.readTotalTimeoutConstant ≠ maxUlong := UInt32.ne_of_lt hconstant
  have hset' : ¬(t.readTotalTimeoutConstant = 0 ∧ t.readTotalTimeoutMultiplier = 0) :=
    fun h => hset h.symm
  simp only [timeoutType, hset, hset', hm, hc, or_self, if_false]

/-- A timer that is set is running while the read waits. -/
theorem totalTimeoutHonoured_iff_timer {readLength : UInt32} :
    TotalTimeoutHonoured t readLength ↔
      readTimer t (timeoutType t) readLength.toNat =
        some (-(10000 * (totalTimeout t readLength : Int))) := by
  refine ⟨TotalTimeoutHonoured.timer, fun htimer => ⟨htimer, ?_⟩⟩
  have hrun : startReadTimeout t (timeoutType t) readLength.toNat = some true :=
    startReadTimeout_eq_some_true.mpr (by simp [htimer])
  change startReadTimeout t (timeoutType t) readLength.toNat ≠ some false
  simp [hrun]

/-- The cases 3 and 8 compute the total timeout. -/
theorem timeoutMillisecond_total {type : ReadTimeoutType}
    (htype : type = .case3 ∨ type = .case8) (readLength : UInt32) :
    timeoutMillisecond t type readLength.toNat = some (longlong (totalTimeout t readLength)) := by
  have hlength : readLength.toNat % 2 ^ 32 = readLength.toNat :=
    Nat.mod_eq_of_lt readLength.toNat_lt
  rcases htype with rfl | rfl <;> rw [timeoutMillisecond, hlength, totalTimeout]

theorem readTimer_total {type : ReadTimeoutType} (htype : type = .case3 ∨ type = .case8)
    (readLength : UInt32) :
    readTimer t type readLength.toNat = dueTime (longlong (totalTimeout t readLength)) := by
  rw [readTimer, timeoutMillisecond_total htype, Option.bind_some]

/-- The total is its constant when the product is zero. -/
theorem constant_eq_totalTimeout {readLength : UInt32} :
    t.readTotalTimeoutConstant.toNat = totalTimeout t readLength ↔
      t.readTotalTimeoutMultiplier = 0 ∨ readLength = 0 := by
  simp [totalTimeout, ← UInt32.toNat_inj]

/-- A read with a total timeout gets its timer exactly when no interval timeout stands beside a
product that matters, and the total is neither zero nor too long for the timer. -/
theorem totalTimeoutHonoured_iff (readLength : UInt32)
    (hmultiplier : t.readTotalTimeoutMultiplier < maxUlong)
    (hconstant : t.readTotalTimeoutConstant < maxUlong)
    (hset : ¬(t.readTotalTimeoutMultiplier = 0 ∧ t.readTotalTimeoutConstant = 0)) :
    TotalTimeoutHonoured t readLength ↔
      (t.readIntervalTimeout = 0 ∨ t.readIntervalTimeout = maxUlong ∨
        t.readTotalTimeoutMultiplier = 0 ∨ readLength = 0) ∧
      0 < totalTimeout t readLength ∧ 10000 * totalTimeout t readLength ≤ 2 ^ 63 := by
  rw [totalTimeoutHonoured_iff_timer, timeoutType_total hmultiplier hconstant hset]
  by_cases hzero : t.readIntervalTimeout = 0
  · rw [if_pos hzero, readTimer_total (.inl rfl), dueTime_longlong]
    simp [hzero]
  by_cases hmax : t.readIntervalTimeout = maxUlong
  · rw [if_neg hzero, if_pos hmax, readTimer_total (.inr rfl), dueTime_longlong]
    simp [hmax]
  · rw [if_neg hzero, if_neg hmax]
    change dueTime t.readTotalTimeoutConstant.toNat = _ ↔ _
    rw [dueTime_constant, constant_eq_totalTimeout]
    simp only [hzero, hmax, false_or]
    -- a constant alone is never too long
    refine ⟨fun ⟨hproduct, hpos⟩ => ⟨hproduct, hpos, ?_⟩,
      fun ⟨hproduct, hpos, _⟩ => ⟨hproduct, hpos⟩⟩
    have heq := constant_eq_totalTimeout.mpr hproduct
    have hlt := t.readTotalTimeoutConstant.toNat_lt
    omega

end Classes

theorem totalTimeoutHonoured_of_noInterval : TotalTimeoutHonoured ⟨0, 2, 100⟩ 50 :=
  (totalTimeoutHonoured_iff (t := ⟨0, 2, 100⟩) 50 (by decide) (by decide) (by decide)).mpr
    (by decide)

/-- With an interval timeout the product is left out, and a read waits without a timer. -/
theorem totalTimeout_ignored_beside_interval :
    ¬∀ (t : SerialTimeouts) (readLength : UInt32), t.readTotalTimeoutMultiplier < maxUlong →
      t.readTotalTimeoutConstant < maxUlong →
      ¬(t.readTotalTimeoutMultiplier = 0 ∧ t.readTotalTimeoutConstant = 0) →
      TotalTimeoutHonoured t readLength := by
  intro hall
  exact (hall ⟨20, 2, 0⟩ 10 (by decide) (by decide) (by decide)).running (by decide)

end WdfSerial
