-- SUMMARY: The walk of the miniport over the TLVs of a QMI message, and exactly when it visits the complete ones.
import QcomUsb.Library.Loop
import QcomUsb.Library.Tlv

/-!
# The next TLV

`MPQMI_GetNextTLV` leaves a TLV and returns the one behind it. It checks that the TLV it leaves lies
in the message, but not the one it returns.
-/

namespace Ndis.NextTlv

open Memory Tlv

/-- A `LONG` as it is compared with a `sizeof`. -/
def sizeT (x : Int) : Nat := (x % 2 ^ 64).toNat

/-- `MPQMI_GetNextTLV`: the next TLV, and the `RemainingLength` it leaves. -/
def getNextTLV (mem : Nat → UInt8) (currentTLV : Nat) (remainingLength : Int) :
    Option Nat × Int :=
  if 3 < sizeT remainingLength then
    let remainingLength := remainingLength - 3
    let length := sizeAt mem currentTLV
    if (length : Int) < remainingLength then
      (some (currentTLV + 3 + length), remainingLength - length)
    else (none, remainingLength)
  else (none, remainingLength)

/-- A TLV that was returned, with the `RemainingLength` then. -/
structure Visit where
  tlv : Nat
  remainingLength : Int
  deriving DecidableEq

/-- The TLVs that were returned, and the number of calls. -/
structure Walk where
  visits : List Visit
  calls : Nat
  deriving DecidableEq

/-- A call of the loop of `MPQCTL_HandleSetDataFormatRsp`, which ends with `NULL`. -/
def walkTurn (mem : Nat → UInt8) (w : Walk × Visit) : Walk ⊕ (Walk × Visit) :=
  match getNextTLV mem w.2.tlv w.2.remainingLength with
  | (none, _) => .inl ⟨w.1.visits, w.1.calls + 1⟩
  | (some tlv, remainingLength) =>
    .inr (⟨w.1.visits ++ [⟨tlv, remainingLength⟩], w.1.calls + 1⟩, ⟨tlv, remainingLength⟩)

/-- The complete TLVs behind the first one of the `n` bytes at `p`, each with the bytes from it to
the end. -/
def following (mem : Nat → UInt8) (p n : Nat) : List Visit :=
  (starts p (parse (slice mem p n))).tail.map fun q => ⟨q, p + n - q⟩

/-- The walk ends within a third of `n` calls, and visits the complete TLVs behind the first. -/
def Enumerates (mem : Nat → UInt8) (p n : Nat) : Prop :=
  ∃ w, Loop.Returns (walkTurn mem) (⟨[], 0⟩, ⟨p, n⟩) w ∧ w.visits = following mem p n ∧
    w.calls ≤ n / 3

/-! ## One call -/

variable {mem : Nat → UInt8} {p n : Nat}

theorem sizeT_natCast (h : n < 2 ^ 31) : sizeT n = n := by
  unfold sizeT
  omega

/-- The TLV that is left reaches the end, or goes past it. -/
theorem getNextTLV_last (h : n < 2 ^ 31) (hlast : n ≤ 3 + sizeAt mem p) :
    (getNextTLV mem p n).1 = none := by
  simp only [getNextTLV, sizeT_natCast h]
  split_ifs
  · omega
  · rfl
  · rfl

/-- Bytes are left behind the TLV. -/
theorem getNextTLV_next (h : n < 2 ^ 31) (hnext : 3 + sizeAt mem p < n) :
    getNextTLV mem p n =
      (some (p + (3 + sizeAt mem p)), ((n - (3 + sizeAt mem p) : Nat) : Int)) := by
  have hheader : 3 < n := by omega
  have hvalue : (sizeAt mem p : Int) < n - 3 := by omega
  simp only [getNextTLV, sizeT_natCast h, if_pos hheader, if_pos hvalue, Nat.add_assoc,
    Prod.mk.injEq, true_and]
  omega

theorem walkTurn_last {w : Walk} (h : n < 2 ^ 31) (hlast : n ≤ 3 + sizeAt mem p) :
    walkTurn mem (w, ⟨p, n⟩) = .inl ⟨w.visits, w.calls + 1⟩ := by
  have hnone := getNextTLV_last h hlast
  simp only [walkTurn]
  split
  · rfl
  · rename_i heq
    rw [heq] at hnone
    cases hnone

/-! ## The walk -/

theorem following_malformed (h : n < 3 + sizeAt mem p) : following mem p n = [] := by
  simp [following, parse_slice_malformed h, starts]

theorem following_of_parse_rest {k : Nat} (hk : k = 3 + sizeAt mem p) (h : k ≤ n) :
    following mem p n =
      (starts (p + k) (parse (slice mem (p + k) (n - k)))).map fun q => ⟨q, p + n - q⟩ := by
  subst hk
  simp [following, parse_slice_complete h, starts, Item.size]

/-- Nothing complete follows. -/
theorem following_last {k : Nat} (hk : k = 3 + sizeAt mem p) (h : k ≤ n)
    (hrest : parse (slice mem (p + k) (n - k)) = []) : following mem p n = [] := by
  rw [following_of_parse_rest hk h, hrest, starts, List.map_nil]

/-- A complete TLV follows, and those behind it. -/
theorem following_next {k : Nat} (hk : k = 3 + sizeAt mem p) (h : k ≤ n)
    (hrest : parse (slice mem (p + k) (n - k)) ≠ []) :
    following mem p n = ⟨p + k, (n - k : Nat)⟩ :: following mem (p + k) (n - k) := by
  rw [following_of_parse_rest hk h, following]
  obtain ⟨item, items, heq⟩ := List.exists_cons_of_ne_nil hrest
  have hend : ((p + k : Nat) : Int) + (n - k : Nat) = p + n := by omega
  have hleft : (p : Int) + n - (p + k : Nat) = (n - k : Nat) := by omega
  rw [heq, starts, List.map_cons, List.tail_cons, hend, hleft]

/-- The TLVs the walk visits: the complete ones, and what is left at the end if the first TLV is
complete. -/
theorem walk_returns (mem : Nat → UInt8) (p : Nat) (h : n < 2 ^ 31) :
    ∃ tail : List Visit,
      (∀ visits calls w, Loop.Returns (walkTurn mem) (⟨visits, calls⟩, ⟨p, n⟩) w ↔
        w = ⟨visits ++ (following mem p n ++ tail),
          calls + ((following mem p n).length + tail.length + 1)⟩) ∧
      (tail = [] ↔ WellFormed (slice mem p n) ∨ parse (slice mem p n) = []) := by
  induction n using Nat.strong_induction_on generalizing p with
  | h n ih =>
    have hnil : parse (slice mem (p + n) 0) = [] := by rw [slice_zero, parse_nil]
    rcases Nat.lt_trichotomy n (3 + sizeAt mem p) with hmalformed | hexact | hnext
    · have hparse := parse_slice_malformed hmalformed
      refine ⟨[], fun visits calls w => ?_, iff_of_true rfl (.inr hparse)⟩
      rw [Loop.returns_iff_of_inl (walkTurn_last h hmalformed.le), following_malformed hmalformed]
      simp
    · have hwf : WellFormed (slice mem p n) := by
        rw [wellFormed_slice_complete hexact.ge, ← hexact, Nat.sub_self, WellFormed, hnil]
        rfl
      refine ⟨[], fun visits calls w => ?_, iff_of_true rfl (.inl hwf)⟩
      have hlast : following mem p n = [] :=
        following_last hexact le_rfl (by rw [Nat.sub_self, hnil])
      rw [Loop.returns_iff_of_inl (walkTurn_last h hexact.le), hlast]
      simp
    · generalize hk : 3 + sizeAt mem p = k at hnext
      have hle : 3 + sizeAt mem p ≤ n := by omega
      have hsub : n - k < n := by omega
      have hparse : parse (slice mem p n) ≠ [] := by
        rw [parse_slice_complete hle]
        exact List.cons_ne_nil _ _
      have hwf := wellFormed_slice_complete hle
      rw [hk] at hwf
      obtain ⟨tail, hreturns, htail⟩ := ih (n - k) hsub (p := p + k) (by omega)
      have hturn : ∀ visits calls, walkTurn mem (⟨visits, calls⟩, ⟨p, n⟩) =
          .inr (⟨visits ++ [⟨p + k, (n - k : Nat)⟩], calls + 1⟩, ⟨p + k, (n - k : Nat)⟩) := by
        intro visits calls
        have hnext' : 3 + sizeAt mem p < n := by omega
        simp only [walkTurn, getNextTLV_next h hnext', hk]
      by_cases hrest : parse (slice mem (p + k) (n - k)) = []
      · -- what follows is not complete, and the walk visits it
        have hempty : tail = [] := htail.mpr (.inr hrest)
        have hfollowing : following mem (p + k) (n - k) = [] := by
          rw [following, hrest]
          rfl
        refine ⟨[⟨p + k, (n - k : Nat)⟩], fun visits calls w => ?_, iff_of_false ?_ ?_⟩
        · rw [Loop.returns_iff_of_inr (hturn visits calls), hreturns, hempty, hfollowing,
            following_last hk.symm hnext.le hrest]
          simp [Nat.add_assoc]
        · exact List.cons_ne_nil _ _
        · rintro (hwell | hnone)
          · rw [hwf, WellFormed, hrest, slice_length] at hwell
            simp only [List.map_nil, List.sum_nil] at hwell
            omega
          · exact hparse hnone
      · refine ⟨tail, fun visits calls w => ?_, ?_⟩
        · rw [Loop.returns_iff_of_inr (hturn visits calls), hreturns,
            following_next hk.symm hnext.le hrest]
          simp [Nat.add_assoc, Nat.add_comm 1]
        · rw [htail, hwf, or_iff_left hrest, or_iff_left hparse]

/-- The walk over bytes that TLVs fill makes few calls. -/
theorem following_length_le (hn : 3 ≤ n)
    (h : WellFormed (slice mem p n) ∨ parse (slice mem p n) = []) :
    (following mem p n).length * 3 + 3 ≤ n := by
  rw [following, List.length_map, List.length_tail, starts_length]
  rcases h with hwell | hnone
  · have hsize := length_mul_three_le (parse (slice mem p n))
    rw [WellFormed, slice_length] at hwell
    omega
  · rw [hnone]
    exact hn

/-- The walk visits exactly the complete TLVs, and makes few calls, exactly if TLVs fill the bytes
or the first one does not fit in them. -/
theorem enumerates_iff (h : n < 2 ^ 31) :
    Enumerates mem p n ↔
      3 ≤ n ∧ (WellFormed (slice mem p n) ∨ parse (slice mem p n) = []) := by
  obtain ⟨tail, hreturns, htail⟩ := walk_returns mem p h
  rw [← htail]
  constructor
  · rintro ⟨w, hw, hvisits, hcalls⟩
    have heq := (hreturns [] 0 w).mp hw
    rw [heq] at hvisits hcalls
    simp only [List.nil_append] at hvisits
    have hempty : tail = [] := List.append_right_eq_self.mp hvisits
    refine ⟨?_, hempty⟩
    simp only at hcalls
    omega
  · rintro ⟨hn, hempty⟩
    refine ⟨_, (hreturns [] 0 _).mpr rfl, ?_, ?_⟩
    · simp [hempty]
    · have hcount := following_length_le hn (htail.mp hempty)
      simp only [hempty, List.length_nil]
      omega

/-- A TLV without a value, and one with two bytes. -/
theorem enumerates_two : Enumerates (fun i => [0x10, 0, 0, 0x11, 2, 0, 7, 8].getD i 0) 0 8 :=
  (enumerates_iff (by decide)).mpr ⟨by decide, .inl (by decide +kernel)⟩

/-- The type of a second TLV is the last byte. -/
theorem not_enumerates_truncated :
    ¬ Enumerates (fun i => [0x10, 0, 0, 0x11].getD i 0) 0 4 := by
  rintro ⟨w, hw, hvisits, -⟩
  have hreturns : Loop.Returns (walkTurn fun i => [0x10, 0, 0, 0x11].getD i 0) (⟨[], 0⟩, ⟨0, 4⟩)
      ⟨[⟨3, 1⟩], 2⟩ := ⟨2, by decide +kernel⟩
  rw [Loop.returns_unique hw hreturns] at hvisits
  revert hvisits
  decide +kernel

end Ndis.NextTlv
