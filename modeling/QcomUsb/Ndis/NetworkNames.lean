-- SUMMARY: The text of a network's name: how packed seven-bit text and two-byte text are read, and that text is read as it was written.
import QcomUsb.Library.BitStream
import QcomUsb.Library.TlvEncode

/-!
# Network names

The device sends the name of a network as packed seven-bit text or as two-byte text in either byte
order.
-/

namespace Ndis.Nas

open BitStream Memory Tlv

/-! ## Seven-bit text -/

/-- The loop of `UnpackAscii7Bit` over `n` bytes from `pos` on. -/
def unpackLoop (inp : Nat → UInt8) :
    Nat → Nat → Nat → Nat → (Nat → UInt8) → Nat × (Nat → UInt8)
  | 0, i, _, _, out => (i, out)
  | n + 1, i, pos, shift, out =>
    let c := UInt8.ofNat ((inp pos).toNat <<< shift &&& 0x7F)
    -- but for the first byte, a character has some bits of the byte before
    let c := if pos ≠ 0 then c ||| UInt8.ofNat ((inp (pos - 1)).toNat >>> (8 - shift)) else c
    let out := Function.update out i c
    if shift + 1 = 7 then
      unpackLoop inp n (i + 2) (pos + 1) 0 (Function.update out (i + 1) (inp pos >>> 1))
    else unpackLoop inp n (i + 1) (pos + 1) (shift + 1) out

/-- The loop back over the zeros in front of a position. -/
def textLength (out : Nat → UInt8) : Nat → Nat
  | 0 => 0
  | n + 1 => if out n = 0 then textLength out n else n + 1

/-- `UnpackAscii7Bit`: the length of the text, and `out` with the text. -/
def unpackAscii7Bit (inp : Nat → UInt8) (inLen : UInt8) (out : Nat → UInt8) :
    Nat × (Nat → UInt8) :=
  let r := unpackLoop inp inLen.toNat 0 0 0 out
  (textLength r.2 (r.1 + 1), r.2)

/-- Seven-bit text as it is packed. -/
def packAscii7Bit (text : List UInt8) : List UInt8 :=
  (List.range ((7 * text.length + 7) / 8)).map fun j =>
    .ofNat (regroup 7 8 (fun k => (text.getD k 0).toNat) j)

/-- The groups of seven bits in some bytes. -/
def septets (inp : Nat → UInt8) : Nat → Nat := regroup 8 7 fun i => (inp i).toNat

theorem toNat_lt_two_pow (b : UInt8) : b.toNat < 2 ^ 8 := b.toNat_lt

/-- The character at `pos` has the last bits of the byte before and the first bits of its own. -/
theorem first_septet (inp : Nat → UInt8) (pos : Nat) :
    (if pos ≠ 0 then UInt8.ofNat ((inp pos).toNat <<< (pos % 7) &&& 0x7F) |||
        UInt8.ofNat ((inp (pos - 1)).toNat >>> (8 - pos % 7))
      else UInt8.ofNat ((inp pos).toNat <<< (pos % 7) &&& 0x7F)) =
      UInt8.ofNat (septets inp (pos + pos / 7)) := by
  have hshift : pos % 7 < 7 := Nat.mod_lt pos (by decide)
  have hpos : 7 * (pos + pos / 7) + pos % 7 = 8 * pos := by omega
  have hown : ((inp pos).toNat <<< (pos % 7) &&& 0x7F) < 2 ^ 7 :=
    Nat.and_lt_two_pow _ (by decide)
  have hmask : ∀ j < 7, Nat.testBit 0x7F j = true := by decide
  have hlow : ∀ j < 7, pos % 7 ≤ j →
      bits 8 (fun i => (inp i).toNat) (7 * (pos + pos / 7) + j) =
        (inp pos).toNat.testBit (j - pos % 7) := by
    intro j hj hle
    have heq : 7 * (pos + pos / 7) + j = 8 * pos + (j - pos % 7) := by omega
    rw [heq, bits_digit (by omega)]
  by_cases hzero : pos = 0
  · subst hzero
    rw [if_neg (not_not.mpr rfl)]
    congr 1
    refine eq_digits hown fun j hj => ?_
    rw [hlow j hj (Nat.zero_le j)]
    simp [Nat.testBit_and, hmask j hj]
  · rw [if_pos hzero]
    have hrest : (inp (pos - 1)).toNat >>> (8 - pos % 7) < 2 ^ 7 := by
      rw [Nat.shiftRight_eq_div_pow]
      have hle : 2 ^ 1 ≤ 2 ^ (8 - pos % 7) := Nat.pow_le_pow_right (by decide) (by omega)
      exact Nat.div_lt_of_lt_mul ((toNat_lt_two_pow _).trans_le (Nat.mul_le_mul_right (2 ^ 7) hle))
    have hor : UInt8.ofNat ((inp pos).toNat <<< (pos % 7) &&& 0x7F) |||
        UInt8.ofNat ((inp (pos - 1)).toNat >>> (8 - pos % 7)) =
        UInt8.ofNat (((inp pos).toNat <<< (pos % 7) &&& 0x7F) |||
          (inp (pos - 1)).toNat >>> (8 - pos % 7)) := by
      rw [UInt8.ofNat_or]
    rw [hor]
    congr 1
    refine eq_digits (Nat.or_lt_two_pow hown hrest) fun j hj => ?_
    rw [Nat.testBit_or, Nat.testBit_and, Nat.testBit_shiftLeft, Nat.testBit_shiftRight, hmask j hj]
    by_cases hle : pos % 7 ≤ j
    · have hnone : (inp (pos - 1)).toNat.testBit (8 - pos % 7 + j) = false :=
        Nat.testBit_lt_two_pow ((toNat_lt_two_pow _).trans_le
          (Nat.pow_le_pow_right (by decide) (by omega)))
      rw [hlow j hj hle, hnone]
      simp [hle]
    · have heq : 7 * (pos + pos / 7) + j = 8 * (pos - 1) + (8 - pos % 7 + j) := by omega
      rw [heq, bits_digit (by omega)]
      simp [hle]

/-- Each seventh byte has the bits of another character. -/
theorem second_septet (inp : Nat → UInt8) {pos : Nat} (h : pos % 7 = 6) :
    inp pos >>> 1 = UInt8.ofNat (septets inp (pos + pos / 7 + 1)) := by
  apply UInt8.toNat_inj.mp
  have hlt : (inp pos).toNat >>> 1 < 2 ^ 7 := by
    rw [Nat.shiftRight_eq_div_pow]
    exact Nat.div_lt_of_lt_mul (toNat_lt_two_pow _)
  have heq : (inp pos).toNat >>> 1 = septets inp (pos + pos / 7 + 1) := by
    refine eq_digits hlt fun j hj => ?_
    have hbit : 7 * (pos + pos / 7 + 1) + j = 8 * pos + (1 + j) := by omega
    rw [Nat.testBit_shiftRight, hbit, bits_digit (by omega)]
  have hlt' : (inp pos).toNat >>> 1 < UInt8.size := hlt.trans (by decide)
  rw [← heq, UInt8.toNat_shiftRight, UInt8.toNat_ofNat', Nat.mod_eq_of_lt hlt']
  rfl

/-- The bytes give one character each, and one more for seven of them. -/
theorem unpackLoop_eq (inp : Nat → UInt8) (n pos : Nat) (out : Nat → UInt8) :
    unpackLoop inp n (pos + pos / 7) pos (pos % 7) out =
      (pos + n + (pos + n) / 7, fun k =>
        if pos + pos / 7 ≤ k ∧ k < pos + n + (pos + n) / 7 then UInt8.ofNat (septets inp k)
        else out k) := by
  induction n generalizing pos out with
  | zero =>
    rw [unpackLoop]
    congr 1
    funext k
    rw [if_neg (by omega)]
  | succ n ih =>
    rw [unpackLoop, first_septet]
    have hend : pos + (n + 1) = pos + 1 + n := by omega
    split_ifs with hseven
    · have hi : pos + pos / 7 + 2 = pos + 1 + (pos + 1) / 7 := by omega
      have hshift : 0 = (pos + 1) % 7 := by omega
      rw [second_septet inp (by omega), hi, hshift, ih, hend]
      congr 1
      funext k
      simp only [Function.update_apply]
      by_cases hsecond : k = pos + pos / 7 + 1
      · rw [if_neg (by omega), if_pos hsecond, if_pos (by omega), hsecond]
      · rw [if_neg hsecond]
        by_cases hfirst : k = pos + pos / 7
        · rw [if_neg (by omega), if_pos hfirst, if_pos (by omega), hfirst]
        · rw [if_neg hfirst]
          exact if_congr (by omega) rfl rfl
    · have hi : pos + pos / 7 + 1 = pos + 1 + (pos + 1) / 7 := by omega
      have hshift : pos % 7 + 1 = (pos + 1) % 7 := by omega
      rw [hi, hshift, ih, hend]
      congr 1
      funext k
      simp only [Function.update_apply]
      by_cases hfirst : k = pos + pos / 7
      · rw [if_neg (by omega), if_pos hfirst, if_pos (by omega), hfirst]
      · rw [if_neg hfirst]
        exact if_congr (by omega) rfl rfl

theorem textLength_eq {out : Nat → UInt8} {n m : Nat} (hle : m ≤ n)
    (hzero : ∀ k, m ≤ k → k < n → out k = 0) (hlast : m ≠ 0 → out (m - 1) ≠ 0) :
    textLength out n = m := by
  induction n with
  | zero => exact (Nat.le_zero.mp hle).symm
  | succ n ih =>
    rw [textLength]
    by_cases heq : m = n + 1
    · subst heq
      exact if_neg (hlast (by omega))
    · rw [if_pos (hzero n (by omega) (Nat.lt_succ_self n))]
      exact ih (by omega) fun k hk hlt => hzero k hk (by omega)

/-- Packed text is unpacked again, with zeros behind it. -/
theorem unpackLoop_pack {text : List UInt8} {inp : Nat → UInt8} {n : Nat}
    (hseven : ∀ c ∈ text, c < 128) (h : slice inp 0 n = packAscii7Bit text) :
    unpackLoop inp n 0 0 0 (fun _ => 0) = (n + n / 7, fun k => text.getD k 0) := by
  have hlength : n = (7 * text.length + 7) / 8 := by
    simpa [packAscii7Bit] using congrArg List.length h
  have hdigit : ∀ k, (text.getD k 0).toNat < 2 ^ 7 := by
    intro k
    by_cases hk : k < text.length
    · rw [List.getD_eq_getElem text 0 hk]
      exact hseven _ (List.getElem_mem hk)
    · rw [List.getD_eq_default text 0 (Nat.not_lt.mp hk)]
      decide
  have hbyte : ∀ j < n, (inp j).toNat = regroup 7 8 (fun k => (text.getD k 0).toNat) j := by
    intro j hj
    have hget := getD_slice inp 0 hj 0
    rw [Nat.zero_add] at hget
    rw [← hget, h, packAscii7Bit, List.getD_eq_getElem _ 0 (by simpa [← hlength] using hj)]
    simp only [List.getElem_map, List.getElem_range]
    exact UInt8.toNat_ofNat_of_lt (digits_lt 8 _ j)
  have hchar : ∀ k < n + n / 7, UInt8.ofNat (septets inp k) = text.getD k 0 := by
    intro k hk
    rw [septets, regroup_congr (by decide) hbyte (by omega), regroup_regroup (by decide) (hdigit k),
      UInt8.ofNat_toNat]
  have hloop := unpackLoop_eq inp n 0 fun _ => 0
  simp only [Nat.zero_div, Nat.zero_mod, Nat.zero_add, Nat.zero_le, true_and] at hloop
  rw [hloop]
  congr 1
  funext k
  split_ifs with hk
  · exact hchar k hk
  · exact (List.getD_eq_default text 0 (by omega)).symm

theorem unpackAscii7Bit_pack {text : List UInt8} {inp : Nat → UInt8} {inLen : UInt8}
    (hseven : ∀ c ∈ text, c < 128) (hlast : text.getLast? ≠ some 0)
    (h : slice inp 0 inLen.toNat = packAscii7Bit text) :
    unpackAscii7Bit inp inLen (fun _ => 0) = (text.length, fun k => text.getD k 0) := by
  have hlength : inLen.toNat = (7 * text.length + 7) / 8 := by
    simpa [packAscii7Bit] using congrArg List.length h
  rw [unpackAscii7Bit, unpackLoop_pack hseven h, textLength_eq (m := text.length) (by omega)]
  · intro k hk _
    exact List.getD_eq_default text 0 hk
  · intro hne
    dsimp only
    rw [List.getD_eq_getElem text 0 (by omega)]
    intro hzero
    rw [List.getLast?_eq_getElem?, List.getElem?_eq_getElem (by omega), hzero] at hlast
    exact hlast rfl

/-- Eight characters in seven bytes. -/
def sampleText : List UInt8 := [0x56, 0x6F, 0x64, 0x61, 0x66, 0x6F, 0x6E, 0x65]

set_option maxRecDepth 2048 in
theorem unpackAscii7Bit_pack_sample :
    unpackAscii7Bit (fun i => (packAscii7Bit sampleText).getD i 0) 7 (fun _ => 0) =
      (8, fun k => sampleText.getD k 0) := by
  have hseven : ∀ c ∈ sampleText, c < 128 := by
    simp only [sampleText, List.forall_mem_cons, List.not_mem_nil]
    decide
  have hlast : sampleText.getLast? ≠ some 0 := by decide
  have hbytes : slice (fun i => (packAscii7Bit sampleText).getD i 0) 0 (7 : UInt8).toNat =
      packAscii7Bit sampleText := by decide +kernel
  exact unpackAscii7Bit_pack hseven hlast hbytes

/-! ## Two-byte text -/

inductive TextOrder
  | big
  | markedBig
  | markedLittle
  deriving DecidableEq

/-- The byte order mark. -/
def TextOrder.mark : TextOrder → List UInt8
  | .big => []
  | .markedBig => [0xFE, 0xFF]
  | .markedLittle => [0xFF, 0xFE]

def TextOrder.unit (order : TextOrder) (c : UInt16) : List UInt8 :=
  match order with
  | .markedLittle => le16 c.toNat
  | _ => (le16 c.toNat).reverse

/-- Two-byte text as it is sent. -/
def TextOrder.encode (order : TextOrder) (text : List UInt16) : List UInt8 :=
  order.mark ++ text.flatMap order.unit

theorem length_unit (order : TextOrder) (c : UInt16) : (order.unit c).length = 2 := by
  cases order <;> rfl

theorem length_flatMap_unit (order : TextOrder) (text : List UInt16) :
    (text.flatMap order.unit).length = 2 * text.length := by
  induction text with
  | nil => rfl
  | cons c text ih =>
    rw [List.flatMap_cons, List.length_append, length_unit, ih, List.length_cons]
    omega

theorem length_encode (order : TextOrder) (text : List UInt16) :
    (order.encode text).length = order.mark.length + 2 * text.length := by
  rw [TextOrder.encode, List.length_append, length_flatMap_unit]

variable {mem : Nat → UInt8} {p q n : Nat} {text : List UInt16} {order : TextOrder}

theorem slice_congr {mem' : Nat → UInt8} (h : ∀ i, p ≤ i → i < p + n → mem' i = mem i) :
    slice mem' p n = slice mem p n :=
  List.map_congr_left fun k hk => h (p + k) (by omega) (by have := List.mem_range.mp hk; omega)

/-- The text does not begin like one with a byte order mark. -/
def TextOrder.Plain (order : TextOrder) (text : List UInt16) : Prop :=
  order = .big → text.head? ≠ some 0xFEFF ∧ text.head? ≠ some 0xFFFE

end Ndis.Nas
