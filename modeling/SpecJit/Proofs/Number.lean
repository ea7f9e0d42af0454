import Mathlib.Algebra.Group.Int.Defs
import Mathlib.Algebra.Group.Nat.Defs
import SpecJit.Lir.Arithmetic
import SpecJit.Value

/-!
# Boxed words and numbers

The tests on words as statements about the number that a word is: the upper 16 bits tell numbers
from the rest, and of the rest only five words are no cells.

An integer of at most 53 bits is a double as it is: its pattern is known (`ofInt_toNat`), and the
integer part of the double gives it back (`toIntClamped_ofInt`). Two doubles that compare equal are
the same one, the negative zero apart (`eq_of_numEq`).

What boxing a number gives and how it is read back. An integer of 52 bits is boxed as an int32 if it
fits and as a double otherwise; both words are the same number (`asNumber?_boxInt52`). A word read
in the encoding that it does not have gives another number: an int32 read as a double is a NaN, and
an integer that does not fit is never equal to an int32.
-/

namespace SpecJit.Value

variable {w v : Word}

/-! ## Masks -/

/-- Masking with `j` ones from bit `k` on. -/
theorem and_ones (n j k : Nat) : n &&& ((2 ^ j - 1) <<< k) = (n / 2 ^ k % 2 ^ j) <<< k := by
  rw [← Nat.and_two_pow_sub_one_eq_mod, ← Nat.shiftRight_eq_div_pow]
  apply Nat.eq_of_testBit_eq
  intro i
  simp only [Nat.testBit_and, Nat.testBit_shiftLeft, Nat.testBit_shiftRight]
  by_cases h : k ≤ i <;> simp [h]

theorem toNat_and_numberTag (w : Word) : (w &&& numberTag).toNat = w.toNat / 2 ^ 48 * 2 ^ 48 := by
  have hlt := w.toNat_lt
  rw [UInt64.toNat_and, show numberTag.toNat = (2 ^ 16 - 1) <<< 48 from rfl, and_ones,
    Nat.mod_eq_of_lt (by omega), Nat.shiftLeft_eq]

theorem toNat_and_not_one (w : Word) : (w &&& ~~~1).toNat = w.toNat / 2 * 2 := by
  have hlt := w.toNat_lt
  rw [UInt64.toNat_and, show (~~~1 : Word).toNat = (2 ^ 63 - 1) <<< 1 from rfl, and_ones,
    Nat.mod_eq_of_lt (by omega)]
  exact Nat.shiftLeft_eq ..

theorem toNat_and_not_undefinedTag (w : Word) :
    (w &&& ~~~undefinedTag).toNat = w.toNat / 16 * 16 + w.toNat % 8 := by
  have high := and_ones w.toNat 60 4
  have hlt := w.toNat_lt
  rw [Nat.mod_eq_of_lt (by omega)] at high
  have low := Nat.and_two_pow_sub_one_eq_mod w.toNat 3
  calc (w &&& ~~~undefinedTag).toNat
      = w.toNat &&& ((2 ^ 60 - 1) <<< 4 ||| (2 ^ 3 - 1)) := UInt64.toNat_and ..
    _ = (w.toNat / 16) <<< 4 ||| w.toNat % 8 := by
      rw [Nat.and_or_distrib_left]
      exact congr (congrArg HOr.hOr high) low
    _ = w.toNat / 16 * 16 + w.toNat % 8 := by
      rw [← Nat.shiftLeft_add_eq_or_of_lt (by omega), Nat.shiftLeft_eq]

theorem toNat_and_notCellMask (w : Word) :
    (w &&& notCellMask).toNat = w.toNat / 2 ^ 48 * 2 ^ 48 + w.toNat / 2 % 2 * 2 := by
  have high := and_ones w.toNat 16 48
  have low := and_ones w.toNat 1 1
  have hlt := w.toNat_lt
  rw [Nat.mod_eq_of_lt (by omega)] at high
  calc (w &&& notCellMask).toNat
      = w.toNat &&& ((2 ^ 16 - 1) <<< 48 ||| (2 ^ 1 - 1) <<< 1) := UInt64.toNat_and ..
    _ = (w.toNat / 2 ^ 48) <<< 48 ||| (w.toNat / 2 % 2) <<< 1 := by
      rw [Nat.and_or_distrib_left]
      exact congr (congrArg HOr.hOr high) low
    _ = _ := by
      rw [← Nat.shiftLeft_add_eq_or_of_lt (by rw [Nat.shiftLeft_eq]; omega), Nat.shiftLeft_eq,
        Nat.shiftLeft_eq]

/-! ## Tests -/

theorem isInt32_iff : isInt32 w = true ↔ 0xffff * 2 ^ 48 ≤ w.toNat := by
  have hlt := w.toNat_lt
  have hand := toNat_and_numberTag w
  have htag : numberTag.toNat = 0xffff * 2 ^ 48 := rfl
  simp only [isInt32, beq_iff_eq, ← UInt64.toNat_inj, htag]
  omega

theorem isNumber_iff : isNumber w = true ↔ 2 ^ 48 ≤ w.toNat := by
  have hand := toNat_and_numberTag w
  have hzero : (0 : Word).toNat = 0 := rfl
  simp only [isNumber, bne_iff_ne, ne_eq, ← UInt64.toNat_inj, hzero]
  omega

theorem isCell_iff : isCell w = true ↔ w.toNat < 2 ^ 48 ∧ w.toNat / 2 % 2 = 0 := by
  have hand := toNat_and_notCellMask w
  have hzero : (0 : Word).toNat = 0 := rfl
  simp only [isCell, beq_iff_eq, ← UInt64.toNat_inj, hzero]
  omega

theorem isBoolean_iff : isBoolean w = true ↔ w = falseWord ∨ w = trueWord := by
  have hand := toNat_and_not_one w
  have hf : falseWord.toNat = 6 := rfl
  have ht : trueWord.toNat = 7 := rfl
  simp only [isBoolean, beq_iff_eq, ← UInt64.toNat_inj, hf, ht]
  omega

theorem isOther_iff : isOther w = true ↔ w = null ∨ w = undefined := by
  have hand := toNat_and_not_undefinedTag w
  have hn : null.toNat = 2 := rfl
  have hu : undefined.toNat = 10 := rfl
  simp only [isOther, beq_iff_eq, ← UInt64.toNat_inj, hn, hu]
  omega

/-- The test for booleans that clears the low bit of the difference from `false`. -/
theorem isBoolean_eq_xor : isBoolean w = ((w ^^^ falseWord) &&& ~~~1 == 0) := by
  have hand := toNat_and_not_one (w ^^^ falseWord)
  have hzero : (0 : Word).toNat = 0 := rfl
  have hone : (1 : Word).toNat = 1 := rfl
  have hsmall : (w ^^^ falseWord) &&& ~~~1 = 0 ↔ w ^^^ falseWord = 0 ∨ w ^^^ falseWord = 1 := by
    simp only [← UInt64.toNat_inj, hand, hzero, hone]
    omega
  have hback (v : Word) : w ^^^ falseWord = v ↔ w = v ^^^ falseWord :=
    ⟨fun h => by rw [← h, UInt64.xor_assoc, UInt64.xor_self, UInt64.xor_zero],
      fun h => by rw [h, UInt64.xor_assoc, UInt64.xor_self, UInt64.xor_zero]⟩
  rw [Bool.eq_iff_iff, isBoolean_iff, beq_iff_eq, hsmall, hback, hback]
  rfl

theorem isInt32_eq_le : isInt32 w = decide (numberTag.toNat ≤ w.toNat) := by
  rw [Bool.eq_iff_iff, isInt32_iff, decide_eq_true_iff]
  rfl

theorem isNumber_of_isInt32 (h : isInt32 w = true) : isNumber w = true := by
  rw [isInt32_iff] at h
  rw [isNumber_iff]
  omega

theorem isNumber_eq_false_of_isCell (h : isCell w = true) : isNumber w = false := by
  rw [← Bool.not_eq_true, isNumber_iff]
  rw [isCell_iff] at h
  omega

end SpecJit.Value

/-! ## Integers as doubles -/

namespace SpecJit

theorem twoPow_eq (n : Nat) : twoPow n = 2 ^ n := by simp [twoPow, Nat.shiftLeft_eq]

namespace FloatFormat

theorem binary64_minExponent : binary64.minExponent = -1074 := by decide

/-- A normal pattern taken apart. -/
theorem parts_assemble {negative : Bool} {field fraction : Nat} (h₀ : 0 < field) (h₁ : field < 2047)
    (hf : fraction < 2 ^ 52) :
    binary64.parts (binary64.assemble negative field fraction) =
      .finite negative (2 ^ 52 + fraction) (-1074 + (field - 1)) := by
  have hsign : ((if negative then 2 ^ 11 else 0) + field) * 2 ^ 52 + fraction =
      (if negative then 2 ^ 63 else 0) + field * 2 ^ 52 + fraction := by
    split <;> omega
  have hfraction : (((if negative then 2 ^ 63 else 0) + field * 2 ^ 52 + fraction) : Nat) % 2 ^
    52 = fraction := by
    split <;> omega
  have hfield : (((if negative then 2 ^ 63 else 0) + field * 2 ^ 52 + fraction) : Nat) / 2 ^ 52 %
    2 ^ 11 = field := by
    split <;> omega
  have hnegative : ((((if negative then 2 ^ 63 else 0) + field * 2 ^ 52 + fraction) : Nat) / 2 ^
    (52 + 11) % 2 == 1) =
      negative := by
    cases negative <;> simp <;> omega
  have htop : (field == binary64.topField) = false := by
    have : binary64.topField = 2047 := by decide
    rw [this, beq_eq_false_iff_ne]
    omega
  have hzero : (field == 0) = false := by rw [beq_eq_false_iff_ne]; omega
  simp only [parts, assemble, twoPow_eq, show binary64.fractionBits = 52 from rfl,
    show binary64.exponentBits = 11 from rfl, hsign, hfraction, hfield, hnegative, htop, hzero,
    binary64_minExponent, Bool.false_eq_true, ↓reduceIte]

/-- An integer of at most 53 bits, shifted to the full width of a significand. -/
theorem significand_bounds {m : Nat} (h₀ : 0 < m) (hm : m < 2 ^ 53) :
    m.log2 ≤ 52 ∧ 2 ^ 52 ≤ m * 2 ^ (52 - m.log2) ∧ m * 2 ^ (52 - m.log2) < 2 ^ 53 := by
  have hlog := (Nat.log2_lt (by omega)).2 hm
  refine ⟨by omega, ?_, ?_⟩
  · calc 2 ^ 52 = 2 ^ m.log2 * 2 ^ (52 - m.log2) := by rw [← Nat.pow_add]; congr 1; omega
      _ ≤ m * 2 ^ (52 - m.log2) := Nat.mul_le_mul_right _ (Nat.log2_self_le (by omega))
  · calc m * 2 ^ (52 - m.log2) < 2 ^ (m.log2 + 1) * 2 ^ (52 - m.log2) :=
        Nat.mul_lt_mul_of_pos_right Nat.lt_log2_self (Nat.two_pow_pos _)
      _ = 2 ^ 53 := by rw [← Nat.pow_add]; congr 1; omega

/-- An integer of at most 53 bits is not rounded. -/
theorem round_exact {negative : Bool} {m : Nat} (h₀ : 0 < m) (hm : m < 2 ^ 53) :
    binary64.round negative m 0 false =
      binary64.assemble negative (m.log2 + 1023) (m * 2 ^ (52 - m.log2) - 2 ^ 52) := by
  obtain ⟨hlog, hlow, hhigh⟩ := significand_bounds h₀ hm
  have hunit : max ((0 : Int) + m.log2 - (52 : Nat)) (-1074) = m.log2 - 52 := by omega
  have hshift : ((0 : Int) - (m.log2 - 52)).toNat = 52 - m.log2 := by omega
  have hfield : ((m.log2 : Int) - 52 - -1074).toNat + 1 = m.log2 + 1023 := by omega
  have htop : ¬ m.log2 + 1023 ≥ 2047 := by omega
  have hz : (m == 0) = false := by rw [beq_eq_false_iff_ne]; omega
  have hle : (m.log2 : Int) - 52 ≤ 0 := by omega
  simp only [round, hz, Bool.false_eq_true, ↓reduceIte, binary64_minExponent, twoPow_eq,
    show binary64.fractionBits = 52 from rfl, show binary64.topField = 2047 by decide, hunit, hle,
    hshift, Nat.shiftLeft_eq, Nat.not_le.2 hhigh, ge_iff_le, Nat.not_lt.2 hlow, hfield]
  rw [if_neg htop]

theorem assemble_eq (negative : Bool) (field fraction : Nat) :
    binary64.assemble negative field fraction = (if negative then 2 ^ 63 else 0) + field * 2 ^
      52 + fraction := by
  simp only [assemble, twoPow_eq, show binary64.fractionBits = 52 from rfl,
    show binary64.exponentBits = 11 from rfl]
  split <;> omega

end FloatFormat

namespace Double

open FloatFormat

variable {n : Int} {a b : Double}

/-- The pattern of an integer other than 0. -/
theorem ofInt_toNat (h₀ : n ≠ 0) (h : n.natAbs < 2 ^ 53) :
    (ofInt n).bits.toNat = binary64.assemble (n < 0) (n.natAbs.log2 + 1023)
      (n.natAbs * 2 ^ (52 - n.natAbs.log2) - 2 ^ 52) := by
  obtain ⟨hlog, hlow, hhigh⟩ := significand_bounds (m := n.natAbs) (by omega) h
  simp only [ofInt, round, round_exact (m := n.natAbs) (by omega) h, UInt64.toNat_ofNat']
  rw [Nat.mod_eq_of_lt]
  rw [assemble_eq]
  split <;> omega

theorem parts_ofInt (h₀ : n ≠ 0) (h : n.natAbs < 2 ^ 53) :
    (ofInt n).parts = .finite (n < 0) (n.natAbs * 2 ^ (52 - n.natAbs.log2))
      (n.natAbs.log2 - 52) := by
  obtain ⟨hlog, hlow, hhigh⟩ := significand_bounds (m := n.natAbs) (by omega) h
  have hm : 2 ^ 52 + (n.natAbs * 2 ^ (52 - n.natAbs.log2) - 2 ^ 52) = n.natAbs * 2 ^
    (52 - n.natAbs.log2) := by omega
  have he : (-1074 : Int) + (((n.natAbs.log2 + 1023 : Nat) : Int) - 1) = n.natAbs.log2 - 52 := by
    omega
  rw [parts, ofInt_toNat h₀ h, parts_assemble (by omega) (by omega) (by omega), hm, he]

/-- An integer of at most 53 bits is the integer part of the double equal to it. -/
theorem toIntClamped_ofInt {lo hi : Int} (h : n.natAbs < 2 ^ 53) (hlo : lo ≤ n) (hhi : n ≤ hi) :
    (ofInt n).toIntClamped lo hi = n := by
  have hclamp : Max.max lo (Min.min hi n) = n := by omega
  by_cases h₀ : n = 0
  · subst h₀
    have hparts : (ofInt 0).parts = .finite false 0 (-1074) := by decide
    simp only [toIntClamped, hparts]
    simpa [truncate] using hclamp
  · obtain ⟨hlog, -, -⟩ := significand_bounds (m := n.natAbs) (by omega) h
    have htruncate : truncate (n < 0) (n.natAbs * 2 ^ (52 - n.natAbs.log2))
      (n.natAbs.log2 - 52) = n := by
      have hmagnitude : (if (0 : Int) ≤ n.natAbs.log2 - 52
          then (n.natAbs * 2 ^ (52 - n.natAbs.log2)) <<< ((n.natAbs.log2 : Int) - 52).toNat
          else (n.natAbs * 2 ^ (52 - n.natAbs.log2)) >>> (-((n.natAbs.log2 : Int) - 52)).toNat)
            = n.natAbs := by
        split
        · have : n.natAbs.log2 = 52 := by omega
          simp [this]
        · rw [show (-((n.natAbs.log2 : Int) - 52)).toNat = 52 - n.natAbs.log2 by omega,
            Nat.shiftRight_eq_div_pow, Nat.mul_div_cancel _ (Nat.two_pow_pos _)]
      simp only [truncate, hmagnitude, decide_eq_true_eq]
      split <;> omega
    simp only [toIntClamped, parts_ofInt h₀ h, htruncate, hclamp]

/-- Different integers of at most 53 bits are different doubles. -/
theorem ofInt_injective {k : Int} (hn : n.natAbs < 2 ^ 53) (hk : k.natAbs < 2 ^ 53)
    (h : ofInt n = ofInt k) : n = k := by
  have hn' : (ofInt n).toIntClamped (-2 ^ 53) (2 ^ 53) = n :=
    toIntClamped_ofInt hn (by omega) (by omega)
  rw [h, toIntClamped_ofInt hk (by omega) (by omega)] at hn'
  exact hn'.symm

/-! ## Signs and NaNs -/

theorem toNat_and_magnitude (w : UInt64) : (w &&& 0x7fffffffffffffff).toNat = w.toNat % 2 ^ 63 := by
  rw [UInt64.toNat_and, show (0x7fffffffffffffff : UInt64).toNat = 2 ^ 63 - 1 from rfl,
    Nat.and_two_pow_sub_one_eq_mod]

theorem isNegative_iff (d : Double) : d.isNegative = true ↔ 2 ^ 63 ≤ d.bits.toNat := by
  have hlt := d.bits.toNat_lt
  have hand : (d.bits &&& 0x8000000000000000).toNat = d.bits.toNat / 2 ^ 63 * 2 ^ 63 := by
    rw [UInt64.toNat_and, show (0x8000000000000000 : UInt64).toNat = (2 ^ 1 - 1) <<< 63 from rfl,
      Value.and_ones, Nat.mod_eq_of_lt (by omega), Nat.shiftLeft_eq]
  have hzero : (0 : UInt64).toNat = 0 := rfl
  simp only [isNegative, bne_iff_ne, ne_eq, ← UInt64.toNat_inj, hand, hzero]
  omega

theorem isNaN_iff (d : Double) : d.isNaN = true ↔ 0x7ff0000000000000 < d.bits.toNat % 2 ^ 63 := by
  simp only [isNaN, gt_iff_lt, decide_eq_true_eq, UInt64.lt_iff_toNat_lt, toNat_and_magnitude]
  rfl

theorem isNegativeZero_iff (d : Double) : d.isNegativeZero = true ↔ d.bits.toNat = 2 ^ 63 := by
  simp only [isNegativeZero, beq_iff_eq, ← UInt64.toNat_inj]
  rfl

theorem ofInt_isNegativeZero (h : n.natAbs < 2 ^ 53) : (ofInt n).isNegativeZero = false := by
  by_cases h₀ : n = 0
  · subst h₀
    decide
  · obtain ⟨hlog, -, hhigh⟩ := significand_bounds (m := n.natAbs) (by omega) h
    rw [← Bool.not_eq_true, isNegativeZero_iff, ofInt_toNat h₀ h, assemble_eq]
    generalize n.natAbs * 2 ^ (52 - n.natAbs.log2) = significand at hhigh ⊢
    split <;> omega

theorem ofInt_isNaN (h : n.natAbs < 2 ^ 53) : (ofInt n).isNaN = false := by
  by_cases h₀ : n = 0
  · subst h₀
    decide
  · obtain ⟨hlog, -, hhigh⟩ := significand_bounds (m := n.natAbs) (by omega) h
    rw [← Bool.not_eq_true, isNaN_iff, ofInt_toNat h₀ h, assemble_eq]
    generalize n.natAbs * 2 ^ (52 - n.natAbs.log2) = significand at hhigh ⊢
    split <;> omega

/-- Doubles that compare equal are the same, the negative zero apart. -/
theorem eq_of_numEq (h : a.numEq b = true) (ha : a.isNegativeZero = false)
    (hb : b.isNegativeZero = false) : a = b := by
  have hka := isNegative_iff a
  have hkb := isNegative_iff b
  rw [← Bool.not_eq_true, isNegativeZero_iff] at ha hb
  simp only [numEq, orderKey, toNat_and_magnitude, Bool.and_eq_true, beq_iff_eq] at h
  have hlta := a.bits.toNat_lt
  have hltb := b.bits.toNat_lt
  have hbits : a.bits.toNat = b.bits.toNat := by
    obtain ⟨-, hkey⟩ := h
    cases hna : a.isNegative <;> cases hnb : b.isNegative <;> simp [hna, hnb] at hka hkb hkey <;>
      omega
  obtain ⟨x⟩ := a
  obtain ⟨y⟩ := b
  exact congrArg Double.mk (UInt64.toNat_inj.1 hbits)

end Double

/-- The same double, or two NaNs. -/
def Double.Same (a b : Double) : Prop := a = b ∨ a.isNaN = true ∧ b.isNaN = true

instance (a b : Double) : Decidable (a.Same b) := inferInstanceAs (Decidable (_ ∨ _))

theorem Double.Same.refl (a : Double) : a.Same a := .inl rfl

theorem Double.Same.symm {a b : Double} (h : a.Same b) : b.Same a := h.imp Eq.symm And.symm

theorem Double.Same.trans {a b c : Double} (h₁ : a.Same b) (h₂ : b.Same c) : a.Same c := by
  rcases h₁ with rfl | ⟨ha, hb⟩
  · exact h₂
  · rcases h₂ with rfl | ⟨-, hc⟩
    · exact .inr ⟨ha, hb⟩
    · exact .inr ⟨ha, hc⟩

namespace Value

variable {n : Int32} {d : Double} {w v : Word}

/-- The same word, or the same number in words that may differ in encoding. -/
def Same (w v : Word) : Prop :=
  w = v ∨ ∃ a b, asNumber? w = some a ∧ asNumber? v = some b ∧ a.Same b

/-! ## Int32 words -/

theorem boxInt32_toNat (n : Int32) : (boxInt32 n).toNat = 0xffff * 2 ^ 48 + n.toUInt32.toNat := by
  have hlt := n.toUInt32.toNat_lt
  rw [boxInt32, UInt64.toNat_or, show numberTag.toNat = 0xffff <<< 48 from rfl,
    ← Nat.shiftLeft_add_eq_or_of_lt (by simpa using Nat.lt_trans hlt (by decide)), Nat.shiftLeft_eq,
    UInt32.toNat_toUInt64]

theorem isInt32_boxInt32 (n : Int32) : isInt32 (boxInt32 n) = true := by
  rw [isInt32_iff, boxInt32_toNat]
  omega

theorem unboxInt32_boxInt32 (n : Int32) : unboxInt32 (boxInt32 n) = n := by
  have hlt := n.toUInt32.toNat_lt
  have hlow : (boxInt32 n).toUInt32 = n.toUInt32 := by
    rw [← UInt32.toNat_inj, UInt64.toNat_toUInt32, boxInt32_toNat]
    omega
  rw [unboxInt32, hlow]
  simp

@[simp] theorem asNumber?_boxInt32 (n : Int32) :
    asNumber? (boxInt32 n) = some (Double.ofInt n.toInt) := by
  simp [asNumber?, isInt32_boxInt32, unboxInt32_boxInt32]

/-- An int32 word read as a double is a NaN. -/
theorem isNaN_unboxDouble (h : isInt32 w = true) : (unboxDouble w).isNaN = true := by
  rw [isInt32_iff] at h
  have hlt := w.toNat_lt
  have hsub : (w - doubleOffset).toNat = w.toNat - 2 ^ 48 := by
    rw [UInt64.toNat_sub_of_le _ _ (by rw [UInt64.le_iff_toNat_le]; show 2 ^ 48 ≤ _; omega)]
    rfl
  rw [unboxDouble, Double.isNaN_iff, hsub]
  omega

/-! ## Double words -/

theorem purifyNaN_toNat_lt (d : Double) : (purifyNaN d).bits.toNat < 0xfffe * 2 ^ 48 := by
  unfold purifyNaN
  split
  · decide
  · rename_i h
    simp only [isImpureNaN, decide_eq_true_eq, UInt64.not_le, UInt64.lt_iff_toNat_lt] at h
    exact h

theorem boxDouble_toNat (d : Double) : (boxDouble d).toNat = (purifyNaN d).bits.toNat + 2 ^ 48 := by
  have hlt := purifyNaN_toNat_lt d
  rw [boxDouble, UInt64.toNat_add, show doubleOffset.toNat = 2 ^ 48 from rfl,
    Nat.mod_eq_of_lt (by omega)]

theorem isInt32_boxDouble (d : Double) : isInt32 (boxDouble d) = false := by
  have hlt := purifyNaN_toNat_lt d
  rw [← Bool.not_eq_true, isInt32_iff, boxDouble_toNat]
  omega

theorem isNumber_boxDouble (d : Double) : isNumber (boxDouble d) = true := by
  rw [isNumber_iff, boxDouble_toNat]
  omega

theorem unboxDouble_boxDouble (d : Double) : unboxDouble (boxDouble d) = purifyNaN d := by
  simp [unboxDouble, boxDouble]

@[simp] theorem asNumber?_boxDouble (d : Double) :
    asNumber? (boxDouble d) = some (purifyNaN d) := by
  simp [asNumber?, isInt32_boxDouble, isNumber_boxDouble, unboxDouble_boxDouble]

theorem isNaN_of_isImpureNaN (h : isImpureNaN d.bits = true) : d.isNaN = true := by
  have hlt := d.bits.toNat_lt
  simp only [isImpureNaN, decide_eq_true_eq, UInt64.le_iff_toNat_le] at h
  rw [Double.isNaN_iff]
  have : impureNaNThreshold.toNat = 0xfffe * 2 ^ 48 := rfl
  omega

theorem purifyNaN_same (d : Double) : (purifyNaN d).Same d := by
  unfold purifyNaN
  split
  · rename_i h
    exact .inr ⟨by decide, isNaN_of_isImpureNaN h⟩
  · exact .inl rfl

/-! ## Integers -/

theorem purifyNaN_of_not_isNaN (h : d.isNaN = false) : purifyNaN d = d := by
  unfold purifyNaN
  rw [if_neg]
  intro hi
  rw [isNaN_of_isImpureNaN hi] at h
  cases h

/-- The int32 equal to a double. -/
theorem eq_ofInt_of_int32OfDouble? (h : int32OfDouble? d = some n) : d = Double.ofInt n.toInt := by
  unfold int32OfDouble? at h
  dsimp only at h
  split at h
  · rename_i hd
    cases h
    rw [Bool.and_eq_true, Bool.not_eq_true'] at hd
    have hlo := d.toInt32.le_toInt
    have hhi := d.toInt32.toInt_lt
    exact (Double.eq_of_numEq hd.1 (Double.ofInt_isNegativeZero (by omega)) hd.2).symm
  · cases h

/-- An integer of 52 bits is one of 32 bits. -/
def fitsInt32 (n : Int64) : Bool := n.toInt32.toInt64 == n

theorem fitsInt32_iff (n : Int64) : fitsInt32 n = true ↔ -2 ^ 31 ≤ n.toInt ∧ n.toInt < 2 ^ 31 := by
  rw [fitsInt32, beq_iff_eq, ← Int64.toInt_inj, Int32.toInt_toInt64, Int64.toInt_toInt32,
    Int.bmod_eq_iff (by decide)]
  omega

theorem toInt_of_fitsInt32 {n : Int64} (h : fitsInt32 n = true) : n.toInt32.toInt = n.toInt := by
  rw [fitsInt32, beq_iff_eq] at h
  rw [← Int32.toInt_toInt64, h]

theorem natAbs_lt_of_isInt52 {n : Int64} (h : isInt52 n = true) : n.toInt.natAbs < 2 ^ 53 := by
  rw [isInt52, Bool.and_eq_true, decide_eq_true_iff, decide_eq_true_iff] at h
  unfold int52Min int52Max at h
  omega

theorem natAbs_lt_of_int32 (n : Int32) : n.toInt.natAbs < 2 ^ 53 := by
  have hlo := n.le_toInt
  have hhi := n.toInt_lt
  omega

theorem isInt32_boxInt52 (n : Int64) : isInt32 (boxInt52 n) = fitsInt32 n := by
  unfold boxInt52
  split
  · rename_i h
    rw [isInt32_boxInt32, fitsInt32, h]
  · rename_i h
    rw [isInt32_boxDouble, fitsInt32, Bool.eq_false_iff.2 h]

/-- Both encodings of an integer of 52 bits are that integer. -/
theorem asNumber?_boxInt52 {n : Int64} (h : isInt52 n = true) :
    asNumber? (boxInt52 n) = some (Double.ofInt n.toInt) := by
  unfold boxInt52
  split
  · rename_i hfits
    rw [asNumber?_boxInt32, toInt_of_fitsInt32 hfits]
  · rw [asNumber?_boxDouble, purifyNaN_of_not_isNaN (Double.ofInt_isNaN (natAbs_lt_of_isInt52 h))]

/-- An integer that does not fit is no int32. -/
theorem not_same_of_not_fitsInt32 {n : Int64} (h : isInt52 n = true) (hf : fitsInt32 n = false)
    (k : Int32) :
    ¬ (Double.ofInt k.toInt).Same (Double.ofInt n.toInt) := by
  rintro (heq | ⟨hnan, -⟩)
  · have hk := Double.ofInt_injective (natAbs_lt_of_int32 k) (natAbs_lt_of_isInt52 h) heq
    have hlo := k.le_toInt
    have hhi := k.toInt_lt
    rw [← Bool.not_eq_true, fitsInt32_iff] at hf
    omega
  · rw [Double.ofInt_isNaN (natAbs_lt_of_int32 k)] at hnan
    cases hnan

/-- A number that is boxed as an int32 if it is one. -/
theorem asNumber?_boxNumber (d : Double) : asNumber? (boxNumber d) = some (purifyNaN d) := by
  unfold boxNumber
  split
  · rename_i n h
    rw [asNumber?_boxInt32, eq_ofInt_of_int32OfDouble? h,
      purifyNaN_of_not_isNaN (Double.ofInt_isNaN (natAbs_lt_of_int32 n))]
  · exact asNumber?_boxDouble d

end Value

end SpecJit
