import SpecJit.Proofs.Decoding

/-!
# Doubles that are integers of 52 bits

Two functions tell such doubles from others. Values are told apart by converting them there and back
(`doubleAsInt52?_isSome_iff`), and so profiling does (`specType_boxDouble`). The kinds of constants
come from `SpecType.ofDouble`, which asks for an integral value whose magnitude is below `2^51`:
that takes in the negative zero and leaves out the least integer (`ofDouble_eq_int52AsDouble_iff`).
These two are the only doubles that the functions disagree on (`specType_boxDouble_eq_iff`).
-/

namespace SpecJit

namespace Double

open FloatFormat

variable {n : Int} {d : Double}

/-! ## Magnitudes -/

/-- The magnitude of an integer other than 0, as a pattern. -/
theorem ofInt_magnitude (h₀ : n ≠ 0) (h : n.natAbs < 2 ^ 53) :
    (ofInt n).bits.toNat % 2 ^ 63 = (n.natAbs.log2 + 1022) * 2 ^ 52 + n.natAbs * 2 ^
      (52 - n.natAbs.log2) := by
  obtain ⟨hlog, hlow, hhigh⟩ := significand_bounds (m := n.natAbs) (by omega) h
  rw [ofInt_toNat h₀ h, assemble_eq]
  generalize n.natAbs * 2 ^ (52 - n.natAbs.log2) = significand at hlow hhigh ⊢
  split <;> omega

/-- The bound of the analysis, on the pattern. -/
theorem abs_numLt_int52Bound (h : d.isNaN = false) :
    d.abs.numLt SpecType.int52Bound = true ↔ d.bits.toNat % 2 ^ 63 < 1074 * 2 ^ 52 := by
  have hmagnitude : d.abs.bits.toNat = d.bits.toNat % 2 ^ 63 := toNat_and_magnitude _
  have hnan : d.abs.isNaN = false := by
    rw [← Bool.not_eq_true, isNaN_iff, hmagnitude, Nat.mod_mod, ← isNaN_iff, h]
    exact Bool.false_ne_true
  have hpositive : d.abs.isNegative = false := by
    have hlt := Nat.mod_lt d.bits.toNat (Nat.two_pow_pos 63)
    rw [← Bool.not_eq_true, isNegative_iff, hmagnitude]
    omega
  have hbound : SpecType.int52Bound.bits.toNat = 1074 * 2 ^ 52 := by decide
  have hbound' : SpecType.int52Bound.isNegative = false := by decide
  have hbound'' : SpecType.int52Bound.isNaN = false := by decide
  simp only [numLt, hnan, hbound'', orderKey, hpositive, hbound', toNat_and_magnitude, hmagnitude,
    hbound, Bool.not_false, Bool.true_and, Bool.false_eq_true, if_false, decide_eq_true_eq]
  omega

/-! ## Integral values -/

/-- An integer of at most 53 bits is integral. -/
theorem isIntegral_ofInt (h : n.natAbs < 2 ^ 53) : (ofInt n).isIntegral = true := by
  by_cases h₀ : n = 0
  · subst h₀
    decide
  · simp [isIntegral, parts_ofInt h₀ h, twoPow_eq]

/-- The parts of a double below infinity. -/
theorem parts_eq (h : d.bits.toNat % 2 ^ 63 < 2047 * 2 ^ 52) : d.parts =
    if d.bits.toNat % 2 ^ 63 < 2 ^ 52 then .finite d.isNegative (d.bits.toNat % 2 ^ 52) (-1074)
    else .finite d.isNegative (2 ^ 52 + d.bits.toNat % 2 ^ 52)
      ((d.bits.toNat % 2 ^ 63 / 2 ^ 52 : Nat) - 1075) := by
  have hlt := d.bits.toNat_lt
  have hfield : d.bits.toNat / 2 ^ 52 % 2 ^ 11 = d.bits.toNat % 2 ^ 63 / 2 ^ 52 := by omega
  have hnegative : (d.bits.toNat / 2 ^ (52 + 11) % 2 == 1) = d.isNegative := by
    rw [Bool.eq_iff_iff, beq_iff_eq, isNegative_iff]
    omega
  have htop : (d.bits.toNat % 2 ^ 63 / 2 ^ 52 == binary64.topField) = false := by
    rw [show binary64.topField = 2047 by decide, beq_eq_false_iff_ne]
    omega
  simp only [parts, FloatFormat.parts, twoPow_eq, show binary64.fractionBits = 52 from rfl,
    show binary64.exponentBits = 11 from rfl, hfield, hnegative, htop, binary64_minExponent,
    Bool.false_eq_true, if_false]
  by_cases hsmall : d.bits.toNat % 2 ^ 63 < 2 ^ 52
  · rw [if_pos hsmall, if_pos (by rw [beq_iff_eq]; omega)]
  · rw [if_neg hsmall, if_neg (by rw [beq_iff_eq]; omega)]
    congr 1
    omega

theorem eq_of_toNat {a b : Double} (h : a.bits.toNat = b.bits.toNat) : a = b := by
  obtain ⟨x⟩ := a
  obtain ⟨y⟩ := b
  exact congrArg Double.mk (UInt64.toNat_inj.1 h)

/-- An integral double whose magnitude is below `2^53` is an integer, the negative zero apart. -/
theorem eq_ofInt_of_isIntegral (h : d.isIntegral = true)
    (hb : d.bits.toNat % 2 ^ 63 < 1076 * 2 ^ 52) (hz : d.isNegativeZero = false) :
    ∃ n : Int, n.natAbs < 2 ^ 53 ∧ d = ofInt n := by
  have hlt := d.bits.toNat_lt
  have hsign := isNegative_iff d
  rw [← Bool.not_eq_true, isNegativeZero_iff] at hz
  rw [isIntegral, parts_eq (by omega)] at h
  by_cases hsmall : d.bits.toNat % 2 ^ 63 < 2 ^ 52
  · -- no subnormal number is integral
    rw [if_pos hsmall] at h
    obtain ⟨unit, hunit, hle⟩ : ∃ unit : Nat, (-(-1074 : Int)).toNat = unit ∧ 52 ≤ unit :=
      ⟨_, rfl, by decide⟩
    have hfraction : d.bits.toNat % 2 ^ 52 < 2 ^ unit :=
      Nat.lt_of_lt_of_le (Nat.mod_lt _ (Nat.two_pow_pos 52)) (Nat.pow_le_pow_right (by decide) hle)
    simp only [hunit, twoPow_eq, show ¬ (0 : Int) ≤ -1074 by decide, decide_false, Bool.false_or,
      beq_iff_eq, Nat.mod_eq_of_lt hfraction] at h
    refine ⟨0, by decide, eq_of_toNat ?_⟩
    rw [show (ofInt 0).bits.toNat = 0 by decide]
    omega
  · rw [if_neg hsmall] at h
    -- the value is `q * 2^shift` over `2^shift`
    obtain ⟨shift, hshift⟩ : ∃ shift : Nat, d.bits.toNat % 2 ^ 63 / 2 ^ 52 + shift = 1075 :=
      ⟨1075 - d.bits.toNat % 2 ^ 63 / 2 ^ 52, by omega⟩
    have hunit : (-((d.bits.toNat % 2 ^ 63 / 2 ^ 52 : Nat) - 1075 : Int)).toNat = shift := by omega
    have hdvd : 2 ^ shift ∣ 2 ^ 52 + d.bits.toNat % 2 ^ 52 := by
      rw [Bool.or_eq_true, decide_eq_true_iff, beq_iff_eq, hunit, twoPow_eq] at h
      rcases h with h | h
      · have hzero : shift = 0 := by omega
        simp [hzero]
      · exact Nat.dvd_of_mod_eq_zero h
    obtain ⟨q, hq⟩ := hdvd
    have hfraction := Nat.mod_lt d.bits.toNat (Nat.two_pow_pos 52)
    have hq₀ : q ≠ 0 := by
      rintro rfl
      omega
    have hle : shift ≤ 52 := by
      have hpow : 2 ^ shift < 2 ^ 53 := by
        calc 2 ^ shift ≤ 2 ^ shift * q := Nat.le_mul_of_pos_right _ (Nat.pos_of_ne_zero hq₀)
          _ < 2 ^ 53 := by omega
      exact Nat.lt_succ_iff.1 ((Nat.pow_lt_pow_iff_right (by decide)).1 hpow)
    have hlow : 2 ^ shift * 2 ^ (52 - shift) = 2 ^ 52 := by rw [← Nat.pow_add]; congr 1; omega
    have hhigh : 2 ^ shift * 2 ^ (52 - shift + 1) = 2 ^ 53 := by rw [← Nat.pow_add]; congr 1; omega
    have hlog : q.log2 = 52 - shift := (Nat.log2_eq_iff hq₀).2
      ⟨Nat.le_of_mul_le_mul_left (by omega) (Nat.two_pow_pos shift), Nat.lt_of_mul_lt_mul_left (a :=
        2 ^ shift) (by omega)⟩
    have hsize : q < 2 ^ 53 := by
      calc q ≤ 2 ^ shift * q := Nat.le_mul_of_pos_left _ (Nat.two_pow_pos shift)
        _ < 2 ^ 53 := by omega
    -- the integer has the sign of the double, and the fields of the pattern are those of
    -- `ofInt_toNat`
    obtain ⟨n, hn, hnegative⟩ : ∃ n : Int, n.natAbs = q ∧ (n < 0 ↔ d.isNegative = true) := by
      cases d.isNegative with
      | true => exact ⟨-q, by simp, by simp; omega⟩
      | false => exact ⟨q, by simp, by simp⟩
    refine ⟨n, by omega, eq_of_toNat ?_⟩
    have hunshift : 52 - (52 - shift) = shift := by omega
    rw [ofInt_toNat (by omega) (by omega), assemble_eq, hn, hlog, hunshift, Nat.mul_comm q, ← hq]
    by_cases hneg : n < 0
    · have hset := hsign.1 (hnegative.1 hneg)
      simp only [hneg, decide_true, if_true]
      omega
    · have hclear : ¬ 2 ^ 63 ≤ d.bits.toNat := fun hset => hneg (hnegative.2 (hsign.2 hset))
      simp only [hneg, decide_false, Bool.false_eq_true, if_false]
      omega

/-- An integer is below a power of two if its pattern is below that of the power. -/
theorem ofInt_magnitude_lt_iff {k : Nat} (h : n.natAbs < 2 ^ 53) :
    (ofInt n).bits.toNat % 2 ^ 63 < (k + 1023) * 2 ^ 52 ↔ n.natAbs < 2 ^ k := by
  by_cases h₀ : n = 0
  · subst h₀
    have hzero : (ofInt 0).bits.toNat = 0 := by decide
    rw [hzero, Nat.zero_mod, Int.natAbs_zero]
    exact iff_of_true (by omega) (Nat.two_pow_pos k)
  · obtain ⟨hlog, hlow, hhigh⟩ := significand_bounds (m := n.natAbs) (by omega) h
    rw [ofInt_magnitude h₀ h, ← Nat.log2_lt (by omega)]
    generalize n.natAbs * 2 ^ (52 - n.natAbs.log2) = significand at hlow hhigh ⊢
    omega

end Double

open Double

variable {d : Double}

/-! ## Int52 values -/

/-- Only the integers of 52 bits are taken for such. -/
theorem Value.doubleAsInt52?_isSome_iff :
    (Value.doubleAsInt52? d).isSome = true ↔ ∃ n : Int, -2 ^ 51 ≤ n ∧ n < 2 ^ 51 ∧ d = ofInt n := by
  constructor
  · intro h
    rw [Value.doubleAsInt52?] at h
    split at h
    · rename_i hd
      rw [Bool.and_eq_true, Bool.and_eq_true, Bool.not_eq_true'] at hd
      obtain ⟨⟨heq, hrange⟩, hzero⟩ := hd
      have hsize := Value.natAbs_lt_of_isInt52 hrange
      rw [Value.isInt52, Bool.and_eq_true, decide_eq_true_iff, decide_eq_true_iff] at hrange
      unfold Value.int52Min Value.int52Max at hrange
      exact ⟨d.toInt64.toInt,
        by omega, by omega, (eq_of_numEq heq (ofInt_isNegativeZero hsize) hzero).symm⟩
    · cases h
  · rintro ⟨n, hlo, hhi, rfl⟩
    have hback : (Int64.ofInt n).toInt = n := Int64.toInt_ofInt_of_le (by omega) (by omega)
    have hrange : Value.isInt52 (Int64.ofInt n) = true := by
      rw [Value.isInt52, hback, Bool.and_eq_true, decide_eq_true_iff, decide_eq_true_iff]
      unfold Value.int52Min Value.int52Max
      omega
    rw [← hback, Value.doubleAsInt52?_ofInt hrange]
    rfl

/-- The least integer of 52 bits, as a double. -/
def Double.leastInt52 : Double := ofInt Value.int52Min

/-- The analysis takes the same doubles for integers of 52 bits, but for the least integer, which it
leaves out, and the negative zero, which it counts. -/
theorem SpecType.ofDouble_eq_int52AsDouble_iff (h : d.isNaN = false) : ofDouble d = int52AsDouble ↔
    (Value.doubleAsInt52? d).isSome = true ∧ d ≠ leastInt52 ∨ d = zero true := by
  have hkind : ofDouble d = int52AsDouble ↔ d.isIntegral = true ∧
    d.bits.toNat % 2 ^ 63 < (51 + 1023) * 2 ^ 52 := by
    rw [ofDouble, h, if_neg Bool.false_ne_true, ← abs_numLt_int52Bound h, ← Bool.and_eq_true]
    split
    · rename_i hint
      simp [hint]
    · rename_i hint
      simp only [hint, iff_false, Bool.false_eq_true]
      decide
  rw [hkind, Value.doubleAsInt52?_isSome_iff]
  constructor
  · rintro ⟨hint, hsize⟩
    cases hzero : d.isNegativeZero with
    | true =>
      rw [isNegativeZero_iff] at hzero
      exact .inr (eq_of_toNat hzero)
    | false =>
      obtain ⟨n, hn, rfl⟩ := eq_ofInt_of_isIntegral hint (by omega) hzero
      rw [ofInt_magnitude_lt_iff hn] at hsize
      refine .inl ⟨⟨n, by omega, by omega, rfl⟩, fun hleast => ?_⟩
      have hmin : n = -2 ^ 51 := ofInt_injective hn (by decide) hleast
      omega
  · rintro (⟨⟨n, hlo, hhi, rfl⟩, hleast⟩ | rfl)
    · have hne : n ≠ -2 ^ 51 := by
        rintro rfl
        exact hleast rfl
      exact ⟨isIntegral_ofInt (by omega), (ofInt_magnitude_lt_iff (by omega)).2 (by omega)⟩
    · decide

/-- Profiling takes those doubles for integers of 52 bits that `doubleAsInt52?` does. -/
theorem Value.specType_boxDouble (h : d.isNaN = false) :
    specType (boxDouble d) = if (doubleAsInt52? d).isSome then .int52AsDouble
      else .nonIntAsDouble := by
  rw [specType, (stands_boxDouble d).decodes, purifyNaN_of_not_isNaN h]
  exact if_neg (by rw [h]; exact Bool.false_ne_true)

/-- A double that is no NaN is of two kinds. -/
theorem SpecType.ofDouble_eq_or (h : d.isNaN = false) :
    ofDouble d = int52AsDouble ∨ ofDouble d = nonIntAsDouble := by
  rw [ofDouble, h, if_neg Bool.false_ne_true]
  split
  · exact .inl rfl
  · exact .inr rfl

/-- Profiling and the analysis disagree on the least integer and on the negative zero. -/
theorem Value.specType_boxDouble_eq_iff (h : d.isNaN = false) :
    specType (boxDouble d) = .ofDouble d ↔ d ≠ leastInt52 ∧ d ≠ zero true := by
  have hprofile : specType (boxDouble d) = .ofDouble d ↔
      ((doubleAsInt52? d).isSome = true ↔ SpecType.ofDouble d = .int52AsDouble) := by
    rw [specType_boxDouble h]
    rcases SpecType.ofDouble_eq_or h with hd | hd <;> rw [hd] <;>
      cases (doubleAsInt52? d).isSome <;> decide
  have hleast : d = leastInt52 → (doubleAsInt52? d).isSome = true := by
    rintro rfl
    decide
  have hzero : d = zero true → (doubleAsInt52? d).isSome = false := by
    rintro rfl
    decide
  rw [hprofile, SpecType.ofDouble_eq_int52AsDouble_iff h]
  constructor
  · intro hagree
    refine ⟨fun hd => ?_, fun hd => ?_⟩
    · rcases hagree.1 (hleast hd) with ⟨-, hne⟩ | hd'
      · exact hne hd
      · exact absurd (hleast hd) (by simp [hzero hd'])
    · exact absurd (hagree.2 (.inr hd)) (by simp [hzero hd])
  · rintro ⟨hne, hnz⟩
    exact ⟨fun hd => .inl ⟨hd, hne⟩, fun hd => (hd.resolve_right hnz).1⟩

end SpecJit
