import SpecJit.Proofs.Kind
import SpecJit.Proofs.Number

/-!
# Boxing and decoding

The five tests on words exclude each other, and `Value.decode` reads a word in the way that the test
it passes asks for (`decode_of_holds`); the words that pass none are invalid. A word that was boxed
passes the test of what was boxed and gives it back (`boxed_decode`). The offset of a double never
carries it into the int32 words: the patterns that would wrap around are NaNs, which are replaced
first, and no integer rounds to a NaN (`Double.isNaN_ofInt`).
-/

namespace SpecJit

/-! ## Rounding stays below the NaNs -/

namespace FloatFormat

variable {m : Nat} {e unit : Int}

theorem roundShift_le (m shift : Nat) (sticky : Bool) :
    roundShift m shift sticky ≤ m / 2 ^ shift + 1 := by
  simp only [roundShift, Nat.shiftRight_eq_div_pow]
  split
  · exact Nat.le_refl _
  · split
    · exact Nat.le_refl _
    · exact Nat.le_succ _

/-- The significand before it is carried into the next power of two has at most 53 bits, or is the
least of 54. -/
theorem significand_le (sticky : Bool) (h₀ : m ≠ 0) (hunit : e + m.log2 - 52 ≤ unit) :
    (if unit ≤ e then m <<< (e - unit).toNat else roundShift m (unit - e).toNat sticky) ≤ 2 ^
      53 := by
  have hm := (Nat.log2_lt h₀).1 (Nat.lt_succ_self m.log2)
  split
  · rename_i hle
    have hexp : m.log2 + 1 + (e - unit).toNat ≤ 53 := by omega
    rw [Nat.shiftLeft_eq]
    calc m * 2 ^ (e - unit).toNat ≤ 2 ^ (m.log2 + 1) * 2 ^ (e
      - unit).toNat := Nat.mul_le_mul_right _ (Nat.le_of_lt hm)
      _ = 2 ^ (m.log2 + 1 + (e - unit).toNat) := (Nat.pow_add ..).symm
      _ ≤ 2 ^ 53 := Nat.pow_le_pow_right (by decide) hexp
  · have hexp : m.log2 + 1 ≤ 53 + (unit - e).toNat := by omega
    have hquotient : m / 2 ^ (unit - e).toNat < 2 ^ 53 := by
      rw [Nat.div_lt_iff_lt_mul (Nat.two_pow_pos _), ← Nat.pow_add]
      exact Nat.lt_of_lt_of_le hm (Nat.pow_le_pow_right (by decide) hexp)
    exact Nat.le_trans (roundShift_le ..) hquotient

/-- A rounded value is finite or infinite: its pattern, the sign apart, is at most the infinity's.
-/
theorem round_le (negative : Bool) (m : Nat) (e : Int) (sticky : Bool) :
    ∃ magnitude ≤ 2047 * 2 ^ 52, binary64.round negative m e sticky = (if negative then 2 ^ 63
      else 0) + magnitude := by
  unfold round
  split
  · exact ⟨0, Nat.zero_le _, assemble_eq ..⟩
  · rename_i hm
    simp only [show binary64.fractionBits = 52 from rfl, twoPow_eq,
      show binary64.topField = 2047 by decide]
    have hunit := Int.le_max_left (e + m.log2 - (52 : Nat)) binary64.minExponent
    generalize max (e + m.log2 - (52 : Nat)) binary64.minExponent = unit at hunit ⊢
    have hsignificand := significand_le sticky (by simpa using hm) hunit
    generalize (if unit ≤ e then m <<< (e - unit).toNat else roundShift m (unit - e).toNat sticky) =
      significand at hsignificand ⊢
    have hcarried : (if significand ≥ 2 ^ (52 + 1) then significand / 2 else significand) < 2 ^
      53 := by split <;> omega
    generalize (if significand ≥ 2 ^ (52 + 1) then significand / 2 else significand) = carried
      at hcarried ⊢
    generalize (if significand ≥ 2 ^ (52 + 1) then unit + 1 else unit) = place
    split
    · exact ⟨carried, by omega, by rw [assemble_eq]; omega⟩
    · generalize (place - binary64.minExponent).toNat + 1 = field
      split
      · exact ⟨2047 * 2 ^ 52, Nat.le_refl _, assemble_eq ..⟩
      · exact ⟨field * 2 ^ 52 + (carried - 2 ^ 52), by omega, by rw [assemble_eq, Nat.add_assoc]⟩

end FloatFormat

/-- An integer rounds to a finite value or an infinity, whatever its size. -/
theorem Double.isNaN_ofInt (n : Int) : (Double.ofInt n).isNaN = false := by
  obtain ⟨magnitude, hle, heq⟩ := FloatFormat.round_le (n < 0) n.natAbs 0 false
  rw [← Bool.not_eq_true, Double.isNaN_iff, Double.ofInt, Double.round, heq, UInt64.toNat_ofNat']
  split <;> omega

namespace Value

variable {w : Word} {d : Double}

/-! ## The tests -/

/-- A test on words. -/
inductive Test where
  | int32
  | double
  | boolean
  | other
  | cell
deriving DecidableEq, Repr

namespace Test

/-- The word passes the test. -/
def holds (w : Word) : Test → Bool
  | int32 => isInt32 w
  | double => isDouble w
  | boolean => isBoolean w
  | other => isOther w
  | cell => isCell w

/-- The word read as the test says. -/
def read (w : Word) : Test → Decoded
  | int32 => .int32 (unboxInt32 w)
  | double => .double (unboxDouble w)
  | boolean => .boolean (unboxBoolean w)
  | other => if w = Value.null then .null else .undefined
  | cell => if w = Value.empty then .empty else .cell w

end Test

/-- The test that the words of a value pass. -/
def Decoded.test? : Decoded → Option Test
  | .int32 _ => some .int32
  | .double _ => some .double
  | .boolean _ => some .boolean
  | .null | .undefined => some .other
  | .empty | .cell _ => some .cell
  | .invalid _ => none

theorem Test.test?_read (t : Test) (w : Word) : (t.read w).test? = some t := by
  cases t with
  | other | cell => simp only [Test.read]; split <;> rfl
  | _ => rfl

/-- A word that passes a test is decoded as the test says. -/
theorem decode_of_holds {t : Test} (h : t.holds w = true) : decode w = t.read w := by
  cases t with
  | int32 =>
    have hint : isInt32 w = true := h
    simp [decode, Test.read, hint]
  | double =>
    have hdouble : isNumber w = true ∧ isInt32 w = false := by simpa [Test.holds, isDouble] using h
    simp [decode, Test.read, hdouble]
  | boolean =>
    obtain rfl | rfl := isBoolean_iff.1 h <;> rfl
  | other =>
    obtain rfl | rfl := isOther_iff.1 h <;> rfl
  | cell =>
    have hcell : isCell w = true := h
    obtain ⟨hint, hnumber, -⟩ := tests_of_isCell hcell
    simp [decode, Test.read, hint, hnumber, hcell]

/-- A word that passes no test is invalid. -/
theorem decode_of_not_holds (h : ∀ t : Test, t.holds w = false) : decode w = .invalid w := by
  have hint : isInt32 w = false := h .int32
  have hdouble : isDouble w = false := h .double
  have hboolean : isBoolean w = false := h .boolean
  have hcell : isCell w = false := h .cell
  have hother : isOther w = false := h .other
  have hnumber : isNumber w = false := by simpa [isDouble, hint] using hdouble
  have hempty : w ≠ Value.empty := by
    rintro rfl
    exact absurd hcell (by decide)
  rw [← Bool.not_eq_true, isOther_iff, not_or] at hother
  simp [decode, hint, hnumber, hempty, hcell, hboolean, hother]

/-- The test that a word passes is the one of what it is decoded to. -/
theorem holds_iff_test?_decode (t : Test) (w : Word) :
    t.holds w = true ↔ (decode w).test? = some t := by
  constructor
  · intro h
    rw [decode_of_holds h, t.test?_read]
  · intro h
    by_cases hsome : ∃ t' : Test, t'.holds w = true
    · obtain ⟨t', ht'⟩ := hsome
      rw [decode_of_holds ht', t'.test?_read, Option.some_inj] at h
      exact h ▸ ht'
    · rw [decode_of_not_holds fun t' => Bool.eq_false_iff.2 fun ht' => hsome ⟨t', ht'⟩] at h
      cases h

/-- The word passes this test and no other, and it is decoded to this value. -/
structure Stands (w : Word) (t : Test) (v : Decoded) : Prop where
  only : ∀ t' : Test, t'.holds w = true ↔ t' = t
  decodes : decode w = v

theorem stands_of_holds {t : Test} {v : Decoded} (h : t.holds w = true) (hv : t.read w = v) :
    Stands w t v where
  only t' := by
    rw [holds_iff_test?_decode, decode_of_holds h, t.test?_read, Option.some_inj]
    exact eq_comm
  decodes := (decode_of_holds h).trans hv

/-! ## Boxed words -/

theorem stands_boxInt32 (n : Int32) : Stands (boxInt32 n) .int32 (.int32 n) :=
  stands_of_holds (isInt32_boxInt32 n) (congrArg Decoded.int32 (unboxInt32_boxInt32 n))

theorem stands_boxDouble (d : Double) : Stands (boxDouble d) .double (.double (purifyNaN d)) :=
  stands_of_holds (by simp [Test.holds, isDouble, isNumber_boxDouble, isInt32_boxDouble])
    (congrArg Decoded.double (unboxDouble_boxDouble d))

theorem stands_boxBoolean (b : Bool) : Stands (boxBoolean b) .boolean (.boolean b) := by
  cases b <;> exact stands_of_holds (by decide) (by decide)

theorem purifyNaN_eq (d : Double) :
    purifyNaN d = if d.bits < impureNaNThreshold then d else Double.pureNaN := by
  simp only [purifyNaN, isImpureNaN, decide_eq_true_eq]
  by_cases h : impureNaNThreshold ≤ d.bits
  · rw [if_pos h, if_neg (UInt64.not_lt.2 h)]
  · rw [if_neg h, if_pos (UInt64.not_le.1 h)]

theorem toInt32_ofInt (n : Int32) : (Double.ofInt n.toInt).toInt32 = n := by
  have hlo := n.le_toInt
  have hhi := n.toInt_lt
  rw [Double.toInt32, Double.toIntClamped_ofInt (natAbs_lt_of_int32 n) (by omega) (by omega),
    Int32.ofInt_toInt]

theorem numEq_self (h : d.isNaN = false) : d.numEq d = true := by simp [Double.numEq, h]

/-- A double is taken for an int32 exactly if it is one; the negative zero is not. -/
theorem int32OfDouble?_eq_some {n : Int32} :
    int32OfDouble? d = some n ↔ d = Double.ofInt n.toInt := by
  refine ⟨eq_ofInt_of_int32OfDouble?, ?_⟩
  rintro rfl
  have heq := numEq_self (Double.isNaN_ofInt n.toInt)
  have hzero := Double.ofInt_isNegativeZero (natAbs_lt_of_int32 n)
  simp [int32OfDouble?, toInt32_ofInt, heq, hzero]

theorem boxNumber_ofInt (n : Int32) : boxNumber (Double.ofInt n.toInt) = boxInt32 n := by
  rw [boxNumber, int32OfDouble?_eq_some.2 rfl]

theorem boxNumber_of_ne (h : ∀ n : Int32, d ≠ Double.ofInt n.toInt) :
    boxNumber d = boxDouble d := by
  have hnone : int32OfDouble? d = none := Option.eq_none_iff_forall_ne_some.2 fun n hn =>
    h n (int32OfDouble?_eq_some.1 hn)
  rw [boxNumber, hnone]

/-- A word made from an integer is an int32 if the integer fits, and the nearest double otherwise.
-/
theorem stands_boxInt52 (n : Int64) :
    if fitsInt32 n then Stands (boxInt52 n) .int32 (.int32 n.toInt32)
    else Stands (boxInt52 n) .double (.double (Double.ofInt n.toInt)) := by
  unfold boxInt52 fitsInt32
  split
  · exact stands_boxInt32 _
  · have hstands := stands_boxDouble (Double.ofInt n.toInt)
    rwa [purifyNaN_of_not_isNaN (Double.isNaN_ofInt _)] at hstands

/-- The number in a word made from any integer, be it an int52 or not. -/
theorem asNumber?_boxInt52_ofInt (n : Int64) :
    asNumber? (boxInt52 n) = some (Double.ofInt n.toInt) := by
  unfold boxInt52
  split
  · rename_i hfits
    rw [asNumber?_boxInt32, toInt_of_fitsInt32 hfits]
  · rw [asNumber?_boxDouble, purifyNaN_of_not_isNaN (Double.isNaN_ofInt _)]

/-- The integer that an int52 was made a double from. -/
theorem doubleAsInt52?_ofInt {n : Int64} (h : isInt52 n = true) :
    doubleAsInt52? (Double.ofInt n.toInt) = some n := by
  have hlt := natAbs_lt_of_isInt52 h
  have hback : (Double.ofInt n.toInt).toInt64 = n := by
    have hlo := n.le_toInt
    have hhi := n.toInt_lt
    rw [Double.toInt64, Double.toIntClamped_ofInt hlt (by omega) (by omega), Int64.ofInt_toInt]
  have heq := numEq_self (Double.isNaN_ofInt n.toInt)
  simp [doubleAsInt52?, hback, heq, h, Double.ofInt_isNegativeZero hlt]

/-- What a constant is as a value, if its word is not an address and not empty. -/
def valueOf? : FrozenValue → Option (Test × Decoded)
  | .undefined => some (.other, .undefined)
  | .null => some (.other, .null)
  | .boolean b => some (.boolean, .boolean b)
  | .int32 n => some (.int32, .int32 n)
  | .double d => some (.double, .double (purifyNaN d))
  | .empty | .cell _ => none

theorem stands_ofFrozen {c : FrozenValue} {t : Test} {v : Decoded} (h : valueOf? c = some (t, v)) :
    Stands (ofFrozen c) t v := by
  cases c with
  | undefined | null =>
    cases h
    exact stands_of_holds (by decide) (by decide)
  | boolean b =>
    cases h
    exact stands_boxBoolean b
  | int32 n =>
    cases h
    exact stands_boxInt32 n
  | double d =>
    cases h
    exact stands_boxDouble d
  | empty | cell => cases h

/-- **Boxing and decoding agree.** Every word passes at most one of the five tests, and `decode`
reads it as that test says. A boxed int32, boolean or double passes the test of its kind alone and
comes back bit by bit, a double from the threshold on as the canonical NaN; a number is boxed as the
int32 equal to it if there is one, an integer as itself or as the double nearest to it, and a
constant as its value. -/
theorem boxed_decode :
    (∀ w, (∀ t t' : Test, t.holds w = true → t'.holds w = true → t = t') ∧
      (∀ t : Test, t.holds w = true ↔ (decode w).test? = some t) ∧
      (∀ t : Test, t.holds w = true → decode w = t.read w) ∧
      ((∀ t : Test, t.holds w = false) → decode w = .invalid w)) ∧
    (∀ n, Stands (boxInt32 n) .int32 (.int32 n) ∧ unboxInt32 (boxInt32 n) = n) ∧
    (∀ b, Stands (boxBoolean b) .boolean (.boolean b) ∧ unboxBoolean (boxBoolean b) = b) ∧
    (∀ d, Stands (boxDouble d) .double (.double (unboxDouble (boxDouble d))) ∧
      unboxDouble (boxDouble d) = if d.bits < impureNaNThreshold then d else Double.pureNaN) ∧
    (∀ d, (∀ n : Int32, d = Double.ofInt n.toInt → Stands (boxNumber d) .int32 (.int32 n)) ∧
      ((∀ n : Int32, d ≠ Double.ofInt n.toInt) → Stands (boxNumber d) .double
        (.double (unboxDouble (boxNumber d)))) ∧
      asNumber? (boxNumber d) = some (if d.bits < impureNaNThreshold then d else Double.pureNaN)) ∧
    (∀ n : Int64, (if -2 ^ 31 ≤ n.toInt ∧ n.toInt < 2 ^ 31 then Stands (boxInt52 n) .int32
      (.int32 n.toInt32)
        else Stands (boxInt52 n) .double (.double (Double.ofInt n.toInt))) ∧
      asNumber? (boxInt52 n) = some (Double.ofInt n.toInt) ∧
      (isInt52 n = true → (asNumber? (boxInt52 n)).bind doubleAsInt52? = some n)) ∧
    ∀ c t v, valueOf? c = some (t, v) → Stands (ofFrozen c) t v := by
  refine ⟨fun w => ⟨fun t t' h h' => ?_, fun t => holds_iff_test?_decode t w,
    fun t => decode_of_holds,
    decode_of_not_holds⟩, fun n => ⟨stands_boxInt32 n, unboxInt32_boxInt32 n⟩,
      fun b => ⟨stands_boxBoolean b, ?_⟩,
    fun d => ⟨?_, ?_⟩, fun d => ⟨?_, fun h => ?_, ?_⟩, fun n =>
      ⟨?_, asNumber?_boxInt52_ofInt n, fun h => ?_⟩,
    fun c t v => stands_ofFrozen⟩
  · rw [holds_iff_test?_decode] at h h'
    exact Option.some_inj.1 (h.symm.trans h')
  · cases b <;> decide
  · rw [unboxDouble_boxDouble]
    exact stands_boxDouble d
  · rw [unboxDouble_boxDouble, purifyNaN_eq]
  · rintro n rfl
    rw [boxNumber_ofInt]
    exact stands_boxInt32 n
  · rw [boxNumber_of_ne h, unboxDouble_boxDouble]
    exact stands_boxDouble d
  · rw [asNumber?_boxNumber, purifyNaN_eq]
  · simp only [← fitsInt32_iff]
    exact stands_boxInt52 n
  · rw [asNumber?_boxInt52 h, Option.bind_some, doubleAsInt52?_ofInt h]

/-- The largest pattern that is boxed as it is, and the constant `null`. -/
theorem boxed_decode_below_threshold :
    unboxDouble (boxDouble ⟨0xfffdffffffffffff⟩) = ⟨0xfffdffffffffffff⟩ ∧
      Stands (ofFrozen .null) .other .null :=
  ⟨(boxed_decode.2.2.2.1 ⟨0xfffdffffffffffff⟩).2.trans (if_pos (by decide)),
    boxed_decode.2.2.2.2.2.2 .null .other .null rfl⟩

end Value

end SpecJit
