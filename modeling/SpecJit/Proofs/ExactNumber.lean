import Mathlib.Algebra.Field.Rat
import Mathlib.Algebra.Order.Ring.Rat
import Mathlib.Data.Int.CharZero
import Mathlib.Data.Rat.Lemmas
import Mathlib.Tactic.FieldSimp
import SpecJit.Op.Basic

/-!
# Exact results of arithmetic

A number of the language that needs no rounding is a rational with a sign, which zero has, too.
`ArithOp.result?` gives the result of an operation on such numbers, if it is finite: the negative
zero is the product of zero and a negative number, say, but never a difference of integers. The
lemmas say what this comes to for integers: when the result is an integer (`ArithOp.Gives`), when it
is the negative zero (`ArithOp.GivesNegativeZero`), and what it wraps to (`ArithOp.wrapped`).
-/

namespace SpecJit

/-- A finite number: a rational one, with the sign that it has even if it is zero. -/
structure ExactNumber where
  value : ℚ
  negative : Bool

namespace ExactNumber

/-- An integer; zero is the positive one. -/
def ofInt (n : Int) : ExactNumber := ⟨n, n < 0⟩

def IsNegativeZero (x : ExactNumber) : Prop := x.value = 0 ∧ x.negative = true

/-- The integer part, toward zero. -/
def truncate (q : ℚ) : Int := q.num.tdiv q.den

def neg (x : ExactNumber) : ExactNumber := ⟨-x.value, !x.negative⟩

def abs (x : ExactNumber) : ExactNumber := if x.negative then x.neg else x

/-- A sum; it is the negative zero only if both numbers are. -/
def add (x y : ExactNumber) : ExactNumber :=
  let sum := x.value + y.value
  ⟨sum, if sum = 0 then x.negative && y.negative else sum < 0⟩

def mul (x y : ExactNumber) : ExactNumber := ⟨x.value * y.value, x.negative != y.negative⟩

def div? (x y : ExactNumber) : Option ExactNumber :=
  if y.value = 0 then none else some ⟨x.value / y.value, x.negative != y.negative⟩

/-- What is left after a division toward zero; it has the sign of the dividend. -/
def mod? (x y : ExactNumber) : Option ExactNumber :=
  if y.value = 0 then none else some ⟨x.value - y.value * truncate (x.value / y.value), x.negative⟩

/-- The integer part, wrapped to 32 bits; 0 for a result that is not finite. -/
def toInt32 : Option ExactNumber → Int32
  | none => 0
  | some x => Int32.ofInt (truncate x.value)

end ExactNumber

namespace ArithOp

open ExactNumber

/-- The exact result of an operation, if it is finite; negation and the absolute value take the
first number only. -/
def result? : ArithOp → ExactNumber → ExactNumber → Option ExactNumber
  | .add, x, y => some (x.add y)
  | .sub, x, y => some (x.add y.neg)
  | .mul, x, y => some (x.mul y)
  | .div, x, y => x.div? y
  | .mod, x, y => x.mod? y
  | .negate, x, _ => some x.neg
  | .abs, x, _ => some x.abs

/-- The exact result on two integers is the integer `n`; a zero of any sign is 0. -/
def Gives (op : ArithOp) (a b n : Int) : Prop :=
  ∃ x, op.result? (ofInt a) (ofInt b) = some x ∧ x.value = n

/-- The exact result on two integers is the negative zero. -/
def GivesNegativeZero (op : ArithOp) (a b : Int) : Prop :=
  ∃ x, op.result? (ofInt a) (ofInt b) = some x ∧ x.IsNegativeZero

/-- The result on two integers, wrapped to 32 bits. -/
def wrapped (op : ArithOp) (a b : Int) : Int32 := toInt32 (op.result? (ofInt a) (ofInt b))

end ArithOp

namespace ExactNumber

/-! ## Truncation -/

@[simp] theorem truncate_intCast (n : Int) : truncate n = n := by simp [truncate]

/-- A quotient of integers, toward zero. -/
theorem truncate_div (a b : Int) : truncate (a / b) = a.tdiv b := by
  by_cases hb : b = 0
  · simp [hb, truncate]
  · obtain ⟨c, ha, hb'⟩ := Rat.exists_eq_mul_div_num_and_eq_mul_div_den a hb
    have hc : c ≠ 0 := by
      rintro rfl
      rw [Int.zero_mul] at hb'
      exact hb hb'
    calc truncate (a / b) = (c * ((a : ℚ) / b).num).tdiv (c * ((a : ℚ) / b).den) := by
          rcases Int.lt_or_gt_of_ne hc with hneg | hpos
          · rw [← Int.neg_tdiv_neg, ← Int.neg_mul, ← Int.neg_mul,
              Int.mul_tdiv_mul_of_pos _ _ (by omega)]
            rfl
          · rw [Int.mul_tdiv_mul_of_pos _ _ hpos]
            rfl
      _ = a.tdiv b := by rw [← ha, ← hb']

/-! ## Quotients of integers -/

variable {a b : Int}

theorem div?_zero (x : ExactNumber) : x.div? (ofInt 0) = none := if_pos (by simp [ofInt])

theorem mod?_zero (x : ExactNumber) : x.mod? (ofInt 0) = none := if_pos (by simp [ofInt])

theorem div?_ofInt (h : b ≠ 0) :
    (ofInt a).div? (ofInt b) = some ⟨a / b, decide (a < 0) != decide (b < 0)⟩ :=
  if_neg (Int.cast_ne_zero.2 h)

theorem mod?_ofInt (h : b ≠ 0) : (ofInt a).mod? (ofInt b) = some ⟨(a.tmod b : Int), a < 0⟩ := by
  have hb : (ofInt b).value ≠ 0 := Int.cast_ne_zero.2 h
  rw [mod?, if_neg hb]
  simp only [ofInt, truncate_div, Int.tmod_def, Int.cast_sub, Int.cast_mul]

end ExactNumber

namespace ArithOp

open ExactNumber

variable {a b n : Int}

/-! ## Integer results -/

@[simp] theorem gives_add : add.Gives a b n ↔ a + b = n := by
  simp only [Gives, result?, ExactNumber.add, ofInt, Option.some.injEq, exists_eq_left']
  norm_cast

@[simp] theorem gives_sub : sub.Gives a b n ↔ a - b = n := by
  simp only [Gives, result?, ExactNumber.add, neg, ofInt, Option.some.injEq, exists_eq_left']
  norm_cast

@[simp] theorem gives_mul : mul.Gives a b n ↔ a * b = n := by
  simp only [Gives, result?, ExactNumber.mul, ofInt, Option.some.injEq, exists_eq_left']
  norm_cast

@[simp] theorem gives_negate : negate.Gives a b n ↔ -a = n := by
  simp only [Gives, result?, neg, ofInt, Option.some.injEq, exists_eq_left']
  norm_cast

@[simp] theorem gives_abs : abs.Gives a b n ↔ (a.natAbs : Int) = n := by
  simp only [Gives, result?, Option.some.injEq, exists_eq_left']
  have hvalue : (ofInt a).abs.value = (a.natAbs : Int) := by
    by_cases h : a < 0
    · have habs : (a.natAbs : Int) = -a := by omega
      rw [habs]
      simp [ExactNumber.abs, neg, ofInt, h]
    · have habs : (a.natAbs : Int) = a := by omega
      rw [habs]
      simp [ExactNumber.abs, ofInt, h]
  rw [hvalue, Int.cast_inj]

@[simp] theorem gives_div : div.Gives a b n ↔ b ≠ 0 ∧ n * b = a := by
  rw [Gives, result?]
  by_cases hb : b = 0
  · simp [hb, div?_zero]
  · have hb' : (b : ℚ) ≠ 0 := Int.cast_ne_zero.2 hb
    simp only [div?_ofInt hb, Option.some.injEq, exists_eq_left', div_eq_iff hb', ne_eq, hb,
      not_false_eq_true, true_and]
    norm_cast
    exact eq_comm

@[simp] theorem gives_mod : mod.Gives a b n ↔ b ≠ 0 ∧ a.tmod b = n := by
  rw [Gives, result?]
  by_cases hb : b = 0
  · simp [hb, mod?_zero]
  · simp only [mod?_ofInt hb, Option.some.injEq, exists_eq_left', Int.cast_inj, ne_eq, hb,
      not_false_eq_true, true_and]

/-! ## The negative zero -/

/-- A sum that is the negative zero is one of two negative numbers. -/
theorem not_isNegativeZero_add {x y : ExactNumber}
    (h : x.value + y.value = 0 → (x.negative && y.negative) = false) :
    ¬ (x.add y).IsNegativeZero := by
  rintro ⟨hzero, hnegative⟩
  simp only [ExactNumber.add] at hzero hnegative
  rw [if_pos hzero, h hzero] at hnegative
  cases hnegative

@[simp] theorem not_givesNegativeZero_add : ¬ add.GivesNegativeZero a b := by
  rintro ⟨x, hx, hnegative⟩
  cases hx
  refine not_isNegativeZero_add (fun hzero => ?_) hnegative
  have hsum : a + b = 0 := by
    simp only [ofInt] at hzero
    exact_mod_cast hzero
  simp only [ofInt, Bool.and_eq_false_iff, decide_eq_false_iff_not]
  omega

@[simp] theorem not_givesNegativeZero_sub : ¬ sub.GivesNegativeZero a b := by
  rintro ⟨x, hx, hnegative⟩
  cases hx
  refine not_isNegativeZero_add (fun hzero => ?_) hnegative
  have hdifference : a + -b = 0 := by
    simp only [ofInt, neg] at hzero
    exact_mod_cast hzero
  simp only [ofInt, neg, Bool.and_eq_false_iff, Bool.not_eq_false', decide_eq_false_iff_not,
    decide_eq_true_eq]
  omega

@[simp] theorem givesNegativeZero_mul :
    mul.GivesNegativeZero a b ↔ a * b = 0 ∧ (a < 0 ∨ b < 0) := by
  simp only [GivesNegativeZero, result?, Option.some.injEq, exists_eq_left', IsNegativeZero,
    ExactNumber.mul, ofInt, bne_iff_ne, ne_eq, decide_eq_decide]
  have hproduct : (a : ℚ) * b = 0 ↔ a * b = 0 := by norm_cast
  rw [hproduct, Int.mul_eq_zero]
  omega

@[simp] theorem givesNegativeZero_div : div.GivesNegativeZero a b ↔ a = 0 ∧ b < 0 := by
  rw [GivesNegativeZero, result?]
  by_cases hb : b = 0
  · simp [hb, div?_zero]
  · simp only [div?_ofInt hb, Option.some.injEq, exists_eq_left', IsNegativeZero, div_eq_zero_iff,
      Int.cast_eq_zero, bne_iff_ne, ne_eq, decide_eq_decide, hb, or_false]
    omega

@[simp] theorem givesNegativeZero_mod :
    mod.GivesNegativeZero a b ↔ b ≠ 0 ∧ a.tmod b = 0 ∧ a < 0 := by
  rw [GivesNegativeZero, result?]
  by_cases hb : b = 0
  · simp [hb, mod?_zero]
  · simp only [mod?_ofInt hb, Option.some.injEq, exists_eq_left', IsNegativeZero, Int.cast_eq_zero,
      decide_eq_true_eq, ne_eq, hb, not_false_eq_true, true_and]

@[simp] theorem givesNegativeZero_negate : negate.GivesNegativeZero a b ↔ a = 0 := by
  simp only [GivesNegativeZero, result?, Option.some.injEq, exists_eq_left', IsNegativeZero, neg,
    ofInt, neg_eq_zero, Int.cast_eq_zero, Bool.not_eq_true', decide_eq_false_iff_not]
  omega

@[simp] theorem not_givesNegativeZero_abs : ¬ abs.GivesNegativeZero a b := by
  rintro ⟨x, hx, -, hnegative⟩
  cases hx
  by_cases h : a < 0 <;> simp [ExactNumber.abs, neg, ofInt, h] at hnegative

/-- The negative zero is a zero. -/
theorem Gives.eq_zero {op : ArithOp} (h : op.Gives a b n) (hzero : op.GivesNegativeZero a b) :
    n = 0 := by
  obtain ⟨x, hx, hn⟩ := h
  obtain ⟨y, hy, hvalue, -⟩ := hzero
  cases hx.symm.trans hy
  exact Int.cast_eq_zero.1 (hn.symm.trans hvalue)

/-! ## Wrapped results -/

theorem wrapped_of_gives {op : ArithOp} (h : op.Gives a b n) : op.wrapped a b = Int32.ofInt n := by
  obtain ⟨x, hx, hn⟩ := h
  rw [wrapped, hx, toInt32, hn, truncate_intCast]

theorem wrapped_div : div.wrapped a b = Int32.ofInt (a.tdiv b) := by
  rw [wrapped, result?]
  by_cases hb : b = 0
  · simp [hb, div?_zero, toInt32]
  · rw [div?_ofInt hb, toInt32, truncate_div]

theorem wrapped_mod : mod.wrapped a b = if b = 0 then 0 else Int32.ofInt (a.tmod b) := by
  by_cases hb : b = 0
  · simp [wrapped, result?, hb, mod?_zero, toInt32]
  · rw [if_neg hb]
    exact wrapped_of_gives (gives_mod.2 ⟨hb, rfl⟩)

end ArithOp

end SpecJit
