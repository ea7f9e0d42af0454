import SpecJit.Exit
import SpecJit.Lir.Arithmetic
import SpecJit.Proofs.ExactNumber
import SpecJit.Proofs.Lir.Integers

/-!
# Checked arithmetic

Code for arithmetic on int32 values makes its checks one after the other. `outcome32` says what it
comes to: the exit that the first failing check leaves by, or a result. If overflows are checked, a
result is the exact one (`outcome32_eq_ok_iff`), and else it is the wrapped one
(`outcome32_wrapped`).

Code for integers of 52 bits works on shifted words. What it makes of them, with checks of the
machine word, is what checks on the exact result come to (`outcome52`, `add_shifted` and those after
it).
-/

namespace SpecJit

open Lir

/-- The integer is no int32. -/
def exceedsInt32 (n : Int) : Bool := decide (n < -0x80000000 ∨ 0x80000000 ≤ n)

/-- A result with a check in front of it. -/
theorem checked_eq_ok_iff {ε α : Type} {p : Bool} {e : ε} {o : Except ε α} {x : α} :
    (if p = true then .error e else o) = .ok x ↔ p = false ∧ o = .ok x := by
  cases p <;> simp

theorem checked_eq_error_iff {ε α : Type} {p : Bool} {e e' : ε} {o : Except ε α} :
    (if p = true then .error e else o) = .error e' ↔ p = true ∧ e = e' ∨ p = false ∧
    o = .error e' := by
  cases p <;> simp

theorem map_checked {ε α β : Type} {p : Bool} {e : ε} {o : Except ε α} {f : α → β} :
    (if p = true then .error e else o).map f = if p = true then .error e else o.map f := by
  cases p <;> rfl

/-- A check that is made only if it is asked for. -/
theorem passed_iff {p q : Bool} {P : Prop} (hq : q = true ↔ P) :
    (p && q) = false ↔ (p = true → ¬ P) := by
  rw [← hq]
  cases p <;> simp

section Words

variable {a b n r : Int32} {z : Int}

theorem exceedsInt32_eq_false_iff : exceedsInt32 z = false ↔ -2 ^ 31 ≤ z ∧ z < 2 ^ 31 := by
  rw [exceedsInt32, decide_eq_false_iff_not]
  omega

theorem Lir.OverflowOp.eval_int32 (op : OverflowOp) (a b : Int32) :
    op.eval .i32 (ofInt32 a) (ofInt32 b) = exceedsInt32 (op.exact a.toInt b.toInt) := by
  simp only [eval, low32_ofInt32, exceedsInt32]

theorem toInt_wrapped (hr : r.toInt = z.bmod (2 ^ 32)) (hz : exceedsInt32 z = false) :
    r.toInt = z := by
  have hrange := exceedsInt32_eq_false_iff.1 hz
  rw [hr, Int.bmod_eq_iff (by decide)]
  omega

/-- A wrapped integer that does not exceed int32 is the integer itself. -/
theorem wrapped_eq_iff (hr : r.toInt = z.bmod (2 ^ 32)) :
    exceedsInt32 z = false ∧ r = n ↔ z = n.toInt := by
  constructor
  · rintro ⟨hz, rfl⟩
    exact (toInt_wrapped hr hz).symm
  · rintro rfl
    have hz : exceedsInt32 n.toInt = false := exceedsInt32_eq_false_iff.2 ⟨n.le_toInt, n.toInt_lt⟩
    exact ⟨hz, Int32.toInt_inj.1 (toInt_wrapped hr hz)⟩

theorem ofInt_eq_wrapped (hr : r.toInt = z.bmod (2 ^ 32)) : r = Int32.ofInt z :=
  Int32.toInt_inj.1 (hr.trans Int32.toInt_ofInt.symm)

/-- The sign bit in all bits. -/
theorem shiftRight_31 (a : Int32) : a >>> 31 = if a.toInt < 0 then -1 else 0 := by
  have hlo := a.le_toInt
  have hhi := a.toInt_lt
  have hamount : BitVec.sshiftRight' a.toBitVec ((Int32.toBitVec 31).smod 32)
    = a.toBitVec.sshiftRight 31 := by
    rw [BitVec.sshiftRight']
    rfl
  have hshift : (a >>> 31).toInt = a.toInt / 0x80000000 := by
    rw [← Int32.toInt_toBitVec, Int32.toBitVec_shiftRight, hamount, BitVec.toInt_sshiftRight,
      Int32.toInt_toBitVec, Int.shiftRight_eq_div_pow]
    rfl
  apply Int32.toInt_inj.1
  rw [hshift]
  split
  · have hquotient : a.toInt / 0x80000000 = -1 := by omega
    rw [hquotient]
    rfl
  · have hquotient : a.toInt / 0x80000000 = 0 := by omega
    rw [hquotient]
    rfl

/-- The absolute value from the sign bit. -/
theorem abs_eq (a : Int32) : (a ^^^ a >>> 31) - a >>> 31 = if a.toInt < 0 then -a else a := by
  rw [shiftRight_31]
  split
  · rw [Int32.xor_neg_one, Int32.sub_neg, ← Int32.neg_eq_not_add]
  · simp

/-- Of the quotients toward zero, only that of the least int32 by -1 is no int32. -/
theorem exceedsInt32_tdiv_iff :
    exceedsInt32 (a.toInt.tdiv b.toInt) = true ↔ a = Int32.minValue ∧ b = -1 := by
  have hlo := a.le_toInt
  have hhi := a.toInt_lt
  rw [← Bool.not_eq_false, exceedsInt32_eq_false_iff]
  constructor
  · intro h
    have habs := Int.natAbs_tdiv a.toInt b.toInt
    have hb : b.toInt = -1 := by
      by_contra hb
      by_cases hsmall : b.toInt = 0 ∨ b.toInt = 1
      · have hquotient : a.toInt.tdiv b.toInt = 0 ∨ a.toInt.tdiv b.toInt = a.toInt := by
          rcases hsmall with hb | hb <;> simp [hb]
        omega
      · have hle : a.toInt.natAbs / b.toInt.natAbs ≤ a.toInt.natAbs / 2 :=
          Nat.div_le_div_left (by omega) (by decide)
        change (a.toInt.tdiv b.toInt).natAbs = a.toInt.natAbs / b.toInt.natAbs at habs
        omega
    rw [hb] at h
    simp only [Int.tdiv_neg, Int.tdiv_one] at h
    refine ⟨Int32.toInt_inj.1 ?_, Int32.toInt_inj.1 hb⟩
    rw [Int32.toInt_minValue]
    omega
  · rintro ⟨rfl, rfl⟩
    decide

theorem toInt_eq_zero_iff : a.toInt = 0 ↔ a = 0 := Int32.toInt_inj (y := 0)

/-- The quotient exists and is an int32. -/
theorem divisible_iff : (b == 0 || (a == Int32.minValue && b == -1)) = false ↔
    b.toInt ≠ 0 ∧ exceedsInt32 (a.toInt.tdiv b.toInt) = false := by
  rw [← Bool.not_eq_true, ← Bool.not_eq_true, exceedsInt32_tdiv_iff, ne_eq, toInt_eq_zero_iff]
  simp only [Bool.or_eq_true, beq_iff_eq, Bool.and_eq_true, not_or]

theorem div_mul_add_mod (a b : Int32) : a / b * b + a % b = a := by
  apply Int32.toInt_inj.1
  rw [Int32.toInt_add, Int32.toInt_mul, Int32.toInt_div, Int32.toInt_mod, Int.bmod_mul_bmod,
    Int.bmod_add_bmod, Int.tdiv_mul_add_tmod, Int32.toInt_bmod]

/-- A division is exact if nothing is left. -/
theorem div_mul_eq_iff : a / b * b = a ↔ a.toInt.tmod b.toInt = 0 := by
  have h := div_mul_add_mod a b
  rw [← Int32.toInt_mod, toInt_eq_zero_iff]
  constructor
  · intro hexact
    rw [hexact] at h
    simpa using h
  · intro hzero
    rwa [hzero, Int32.add_zero] at h

theorem srem_eq (hb : b.toInt ≠ 0) : (binary32 .srem a b).toInt = a.toInt.tmod b.toInt := by
  rw [ne_eq, toInt_eq_zero_iff] at hb
  rw [binary32, if_neg (by simpa using hb), Int32.toInt_mod]

end Words

namespace ArithOp

variable {op : ArithOp} {mode : ArithMode} {a b n : Int32} {kind : ExitKind}

/-- What arithmetic on int32 values comes to: the exit that the first failing check leaves by, or
the result. -/
def outcome32 (op : ArithOp) (mode : ArithMode) (a b : Int32) : Except ExitKind Int32 :=
  match op with
  | .add =>
    if mode.checksOverflow && exceedsInt32 (a.toInt + b.toInt) then .error .overflow
      else .ok (a + b)
  | .sub =>
    if mode.checksOverflow && exceedsInt32 (a.toInt - b.toInt) then .error .overflow
      else .ok (a - b)
  | .mul =>
    if mode.checksOverflow && exceedsInt32 (a.toInt * b.toInt) then .error .overflow
    else if mode.checksNegativeZero && (a * b == 0 && decide (a.toInt < 0 ∨ b.toInt < 0))
      then .error .negativeZero
    else .ok (a * b)
  | .div =>
    if mode.checksOverflow && (b == 0 || (a == Int32.minValue && b == -1)) then .error .overflow
    else if mode.checksNegativeZero && (a == 0 && decide (b.toInt < 0)) then .error .negativeZero
    else if mode.checksOverflow && a / b * b != a then .error .overflow
    else .ok (a / b)
  | .mod =>
    if mode.checksOverflow && (b == 0 || (a == Int32.minValue && b == -1)) then .error .overflow
    else if mode.checksNegativeZero && (binary32 .srem a b == 0 && decide (a.toInt < 0)) then .error
      .negativeZero
    else .ok (binary32 .srem a b)
  | .negate =>
    if mode.checksOverflow && a == Int32.minValue then .error .overflow
    else if mode.checksNegativeZero && a == 0 then .error .negativeZero
    else .ok (-a)
  | .abs =>
    if mode.checksOverflow && decide (((a ^^^ a >>> 31) - a >>> 31).toInt < 0) then .error .overflow
    else .ok ((a ^^^ a >>> 31) - a >>> 31)

/-- The exact result is an int32 that the mode lets pass. The remainder of the least int32 by -1
counts as the overflow that its quotient is. -/
structure Passes32 (op : ArithOp) (mode : ArithMode) (a b n : Int32) : Prop where
  exact : op.Gives a.toInt b.toInt n.toInt
  signed : mode.checksNegativeZero = true → ¬ op.GivesNegativeZero a.toInt b.toInt
  divides : ¬ (op = .mod ∧ a = Int32.minValue ∧ b = -1)

theorem mul_eq_ok_iff (h : mode.checksOverflow = true) :
    mul.outcome32 mode a b = .ok n ↔ mul.Passes32 mode a b n := by
  have hzero {r : Int32} (hr : r.toInt = a.toInt * b.toInt) :
      (r == 0 && decide (a.toInt < 0 ∨ b.toInt < 0)) = true ↔ mul.GivesNegativeZero a.toInt
        b.toInt := by
    rw [givesNegativeZero_mul, ← hr, toInt_eq_zero_iff, Bool.and_eq_true, beq_iff_eq,
      decide_eq_true_iff]
  simp only [outcome32, checked_eq_ok_iff, h, Bool.true_and, Except.ok.injEq]
  constructor
  · rintro ⟨hfits, hsigned, rfl⟩
    have hproduct := toInt_wrapped (Int32.toInt_mul a b) hfits
    exact ⟨gives_mul.2 hproduct.symm, (passed_iff (hzero hproduct)).1 hsigned, by simp⟩
  · rintro ⟨hexact, hsigned, -⟩
    rw [gives_mul] at hexact
    obtain ⟨hfits, rfl⟩ := (wrapped_eq_iff (Int32.toInt_mul a b)).2 hexact
    exact ⟨hfits, (passed_iff (hzero hexact.symm)).2 hsigned, rfl⟩

theorem div_eq_ok_iff (h : mode.checksOverflow = true) :
    div.outcome32 mode a b = .ok n ↔ div.Passes32 mode a b n := by
  have hzero : (a == 0 && decide (b.toInt < 0)) = true ↔ div.GivesNegativeZero a.toInt b.toInt := by
    rw [givesNegativeZero_div, toInt_eq_zero_iff, Bool.and_eq_true, beq_iff_eq, decide_eq_true_iff]
  simp only [outcome32, checked_eq_ok_iff, h, Bool.true_and, Except.ok.injEq, divisible_iff,
    passed_iff hzero, bne_eq_false_iff_eq, div_mul_eq_iff]
  constructor
  · rintro ⟨⟨hb, hfits⟩, hsigned, hleft, rfl⟩
    have hproduct := Int.tdiv_mul_add_tmod a.toInt b.toInt
    rw [hleft, Int.add_zero, ← toInt_wrapped (Int32.toInt_div a b) hfits] at hproduct
    exact ⟨gives_div.2 ⟨hb, hproduct⟩, hsigned, by simp⟩
  · rintro ⟨hexact, hsigned, -⟩
    obtain ⟨hb, hproduct⟩ := gives_div.1 hexact
    have hquotient : a.toInt.tdiv b.toInt = n.toInt := by rw [← hproduct, Int.mul_tdiv_cancel _ hb]
    obtain ⟨hfits, hn⟩ := (wrapped_eq_iff (Int32.toInt_div a b)).2 hquotient
    exact ⟨⟨hb, hfits⟩, hsigned, by rw [← hproduct, Int.mul_tmod_left], hn⟩

theorem mod_eq_ok_iff (h : mode.checksOverflow = true) :
    mod.outcome32 mode a b = .ok n ↔ mod.Passes32 mode a b n := by
  have hzero (hb : b.toInt ≠ 0) : (binary32 .srem a b == 0 && decide (a.toInt < 0)) = true ↔
    mod.GivesNegativeZero a.toInt b.toInt := by
    rw [givesNegativeZero_mod, ← srem_eq hb, toInt_eq_zero_iff, Bool.and_eq_true, beq_iff_eq,
      decide_eq_true_iff]
    exact ⟨fun hz => ⟨hb, hz⟩, And.right⟩
  simp only [outcome32, checked_eq_ok_iff, h, Bool.true_and, Except.ok.injEq, divisible_iff]
  constructor
  · rintro ⟨⟨hb, hfits⟩, hsigned, rfl⟩
    refine ⟨gives_mod.2 ⟨hb, (srem_eq hb).symm⟩, (passed_iff (hzero hb)).1 hsigned, fun hmin => ?_⟩
    rw [exceedsInt32_tdiv_iff.2 hmin.2] at hfits
    cases hfits
  · rintro ⟨hexact, hsigned, hdivides⟩
    obtain ⟨hb, hleft⟩ := gives_mod.1 hexact
    refine ⟨⟨hb, ?_⟩, (passed_iff (hzero hb)).2 hsigned,
      Int32.toInt_inj.1 ((srem_eq hb).trans hleft)⟩
    rw [← Bool.not_eq_true, exceedsInt32_tdiv_iff]
    exact fun hmin => hdivides ⟨rfl, hmin⟩

theorem negate_eq_ok_iff (h : mode.checksOverflow = true) :
    negate.outcome32 mode a b = .ok n ↔ negate.Passes32 mode a b n := by
  have hzero : (a == 0) = true ↔ negate.GivesNegativeZero a.toInt b.toInt := by
    rw [givesNegativeZero_negate, toInt_eq_zero_iff, beq_iff_eq]
  have hmin : (a == Int32.minValue) = false ↔ exceedsInt32 (-a.toInt) = false := by
    have hlo := a.le_toInt
    have hhi := a.toInt_lt
    rw [beq_eq_false_iff_ne, ne_eq, ← Int32.toInt_inj, Int32.toInt_minValue,
      exceedsInt32_eq_false_iff]
    omega
  simp only [outcome32, checked_eq_ok_iff, h, Bool.true_and, Except.ok.injEq, hmin,
    passed_iff hzero]
  constructor
  · rintro ⟨hfits, hsigned, hn⟩
    exact ⟨gives_negate.2 ((wrapped_eq_iff (Int32.toInt_neg a)).1 ⟨hfits, hn⟩), hsigned, by simp⟩
  · rintro ⟨hexact, hsigned, -⟩
    obtain ⟨hfits, hn⟩ := (wrapped_eq_iff (Int32.toInt_neg a)).2 (gives_negate.1 hexact)
    exact ⟨hfits, hsigned, hn⟩

/-- The absolute value, wrapped. -/
theorem toInt_abs (a : Int32) :
    ((a ^^^ a >>> 31) - a >>> 31).toInt = (a.toInt.natAbs : Int).bmod (2 ^ 32) := by
  rw [abs_eq]
  split
  · rw [Int32.toInt_neg]
    congr 1
    omega
  · have habs : (a.toInt.natAbs : Int) = a.toInt := by omega
    rw [habs]
    exact a.toInt_bmod.symm

/-- Only the least int32 has an absolute value that is no int32. -/
theorem abs_exceeds_iff :
    decide (((a ^^^ a >>> 31) - a >>> 31).toInt < 0) = true ↔ a = Int32.minValue := by
  have hlo := a.le_toInt
  have hhi := a.toInt_lt
  rw [decide_eq_true_iff, ← Int32.toInt_inj, Int32.toInt_minValue, toInt_abs]
  constructor
  · intro hneg
    by_contra hne
    have hfits : (a.toInt.natAbs : Int).bmod (2 ^ 32) = a.toInt.natAbs :=
      (Int.bmod_eq_iff (by decide)).2 (by omega)
    omega
  · intro hmin
    rw [hmin]
    decide

theorem abs_eq_ok_iff (h : mode.checksOverflow = true) :
    abs.outcome32 mode a b = .ok n ↔ abs.Passes32 mode a b n := by
  have hfits : decide (((a ^^^ a >>> 31) - a >>> 31).toInt < 0) = false ↔
    exceedsInt32 (a.toInt.natAbs : Int) = false := by
    have hlo := a.le_toInt
    have hhi := a.toInt_lt
    rw [← Bool.not_eq_true, abs_exceeds_iff, ← Int32.toInt_inj, Int32.toInt_minValue,
      exceedsInt32_eq_false_iff]
    omega
  simp only [outcome32, checked_eq_ok_iff, h, Bool.true_and, Except.ok.injEq, hfits,
    wrapped_eq_iff (toInt_abs a)]
  exact ⟨fun hexact => ⟨gives_abs.2 hexact, fun _ => not_givesNegativeZero_abs, by simp⟩,
    fun hp => gives_abs.1 hp.exact⟩

/-- If overflows are checked, the result is the exact one. -/
theorem outcome32_eq_ok_iff (h : mode.checksOverflow = true) :
    op.outcome32 mode a b = .ok n ↔ op.Passes32 mode a b n := by
  cases op with
  | add =>
    simp only [outcome32, checked_eq_ok_iff, h, Bool.true_and, Except.ok.injEq,
      wrapped_eq_iff (Int32.toInt_add a b)]
    exact ⟨fun hexact => ⟨gives_add.2 hexact, fun _ => not_givesNegativeZero_add, by simp⟩,
      fun hp => gives_add.1 hp.exact⟩
  | sub =>
    simp only [outcome32, checked_eq_ok_iff, h, Bool.true_and, Except.ok.injEq,
      wrapped_eq_iff (Int32.toInt_sub a b)]
    exact ⟨fun hexact => ⟨gives_sub.2 hexact, fun _ => not_givesNegativeZero_sub, by simp⟩,
      fun hp => gives_sub.1 hp.exact⟩
  | mul => exact mul_eq_ok_iff h
  | div => exact div_eq_ok_iff h
  | mod => exact mod_eq_ok_iff h
  | negate => exact negate_eq_ok_iff h
  | abs => exact abs_eq_ok_iff h

/-- Checks leave for an overflow, or for the negative zero if it is checked. -/
theorem outcome32_eq_error (h : op.outcome32 mode a b = .error kind) :
    kind = .overflow ∨ mode.checksNegativeZero = true ∧ kind = .negativeZero := by
  cases op <;> simp only [outcome32, checked_eq_error_iff] at h <;> grind

/-- The absolute value overflows for the least int32. -/
theorem abs_eq_error_iff : abs.outcome32 mode a b = .error kind ↔
    mode.checksOverflow = true ∧ a = Int32.minValue ∧ kind = .overflow := by
  rw [outcome32, checked_eq_error_iff, Bool.and_eq_true, abs_exceeds_iff, and_assoc,
    @eq_comm _ ExitKind.overflow]
  simp only [reduceCtorEq, and_false, or_false]

/-- The result wraps if overflows are not checked. -/
theorem outcome32_wrapped (h : mode.checksOverflow = false) :
    op.outcome32 mode a b = .ok (op.wrapped a.toInt b.toInt) := by
  have hzero : mode.checksNegativeZero = false := by cases mode <;> first | rfl | cases h
  cases op with
  | add =>
    simp only [outcome32, h, Bool.false_and, Bool.false_eq_true, if_false,
      wrapped_of_gives (gives_add.2 rfl)]
    rw [ofInt_eq_wrapped (Int32.toInt_add a b)]
  | sub =>
    simp only [outcome32, h, Bool.false_and, Bool.false_eq_true, if_false,
      wrapped_of_gives (gives_sub.2 rfl)]
    rw [ofInt_eq_wrapped (Int32.toInt_sub a b)]
  | mul =>
    simp only [outcome32, h, hzero, Bool.false_and, Bool.false_eq_true, if_false,
      wrapped_of_gives (gives_mul.2 rfl)]
    rw [ofInt_eq_wrapped (Int32.toInt_mul a b)]
  | div =>
    simp only [outcome32, h, hzero, Bool.false_and, Bool.false_eq_true, if_false, wrapped_div]
    rw [ofInt_eq_wrapped (Int32.toInt_div a b)]
  | mod =>
    simp only [outcome32, h, hzero, Bool.false_and, Bool.false_eq_true, if_false, wrapped_mod,
      toInt_eq_zero_iff]
    congr 1
    rw [binary32]
    by_cases hb : b = 0
    · rw [if_pos (by simpa using hb), if_pos hb]
    · rw [if_neg (by simpa using hb), if_neg hb, ← Int32.toInt_mod, Int32.ofInt_toInt]
  | negate =>
    simp only [outcome32, h, hzero, Bool.false_and, Bool.false_eq_true, if_false,
      wrapped_of_gives (gives_negate.2 rfl)]
    rw [ofInt_eq_wrapped (Int32.toInt_neg a)]
  | abs =>
    simp only [outcome32, h, Bool.false_and, Bool.false_eq_true, if_false,
      wrapped_of_gives (gives_abs.2 rfl)]
    rw [ofInt_eq_wrapped (toInt_abs a)]

end ArithOp

/-! ## Integers of 52 bits -/

section Int52

variable {op : OverflowOp} {mode : ArithMode} {a b : Int64} {v w : Word} {z : Int}
  {negativeZero : Bool}

/-- The integer has more than 52 bits. -/
def exceedsInt52 (z : Int) : Bool := decide (z < -2 ^ 51 ∨ 2 ^ 51 ≤ z)

/-- What arithmetic on integers of 52 bits comes to if the exact result is `z` or the negative zero:
the exit that the first failing check leaves by, or the result. -/
def outcome52 (mode : ArithMode) (z : Int) (negativeZero : Bool) : Except ExitKind Int64 :=
  if mode.checksOverflow && exceedsInt52 z then .error .int52Overflow
  else if mode.checksNegativeZero && negativeZero then .error .negativeZero
  else .ok (Int64.ofInt z)

/-- What has the exact result shifted overflows 64 bits if the result has more than 52 bits. -/
theorem Lir.OverflowOp.eval_shifted (h : op.exact v.toInt64.toInt w.toInt64.toInt = z * 4096) :
    op.eval .i64 v w = exceedsInt52 z := by
  simp only [eval, exceedsInt52, h, decide_eq_decide]
  omega

theorem add_shifted (ha : Value.isInt52 a = true) (hb : Value.isInt52 b = true) :
    (if mode.checksOverflow && OverflowOp.add.eval .i64 (Value.shiftInt52 a) (Value.shiftInt52 b)
      then .error .int52Overflow
      else .ok (BinaryOp.add.eval .i64 (Value.shiftInt52 a) (Value.shiftInt52 b))) =
      (outcome52 mode (a.toInt + b.toInt) false).map Value.shiftInt52 := by
  have hexact : OverflowOp.add.exact (Value.shiftInt52 a).toInt64.toInt
    (Value.shiftInt52 b).toInt64.toInt =
      (a.toInt + b.toInt) * 4096 := by
    rw [Value.toInt_shiftInt52 ha, Value.toInt_shiftInt52 hb, Int.add_mul]
    rfl
  have hsum : BinaryOp.add.eval .i64 (Value.shiftInt52 a) (Value.shiftInt52 b) = Value.shiftInt52
    (Int64.ofInt (a.toInt + b.toInt)) := by
    rw [Int64.ofInt_add, Int64.ofInt_toInt, Int64.ofInt_toInt, ← Value.shiftInt52_add]
    simp [BinaryOp.eval, binary64]
  rw [OverflowOp.eval_shifted hexact, hsum, outcome52, map_checked, Bool.and_false]
  rfl

theorem sub_shifted (ha : Value.isInt52 a = true) (hb : Value.isInt52 b = true) :
    (if mode.checksOverflow && OverflowOp.sub.eval .i64 (Value.shiftInt52 a) (Value.shiftInt52 b)
      then .error .int52Overflow
      else .ok (BinaryOp.sub.eval .i64 (Value.shiftInt52 a) (Value.shiftInt52 b))) =
      (outcome52 mode (a.toInt - b.toInt) false).map Value.shiftInt52 := by
  have hexact : OverflowOp.sub.exact (Value.shiftInt52 a).toInt64.toInt
    (Value.shiftInt52 b).toInt64.toInt =
      (a.toInt - b.toInt) * 4096 := by
    rw [Value.toInt_shiftInt52 ha, Value.toInt_shiftInt52 hb, Int.sub_mul]
    rfl
  have hdifference : BinaryOp.sub.eval .i64 (Value.shiftInt52 a) (Value.shiftInt52 b) =
      Value.shiftInt52 (Int64.ofInt (a.toInt - b.toInt)) := by
    rw [Int64.ofInt_sub, Int64.ofInt_toInt, Int64.ofInt_toInt, ← Value.shiftInt52_sub]
    simp [BinaryOp.eval, binary64]
  rw [OverflowOp.eval_shifted hexact, hdifference, outcome52, map_checked, Bool.and_false]
  rfl

/-- The word of a result is zero if the result is, unless it overflows. -/
theorem shifted_eq_zero (h : exceedsInt52 z = false) :
    (Value.shiftInt52 (Int64.ofInt z) == 0) = decide (z = 0) := by
  have hrange : -2 ^ 51 ≤ z ∧ z < 2 ^ 51 := by
    rw [exceedsInt52, decide_eq_false_iff_not] at h
    omega
  obtain ⟨hz, hint⟩ := Value.toInt_ofInt52 hrange
  rw [Bool.eq_iff_iff, beq_iff_eq, decide_eq_true_iff, Value.shiftInt52_eq_zero_iff hint, hz]

/-- Checks of the negative zero come after those for overflows. -/
theorem outcome52_of_words {o : Except ExitKind Word} {t : Bool}
    (ht : mode.checksOverflow = true → exceedsInt52 z = false → t = negativeZero)
    (ho : o = .ok (Value.shiftInt52 (Int64.ofInt z))) :
    (if mode.checksOverflow && exceedsInt52 z then .error .int52Overflow
      else if mode.checksNegativeZero && t then .error .negativeZero else o) =
      (outcome52 mode z negativeZero).map Value.shiftInt52 := by
  rw [outcome52, map_checked, map_checked, ho]
  cases mode with
  | checkOverflowAndNegativeZero =>
    cases hz : exceedsInt52 z with
    | true => rfl
    | false => rw [ht rfl hz]; rfl
  | _ => rfl

theorem mul_shifted (ha : Value.isInt52 a = true) :
    (if mode.checksOverflow && OverflowOp.mul.eval .i64 (Value.shiftInt52 a) b.toUInt64 then .error
      .int52Overflow
      else if mode.checksNegativeZero && (BinaryOp.mul.eval .i64 (Value.shiftInt52 a) b.toUInt64 ==
        0 &&
        decide ((Value.shiftInt52 a).toInt64.toInt < 0 ∨ b.toUInt64.toInt64.toInt < 0)) then .error
          .negativeZero
      else .ok (BinaryOp.mul.eval .i64 (Value.shiftInt52 a) b.toUInt64)) =
      (outcome52 mode (a.toInt * b.toInt)
        (decide (a.toInt * b.toInt = 0 ∧ (a.toInt < 0 ∨ b.toInt < 0)))).map Value.shiftInt52 := by
  have hexact : OverflowOp.mul.exact (Value.shiftInt52 a).toInt64.toInt b.toUInt64.toInt64.toInt
    = a.toInt * b.toInt * 4096 := by
    rw [Value.toInt_shiftInt52 ha, Int64.toInt64_toUInt64 b]
    exact Int.mul_right_comm _ _ _
  have hproduct : BinaryOp.mul.eval .i64 (Value.shiftInt52 a) b.toUInt64 = Value.shiftInt52
    (Int64.ofInt (a.toInt * b.toInt)) := by
    rw [Int64.ofInt_mul, Int64.ofInt_toInt, Int64.ofInt_toInt, ← Value.shiftInt52_mul]
    simp [BinaryOp.eval, binary64]
  rw [OverflowOp.eval_shifted hexact, hproduct]
  refine outcome52_of_words (fun _ hz => ?_) rfl
  rw [shifted_eq_zero hz, Int64.toInt64_toUInt64 b]
  simp only [Value.shiftInt52_neg_iff ha, Bool.decide_and]

theorem negate_shifted (ha : Value.isInt52 a = true) :
    (if mode.checksOverflow && OverflowOp.sub.eval .i64 0 (Value.shiftInt52 a) then .error
      .int52Overflow
      else if mode.checksNegativeZero && (Value.shiftInt52 a == 0) then .error .negativeZero
      else .ok (UnaryOp.neg.eval .i64 (Value.shiftInt52 a))) =
      (outcome52 mode (-a.toInt) (decide (a.toInt = 0))).map Value.shiftInt52 := by
  have hexact : OverflowOp.sub.exact (0 : Word).toInt64.toInt (Value.shiftInt52 a).toInt64.toInt
    = -a.toInt * 4096 := by
    rw [Value.toInt_shiftInt52 ha, Int.neg_mul, OverflowOp.exact]
    exact Int.zero_sub _
  have hnegated : UnaryOp.neg.eval .i64 (Value.shiftInt52 a) = Value.shiftInt52
    (Int64.ofInt (-a.toInt)) := by
    rw [Int64.ofInt_neg, Int64.ofInt_toInt, ← Value.shiftInt52_neg]
    rfl
  rw [OverflowOp.eval_shifted hexact, hnegated]
  refine outcome52_of_words (fun _ _ => ?_) rfl
  rw [Bool.eq_iff_iff, beq_iff_eq, decide_eq_true_iff, Value.shiftInt52_eq_zero_iff ha]

theorem outcome52_eq_overflow_iff (h : mode.checksOverflow = true) :
    outcome52 mode z negativeZero = .error .int52Overflow ↔ z < -2 ^ 51 ∨ 2 ^ 51 ≤ z := by
  simp only [outcome52, checked_eq_error_iff, h, exceedsInt52]
  simp

/-- The negative zero does not overflow. -/
theorem outcome52_eq_negativeZero_iff (hz : negativeZero = true → z = 0) :
    outcome52 mode z negativeZero = .error .negativeZero ↔ mode.checksNegativeZero = true ∧
    negativeZero = true := by
  rw [outcome52, checked_eq_error_iff, checked_eq_error_iff]
  simp only [reduceCtorEq, and_false, false_or, and_true, or_false, Bool.and_eq_true,
    and_iff_right_iff_imp]
  rintro ⟨-, hnegative⟩
  rw [hz hnegative]
  simp [exceedsInt52]

theorem outcome52_eq_ok (hrange : -2 ^ 51 ≤ z ∧ z < 2 ^ 51)
    (hsigned : ¬ (mode.checksNegativeZero = true ∧ negativeZero = true)) :
    outcome52 mode z negativeZero = .ok (Int64.ofInt z) := by
  have hfits : exceedsInt52 z = false := by
    rw [exceedsInt52, decide_eq_false_iff_not]
    omega
  rw [outcome52, hfits, Bool.and_false, if_neg Bool.false_ne_true, if_neg (by simpa using hsigned)]

end Int52

end SpecJit
