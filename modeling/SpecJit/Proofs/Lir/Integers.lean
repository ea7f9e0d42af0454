import SpecJit.Proofs.Lir.Yields
import SpecJit.Proofs.Number

/-!
# Integer instructions

What instructions compute on registers that hold integers: of 32 bits (`ofInt32 n`), and of 52 bits,
shifted left (`Value.shiftInt52 n`). A shifted integer stands for its multiple by 4096, so that
sums, products with an integer as it is, and negations of shifted integers are shifted ones, and
overflow 64 bits exactly if they overflow 52 bits unshifted.
-/

namespace SpecJit

open Lir

/-! ## Integers of 52 bits -/

namespace Value

variable {n k : Int64}

/-- An integer of 52 bits, shifted left. -/
def shiftInt52 (n : Int64) : Word := n.toUInt64 <<< 12

theorem isInt52_iff : isInt52 n = true ↔ -2 ^ 51 ≤ n.toInt ∧ n.toInt < 2 ^ 51 := by
  rw [isInt52, Bool.and_eq_true, decide_eq_true_iff, decide_eq_true_iff]
  unfold int52Min int52Max
  omega

theorem shiftInt52_eq_mul (n : Int64) : shiftInt52 n = n.toUInt64 * 4096 := by
  apply UInt64.toBitVec_inj.1
  apply BitVec.eq_of_toNat_eq
  simp [shiftInt52, BitVec.toNat_mul, BitVec.toNat_shiftLeft, Nat.shiftLeft_eq]

/-- Shifting drops what does not fit into 64 bits. -/
theorem toInt_shiftInt52_bmod (n : Int64) :
    (shiftInt52 n).toInt64.toInt = (n.toInt * 4096).bmod (2 ^ 64) := by
  rw [shiftInt52_eq_mul, UInt64.toInt64_mul, Int64.toInt_mul, Int64.toInt64_toUInt64]
  rfl

theorem toInt_shiftInt52 (h : isInt52 n = true) :
    (shiftInt52 n).toInt64.toInt = n.toInt * 4096 := by
  have hrange := isInt52_iff.1 h
  rw [toInt_shiftInt52_bmod, Int.bmod_eq_iff (by decide)]
  omega

theorem toInt_sshr12 (n : Int64) : (n >>> 12).toInt = n.toInt / 4096 := by
  have hamount : BitVec.sshiftRight' n.toBitVec ((Int64.toBitVec 12).smod 64)
    = n.toBitVec.sshiftRight 12 := by
    rw [BitVec.sshiftRight']
    rfl
  rw [← Int64.toInt_toBitVec, Int64.toBitVec_shiftRight, hamount, BitVec.toInt_sshiftRight,
    Int.shiftRight_eq_div_pow]
  rfl

/-- A shifted integer is shifted back. -/
theorem shiftInt52_sshr (h : isInt52 n = true) : (shiftInt52 n).toInt64 >>> 12 = n := by
  apply Int64.toInt_inj.1
  rw [toInt_sshr12, toInt_shiftInt52 h]
  exact Int.mul_ediv_cancel _ (by decide)

theorem shiftInt52_add (n k : Int64) : shiftInt52 n + shiftInt52 k = shiftInt52 (n + k) := by
  simp only [shiftInt52_eq_mul, Int64.toUInt64_add, UInt64.add_mul]

theorem shiftInt52_sub (n k : Int64) : shiftInt52 n - shiftInt52 k = shiftInt52 (n - k) := by
  simp only [shiftInt52_eq_mul, Int64.toUInt64_sub]
  grind

theorem shiftInt52_mul (n k : Int64) : shiftInt52 n * k.toUInt64 = shiftInt52 (n * k) := by
  simp only [shiftInt52_eq_mul, Int64.toUInt64_mul]
  grind

theorem shiftInt52_neg (n : Int64) : 0 - shiftInt52 n = shiftInt52 (-n) := by
  simp only [shiftInt52_eq_mul, Int64.toUInt64_neg]
  grind

theorem shiftInt52_eq_zero_iff (h : isInt52 n = true) : shiftInt52 n = 0 ↔ n.toInt = 0 := by
  have hn := toInt_shiftInt52 h
  constructor
  · intro hzero
    rw [hzero] at hn
    change (0 : Int) = _ at hn
    omega
  · intro hzero
    obtain rfl : n = 0 := Int64.toInt_inj.1 hzero
    rfl

theorem shiftInt52_neg_iff (h : isInt52 n = true) :
    (shiftInt52 n).toInt64.toInt < 0 ↔ n.toInt < 0 := by
  rw [toInt_shiftInt52 h]
  omega

/-- An integer in the range is one of 52 bits. -/
theorem toInt_ofInt52 {z : Int} (h : -2 ^ 51 ≤ z ∧ z < 2 ^ 51) :
    (Int64.ofInt z).toInt = z ∧ isInt52 (Int64.ofInt z) = true := by
  have hz : (Int64.ofInt z).toInt = z := by
    have hsize : Int64.size = 2 ^ 64 := rfl
    rw [Int64.toInt_ofInt, hsize, Int.bmod_eq_iff (by decide)]
    omega
  rw [isInt52_iff, hz]
  exact ⟨rfl, h⟩

end Value

namespace Lir

/-! ## Words -/

@[simp] theorem low32_ofInt32 (n : Int32) : low32 (ofInt32 n) = n := by simp [low32, ofInt32]

@[simp] theorem normalize_ofInt32 (n : Int32) : Ty.normalize .i32 (ofInt32 n) = ofInt32 n := by
  simp [Ty.normalize, ofInt32]

/-- A constant of 32 bits. -/
@[simp] theorem normalize_ofInt (k : Int) :
    Ty.normalize .i32 (Int64.ofInt k).toUInt64 = ofInt32 (Int32.ofInt k) := by
  simp only [Ty.normalize, ofInt32]
  congr 1
  rw [← UInt32.toBitVec_inj]
  apply BitVec.eq_of_toNat_eq
  simp [BitVec.toNat_ofInt]
  omega

theorem IntCC.eq_ofInt32 (x y : Int32) : IntCC.eq.eval .i32 (ofInt32 x) (ofInt32 y) = (x == y) := by
  rw [Bool.eq_iff_iff, beq_iff_eq]
  simp only [IntCC.eval, IntCC.holds, ofInt32, UInt32.toUInt32_toUInt64, beq_iff_eq,
    UInt32.toNat_inj]
  exact ⟨fun h => by simpa using congrArg UInt32.toInt32 h, congrArg Int32.toUInt32⟩

theorem toInt_or_neg_iff {width : Nat} (x y : BitVec width) :
    (x ||| y).toInt < 0 ↔ x.toInt < 0 ∨ y.toInt < 0 := by
  have hmsb (z : BitVec width) : z.toInt < 0 ↔ z.msb = true := by
    rw [BitVec.msb_eq_toInt, decide_eq_true_iff]
  rw [hmsb, hmsb, hmsb, BitVec.msb_or, Bool.or_eq_true]

namespace Emit

variable {σ : Type} {m : Machine σ} {b : Builder} {c : Config σ} {lhs rhs : Reg} {v : Word}
  {x y : Int32}

/-! ## Instructions on 32 bits -/

theorem binary_int32 {op : BinaryOp} (hl : c.Has b lhs .i32 (ofInt32 x))
    (hr : c.Has b rhs .i32 (ofInt32 y)) :
    (binary op lhs rhs).Yields m b c .i32 (ofInt32 (binary32 op x y)) :=
  (binary_yields hl hr).congr (by simp [BinaryOp.eval])

theorem binaryImm_int32 {op : BinaryOp} {i : Int} (hl : c.Has b lhs .i32 (ofInt32 x)) :
    (binaryImm op lhs i).Yields m b c .i32 (ofInt32 (binary32 op x (Int32.ofInt i))) :=
  (binaryImm_yields hl).congr (by simp [BinaryOp.eval])

theorem neg_int32 (hl : c.Has b lhs .i32 (ofInt32 x)) :
    (unary .neg lhs).Yields m b c .i32 (ofInt32 (-x)) :=
  (unary_yields hl).congr (by simp [UnaryOp.eval])

theorem eq_int32 {i : Int} (hl : c.Has b lhs .i32 (ofInt32 x)) :
    (icmpImm .eq lhs i).Yields m b c .i32 (ofBool (x == Int32.ofInt i)) := by
  refine (icmpImm_yields hl).congr ?_
  rw [normalize_ofInt, IntCC.eq_ofInt32]

theorem ne_int32 (hl : c.Has b lhs .i32 (ofInt32 x)) (hr : c.Has b rhs .i32 (ofInt32 y)) :
    (icmp .ne lhs rhs).Yields m b c .i32 (ofBool (x != y)) := by
  refine (icmp_yields hl hr).congr ?_
  rw [bne, ← IntCC.eq_ofInt32]
  rfl

/-- 1 if an integer is negative. -/
theorem negative_int32 (hl : c.Has b lhs .i32 (ofInt32 x)) :
    (icmpImm .slt lhs 0).Yields m b c .i32 (ofBool (decide (x.toInt < 0))) := by
  refine (icmpImm_yields hl).congr ?_
  simp only [normalize_ofInt, IntCC.eval, IntCC.holds, low32_ofInt32]
  rfl

/-! ## Instructions on 64 bits -/

theorem eq_zero_int64 (hl : c.Has b lhs .i64 v) :
    (icmpImm .eq lhs 0).Yields m b c .i32 (ofBool (v == 0)) := by
  refine (icmpImm_yields hl).congr (congrArg ofBool ?_)
  rw [Bool.eq_iff_iff, beq_iff_eq]
  exact beq_iff_eq.trans UInt64.toNat_inj

theorem negative_int64 (hl : c.Has b lhs .i64 v) :
    (icmpImm .slt lhs 0).Yields m b c .i32 (ofBool (decide (v.toInt64.toInt < 0))) :=
      icmpImm_yields hl

end Emit

end Lir

end SpecJit
