import SpecJit.Lir.Basic
import SpecJit.Value

/-!
# Machine arithmetic

What the operations of the low-level form compute. A value is a word whatever its type: of a 32-bit
value only the low half counts, and results of 32-bit operations have a zero upper half.
-/

namespace SpecJit.Lir

/-- The low half as a signed number. -/
def low32 (w : Word) : Int32 := w.toUInt32.toInt32

/-- A 32-bit number as a word with a zero upper half. -/
def ofInt32 (n : Int32) : Word := n.toUInt32.toUInt64

def ofBool (b : Bool) : Word := if b then 1 else 0

/-- Zeros the upper half of a 32-bit value. -/
def Ty.normalize : Ty → Word → Word
  | .i32, w => w.toUInt32.toUInt64
  | _, w => w

def binary32 (op : BinaryOp) (a b : Int32) : Int32 :=
  match op with
  | .add => a + b
  | .sub => a - b
  | .mul => a * b
  | .sdiv => a / b
  | .srem => if b == 0 then 0 else a % b
  | .udiv => (a.toUInt32 / b.toUInt32).toInt32
  | .and => a &&& b
  | .or => a ||| b
  | .xor => a ^^^ b
  | .shl => a <<< b
  | .sshr => a >>> b
  | .ushr => (a.toUInt32 >>> b.toUInt32).toInt32

def binary64 (op : BinaryOp) (a b : Int64) : Int64 :=
  match op with
  | .add => a + b
  | .sub => a - b
  | .mul => a * b
  | .sdiv => a / b
  | .srem => if b == 0 then 0 else a % b
  | .udiv => (a.toUInt64 / b.toUInt64).toInt64
  | .and => a &&& b
  | .or => a ||| b
  | .xor => a ^^^ b
  | .shl => a <<< b
  | .sshr => a >>> b
  | .ushr => (a.toUInt64 >>> b.toUInt64).toInt64

def BinaryOp.eval (op : BinaryOp) (ty : Ty) (a b : Word) : Word :=
  match ty with
  | .i32 => ofInt32 (binary32 op (low32 a) (low32 b))
  | _ => (binary64 op a.toInt64 b.toInt64).toUInt64

/-- The exact result of an operation. -/
def OverflowOp.exact (op : OverflowOp) (a b : Int) : Int :=
  match op with
  | .add => a + b
  | .sub => a - b
  | .mul => a * b

/-- The exact signed result needs more bits than the type has. -/
def OverflowOp.eval (op : OverflowOp) (ty : Ty) (a b : Word) : Bool :=
  match ty with
  | .i32 =>
    let r := op.exact (low32 a).toInt (low32 b).toInt
    decide (r < -0x80000000 ∨ 0x80000000 ≤ r)
  | _ =>
    let r := op.exact a.toInt64.toInt b.toInt64.toInt
    decide (r < -0x8000000000000000 ∨ 0x8000000000000000 ≤ r)

/-- The number of zeros before the first one of `width` bits. -/
def leadingZeros (width n : Nat) : Nat := if n = 0 then width else width - 1 - n.log2

def UnaryOp.eval (op : UnaryOp) (ty : Ty) (a : Word) : Word :=
  match ty, op with
  | .i32, .neg => ofInt32 (-(low32 a))
  | .i32, .not => (~~~a.toUInt32).toUInt64
  | .i32, .clz => UInt64.ofNat (leadingZeros 32 a.toUInt32.toNat)
  | _, .neg => 0 - a
  | _, .not => ~~~a
  | _, .clz => UInt64.ofNat (leadingZeros 64 a.toNat)

def FBinaryOp.eval (op : FBinaryOp) (a b : Double) : Double :=
  match op with
  | .add => a.add b
  | .sub => a.sub b
  | .mul => a.mul b
  | .div => a.div b
  | .min => a.min b
  | .max => a.max b

def FUnaryOp.eval (op : FUnaryOp) (a : Double) : Double :=
  match op with
  | .neg => a.neg
  | .abs => a.abs
  | .sqrt => a.sqrt
  | .floor => a.floor
  | .ceil => a.ceil
  | .demote => a.demote

/-- A comparison of two values given as signed and as unsigned numbers. -/
def IntCC.holds (cc : IntCC) (sa sb : Int) (ua ub : Nat) : Bool :=
  match cc with
  | .eq => ua == ub
  | .ne => ua != ub
  | .slt => sa < sb
  | .sle => sa ≤ sb
  | .sgt => sb < sa
  | .sge => sb ≤ sa
  | .ult => ua < ub
  | .ule => ua ≤ ub
  | .ugt => ub < ua
  | .uge => ub ≤ ua

def IntCC.eval (cc : IntCC) (ty : Ty) (a b : Word) : Bool :=
  match ty with
  | .i32 => cc.holds (low32 a).toInt (low32 b).toInt a.toUInt32.toNat b.toUInt32.toNat
  | _ => cc.holds a.toInt64.toInt b.toInt64.toInt a.toNat b.toNat

def FloatCC.eval (cc : FloatCC) (a b : Double) : Bool :=
  match cc with
  | .eq => a.numEq b
  | .ne => !a.numEq b
  | .lt => a.numLt b
  | .le => a.numLe b
  | .gt => b.numLt a
  | .ge => b.numLe a
  | .unordered => a.isNaN || b.isNaN

/-- Extension of the low half to a word. -/
def extend (signed : Bool) (a : Word) : Word :=
  if signed then (low32 a).toInt64.toUInt64 else a.toUInt32.toUInt64

/-- The double nearest to an integer of the given type. -/
def intToDouble (ty : Ty) (signed : Bool) (a : Word) : Double :=
  match ty, signed with
  | .i32, true => Double.ofInt (low32 a).toInt
  | .i32, false => Double.ofInt a.toUInt32.toNat
  | _, true => Double.ofInt a.toInt64.toInt
  | _, false => Double.ofInt a.toNat

/-- The integer part of a double, clamped to the type's range. -/
def doubleToInt (ty : Ty) (d : Double) : Word :=
  match ty with
  | .i32 => ofInt32 d.toInt32
  | _ => d.toInt64.toUInt64

/-- What a load makes of the bytes it read. -/
def MemWidth.decode (width : MemWidth) (signed : Bool) (raw : Word) : Word :=
  match width, signed with
  | .f32, _ => (Double.ofFloat32 raw.toUInt32).bits
  | .w8, true => raw.toUInt8.toInt8.toInt64.toUInt64
  | .w16, true => raw.toUInt16.toInt16.toInt64.toUInt64
  | .w32, true => raw.toUInt32.toInt32.toInt64.toUInt64
  | _, _ => raw

/-- What a store writes for a value. -/
def MemWidth.encode (width : MemWidth) (value : Word) : Word :=
  match width with
  | .f32 => (Double.toFloat32 ⟨value⟩).toUInt64
  | _ => value

end SpecJit.Lir
