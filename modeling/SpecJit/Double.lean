import SpecJit.FloatFormat
import SpecJit.Json.Codec

/-!
# Doubles

A double is its 64 bits, so that two doubles are equal exactly when no program can tell them apart.
Arithmetic is exact arithmetic on the values, rounded once to the nearest double with halves to
even. An operation on a NaN gives its first NaN operand, made quiet; an invalid operation gives
`Double.indefinite`.

The numerical comparisons are `numEq`, `numLt` and `numLe`: they identify the two zeros, and a NaN
is in none of them.
-/

namespace SpecJit

/-- A 64-bit floating-point number. -/
structure Double where
  bits : UInt64
deriving DecidableEq, Hashable, Inhabited, Repr

namespace Double

instance : Encode Double := ⟨fun d => encode d.bits⟩
instance : Decode Double := ⟨fun j => (decode j).map Double.mk⟩

def parts (d : Double) : FloatParts := FloatFormat.binary64.parts d.bits.toNat

/-- The double nearest to `m * 2^e`. -/
def round (negative : Bool) (m : Nat) (e : Int) (sticky : Bool := false) : Double :=
  ⟨UInt64.ofNat (FloatFormat.binary64.round negative m e sticky)⟩

def zero (negative : Bool := false) : Double := ⟨if negative then 0x8000000000000000 else 0⟩
def infinity (negative : Bool := false) : Double :=
  ⟨if negative then 0xfff0000000000000 else 0x7ff0000000000000⟩

/-- The canonical NaN. -/
def pureNaN : Double := ⟨0x7ff8000000000000⟩

def half : Double := ⟨0x3fe0000000000000⟩

/-- The NaN that an invalid operation yields. -/
def indefinite : Double := ⟨0xfff8000000000000⟩

/-- The sign bit is set. -/
def isNegative (d : Double) : Bool := d.bits &&& 0x8000000000000000 != 0

def isNaN (d : Double) : Bool := d.bits &&& 0x7fffffffffffffff > 0x7ff0000000000000

def quiet (d : Double) : Double := ⟨d.bits ||| 0x0008000000000000⟩

def neg (d : Double) : Double := ⟨d.bits ^^^ 0x8000000000000000⟩

def abs (d : Double) : Double := ⟨d.bits &&& 0x7fffffffffffffff⟩

/-! ## Conversions -/

/-- The double nearest to an integer. -/
def ofInt (n : Int) : Double := round (n < 0) n.natAbs 0

/-- The integer part of a finite value, toward zero. -/
def truncate (negative : Bool) (m : Nat) (e : Int) : Int :=
  let magnitude : Nat := if 0 ≤ e then m <<< e.toNat else m >>> (-e).toNat
  if negative then -(magnitude : Int) else magnitude

/-- The integer part, clamped to the range from `lo` to `hi`; 0 for a NaN. -/
def toIntClamped (lo hi : Int) (d : Double) : Int :=
  match d.parts with
  | .nan _ _ => 0
  | .infinite negative => if negative then lo else hi
  | .finite negative m e => max lo (min hi (truncate negative m e))

def toInt32 (d : Double) : Int32 := Int32.ofInt (d.toIntClamped (-0x80000000) 0x7fffffff)

def toInt64 (d : Double) : Int64 :=
  Int64.ofInt (d.toIntClamped (-0x8000000000000000) 0x7fffffffffffffff)

/-- The bits of the nearest 32-bit float. -/
def toFloat32 (d : Double) : UInt32 :=
  UInt32.ofNat <| match d.parts with
    | .nan negative payload => FloatFormat.binary32.quietNaN negative (payload >>> 29)
    | .infinite negative => FloatFormat.binary32.infinity negative
    | .finite negative m e => FloatFormat.binary32.round negative m e false

/-- The value of a 32-bit float. -/
def ofFloat32 (bits : UInt32) : Double :=
  match FloatFormat.binary32.parts bits.toNat with
  | .nan negative payload =>
    ⟨UInt64.ofNat (FloatFormat.binary64.quietNaN negative (payload <<< 29))⟩
  | .infinite negative => infinity negative
  | .finite negative m e => round negative m e

/-- Rounding to 32-bit precision. -/
def demote (d : Double) : Double := ofFloat32 d.toFloat32

/-! ## Comparison -/

/-- A number that orders the doubles other than NaNs as their values do. -/
def orderKey (d : Double) : Int :=
  let magnitude : Int := (d.bits &&& 0x7fffffffffffffff).toNat
  if d.isNegative then -magnitude else magnitude

def numEq (a b : Double) : Bool := !a.isNaN && !b.isNaN && a.orderKey == b.orderKey
def numLt (a b : Double) : Bool := !a.isNaN && !b.isNaN && decide (a.orderKey < b.orderKey)
def numLe (a b : Double) : Bool := !a.isNaN && !b.isNaN && decide (a.orderKey ≤ b.orderKey)

/-- The value is the zero whose sign bit is set. -/
def isNegativeZero (d : Double) : Bool := d.bits == 0x8000000000000000

/-- The value is a finite integer. -/
def isIntegral (d : Double) : Bool :=
  match d.parts with
  | .finite _ m e => decide (0 ≤ e) || m % twoPow (-e).toNat == 0
  | _ => false

/-! ## Arithmetic -/

/-- The NaN that an operation on `a` and `b` yields, if one of them is a NaN. -/
def propagate? (a b : Double) : Option Double :=
  if a.isNaN then some a.quiet else if b.isNaN then some b.quiet else none

/-- The signed multiple of `2^e` that a finite value is, for `e` at most its exponent. -/
def scaledTo (negative : Bool) (m : Nat) (exponent e : Int) : Int :=
  let magnitude : Int := m <<< (exponent - e).toNat
  if negative then -magnitude else magnitude

def add (a b : Double) : Double :=
  match propagate? a b with
  | some nan => nan
  | none =>
    match a.parts, b.parts with
    | .infinite na, .infinite nb => if na == nb then infinity na else indefinite
    | .infinite na, _ => infinity na
    | _, .infinite nb => infinity nb
    | .finite na ma ea, .finite nb mb eb =>
      let e := min ea eb
      let sum := scaledTo na ma ea e + scaledTo nb mb eb e
      if sum == 0 then zero (na && nb) else round (sum < 0) sum.natAbs e
    | _, _ => indefinite

def sub (a b : Double) : Double := if b.isNaN then (propagate? a b).getD indefinite else add a b.neg

def mul (a b : Double) : Double :=
  match propagate? a b with
  | some nan => nan
  | none =>
    let negative := a.isNegative != b.isNegative
    match a.parts, b.parts with
    | .infinite _, .infinite _ => infinity negative
    | .infinite _, .finite _ m _ => if m == 0 then indefinite else infinity negative
    | .finite _ m _, .infinite _ => if m == 0 then indefinite else infinity negative
    | .finite _ ma ea, .finite _ mb eb => round negative (ma * mb) (ea + eb)
    | _, _ => indefinite

/-- The quotient of two positive values, to 64 bits and more. -/
def divide (negative : Bool) (ma : Nat) (ea : Int) (mb : Nat) (eb : Int) : Double :=
  let scaled := ma <<< 120
  round negative (scaled / mb) (ea - eb - 120) (scaled % mb != 0)

def div (a b : Double) : Double :=
  match propagate? a b with
  | some nan => nan
  | none =>
    let negative := a.isNegative != b.isNegative
    match a.parts, b.parts with
    | .infinite _, .infinite _ => indefinite
    | .infinite _, _ => infinity negative
    | _, .infinite _ => zero negative
    | .finite _ ma ea, .finite _ mb eb =>
      if mb == 0 then if ma == 0 then indefinite else infinity negative
      else if ma == 0 then zero negative
      else divide negative ma ea mb eb
    | _, _ => indefinite

def sqrt (a : Double) : Double :=
  match a.parts with
  | .nan _ _ => a.quiet
  | .infinite negative => if negative then indefinite else a
  | .finite negative m e =>
    if m == 0 then a
    else if negative then indefinite
    else
      let (m, e) := if e % 2 == 0 then (m, e) else (2 * m, e - 1)
      let scaled := m <<< 128
      let root := natSqrt scaled
      round false root (e / 2 - 64) (root * root != scaled)

/-- Rounding to an integer; `up` tells whether the magnitude grows when it is not one. -/
def roundToInt (a : Double) (up : Bool → Bool) : Double :=
  match a.parts with
  | .nan _ _ => a.quiet
  | .infinite _ => a
  | .finite negative m e =>
    if 0 ≤ e then a
    else
      let q := m >>> (-e).toNat
      let grow := up negative && m % twoPow (-e).toNat != 0
      round negative (if grow then q + 1 else q) 0

/-- The greatest integer not above the value. -/
def floor (a : Double) : Double := a.roundToInt id

/-- The least integer not below the value. -/
def ceil (a : Double) : Double := a.roundToInt not

/-- The smaller value; the negative zero is below the positive one. -/
def min (a b : Double) : Double :=
  if a.isNaN || b.isNaN then pureNaN
  else if numEq a b then if a.isNegative then a else b
  else if numLt a b then a else b

/-- The larger value; the positive zero is above the negative one. -/
def max (a b : Double) : Double :=
  if a.isNaN || b.isNaN then pureNaN
  else if numEq a b then if a.isNegative then b else a
  else if numLt a b then b else a

end Double

end SpecJit
