/-!
# Binary floating-point formats

A format is given by the widths of its exponent and fraction fields; its bit patterns are natural
numbers. `FloatFormat.parts` takes a pattern apart, `FloatFormat.round` rounds an exact value to
the nearest pattern, halves going to the even neighbour. Values are exact: a finite pattern stands
for `m * 2^e`, with `m` a natural number and `e` an integer.
-/

namespace SpecJit

/-- The power `2^n`. -/
def twoPow (n : Nat) : Nat := 1 <<< n

/-- Field widths of a binary floating-point format. -/
structure FloatFormat where
  exponentBits : Nat
  fractionBits : Nat

/-- What a pattern stands for. -/
inductive FloatParts where
  | nan (negative : Bool) (payload : Nat)
  | infinite (negative : Bool)
  /-- the value `m * 2^e` -/
  | finite (negative : Bool) (m : Nat) (e : Int)
deriving DecidableEq, Repr

namespace FloatFormat

/-- The 64-bit format. -/
def binary64 : FloatFormat := ⟨11, 52⟩

/-- The 32-bit format. -/
def binary32 : FloatFormat := ⟨8, 23⟩

variable (f : FloatFormat)

/-- The exponent of the least unit of any value. -/
def minExponent : Int := 2 - twoPow (f.exponentBits - 1) - f.fractionBits

/-- The exponent field of infinities and NaNs. -/
def topField : Nat := twoPow f.exponentBits - 1

/-- Assembles a pattern from its fields. -/
def assemble (negative : Bool) (field fraction : Nat) : Nat :=
  ((if negative then twoPow f.exponentBits else 0) + field) * twoPow f.fractionBits + fraction

def infinity (negative : Bool) : Nat := f.assemble negative f.topField 0

/-- The quiet NaN with the given payload; the payload's top bit is the quiet bit. -/
def quietNaN (negative : Bool) (payload : Nat) : Nat :=
  f.assemble negative f.topField (payload ||| twoPow (f.fractionBits - 1))

/-- Takes a pattern apart. -/
def parts (bits : Nat) : FloatParts :=
  let fraction := bits % twoPow f.fractionBits
  let field := bits / twoPow f.fractionBits % twoPow f.exponentBits
  let negative := bits / twoPow (f.fractionBits + f.exponentBits) % 2 == 1
  if field == f.topField then
    if fraction == 0 then .infinite negative else .nan negative fraction
  else if field == 0 then .finite negative fraction f.minExponent
  else .finite negative (twoPow f.fractionBits + fraction) (f.minExponent + (field - 1))

/-- The nearest integer to `m / 2^shift`, or to a value a little above it when `sticky`. -/
def roundShift (m shift : Nat) (sticky : Bool) : Nat :=
  let q := m >>> shift
  let twice := 2 * (m % twoPow shift)
  if twice > twoPow shift then q + 1
  else if twice == twoPow shift && (sticky || q % 2 == 1) then q + 1
  else q

/-- The pattern nearest to `m * 2^e`. With `sticky` the value lies strictly between `m * 2^e` and
`(m + 1) * 2^e`; then `m` must have at least two bits more than the format's precision. -/
def round (negative : Bool) (m : Nat) (e : Int) (sticky : Bool) : Nat :=
  if m == 0 then f.assemble negative 0 0
  else
    let unit := max (e + m.log2 - f.fractionBits) f.minExponent
    let significand :=
      if unit ≤ e then m <<< (e - unit).toNat else roundShift m (unit - e).toNat sticky
    -- a significand that carried into the next power of two moves up one exponent
    let carried := significand ≥ twoPow (f.fractionBits + 1)
    let significand := if carried then significand / 2 else significand
    let unit := if carried then unit + 1 else unit
    if significand < twoPow f.fractionBits then f.assemble negative 0 significand
    else
      let field := (unit - f.minExponent).toNat + 1
      if field ≥ f.topField then f.infinity negative
      else f.assemble negative field (significand - twoPow f.fractionBits)

end FloatFormat

/-- The integer square root of `n`, found bit by bit from bit `i` down; `r` holds the bits above. -/
def sqrtFrom (n : Nat) : Nat → Nat → Nat
  | 0, r => r
  | i + 1, r =>
    if (r + twoPow i) * (r + twoPow i) ≤ n then sqrtFrom n i (r + twoPow i) else sqrtFrom n i r

/-- The integer square root. -/
def natSqrt (n : Nat) : Nat := sqrtFrom n (n.log2 / 2 + 1) 0

end SpecJit
