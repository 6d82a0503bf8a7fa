/-!
# Double-precision numbers

A finite double-precision number is kept exactly, as a signed significand and a power of two. The
result of an operation is its exact value rounded to the nearest double, an exact half to the even
significand; there is none where that would be beyond the largest double. Reading a decimal takes a
few such operations, so what is read may differ from the nearest double in the last place.
-/

namespace ArgGuard

/-- The number `± significand · 2 ^ exponent`. A number made by this module has at most 53
significand bits, exactly 53 of them unless its exponent is the least one. -/
structure Double where
  /-- The sign, which a zero has too. -/
  negative : Bool
  /-- The significand. -/
  significand : Nat
  /-- The power of two. -/
  exponent : Int
  deriving DecidableEq, Repr

namespace Double

/-- The least exponent. -/
def minExponent : Int := -1074

/-- The largest exponent. -/
def maxExponent : Int := 971

/-- Zero with a sign. -/
def zero (negative : Bool) : Double := ⟨negative, 0, minExponent⟩

/-- A quotient rounded to the nearest integer, a half to the even one. -/
def roundDiv (num den : Nat) : Nat :=
  let q := num / den
  let r := num % den
  if 2 * r < den then q
  else if den < 2 * r then q + 1
  else q + q % 2

/-- A fraction divided by a power of two, as a numerator and a denominator. -/
def scaleDown (num den : Nat) (exponent : Int) : Nat × Nat :=
  if exponent < 0 then (num * Nat.pow 2 exponent.natAbs, den)
  else (num, den * Nat.pow 2 exponent.natAbs)

/-- The exponent at which a positive fraction has a 53-bit significand, but no less than the
least exponent. -/
def exponentFor (num den : Nat) : Int :=
  let guess : Int := (num.log2 : Int) - den.log2 - 53
  let (n, d) := scaleDown num den guess
  max minExponent (if n / d < Nat.pow 2 53 then guess else guess + 1)

/-- The double nearest to a fraction, unless it is too large. -/
def ofFraction? (negative : Bool) (num den : Nat) : Option Double :=
  if num = 0 then some (zero negative)
  else
    let exponent := exponentFor num den
    let (n, d) := scaleDown num den exponent
    let rounded := roundDiv n d
    let (significand, exponent) :=
      if rounded = Nat.pow 2 53 then (Nat.pow 2 52, exponent + 1) else (rounded, exponent)
    if exponent ≤ maxExponent then some ⟨negative, significand, exponent⟩ else none

/-- The size of a double, as a numerator and a denominator. -/
def size (x : Double) : Nat × Nat := scaleDown x.significand 1 (-x.exponent)

/-- The double nearest to a product, unless it is too large. -/
def mul? (x y : Double) : Option Double :=
  let (n, d) := x.size
  let (m, e) := y.size
  ofFraction? (x.negative ^^ y.negative) (n * m) (d * e)

/-- The double nearest to a quotient, unless it is too large. The divisor must not be zero. -/
def div? (x y : Double) : Option Double :=
  let (n, d) := x.size
  let (m, e) := y.size
  ofFraction? (x.negative ^^ y.negative) (n * e) (d * m)

/-- The largest power of ten that is in the range of doubles. -/
def maxTenPow : Nat := 308

/-- The double nearest to a power of ten, up to the largest one. -/
def tenPow (n : Nat) : Double := (ofFraction? false (Nat.pow 10 n) 1).getD (zero false)

/-- Divide a double by the largest power of ten some times, until it is zero. -/
def divideOut? (x : Double) : Nat → Option Double
  | 0 => some x
  | times + 1 =>
    if x.significand = 0 then some x
    else (x.div? (tenPow maxTenPow)).bind fun quotient => quotient.divideOut? times

/-- A double times a power of ten. It takes one operation where the power is in the range of
doubles; a smaller one is reached by several divisions, and for a larger one there is nothing but
zero. -/
def timesTenPow? (x : Double) (exponent : Int) : Option Double :=
  if maxTenPow < exponent then if x.significand = 0 then some x else none
  else if 0 ≤ exponent then x.mul? (tenPow exponent.natAbs)
  else
    let times := (exponent.natAbs - 1) / maxTenPow
    (x.divideOut? times).bind fun rest => rest.div? (tenPow (exponent.natAbs - times * maxTenPow))

/-- What `± significand · 10 ^ exponent` is read as, unless it is too large: the significand is
rounded to a double before the power of ten is taken into account. -/
def ofDecimal? (negative : Bool) (significand : Nat) (exponent : Int) : Option Double :=
  (ofFraction? negative significand 1).bind fun x => x.timesTenPow? exponent

/-- The double nearest to an integer of at most 64 bits. -/
def ofInt (n : Int) : Double := (ofFraction? (n < 0) n.natAbs 1).getD (zero false)

end Double

end ArgGuard
