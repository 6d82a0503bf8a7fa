import ArgGuard.Number.Double

/-!
# Shortest decimals

The shortest decimal of a double has as few digits as any decimal that rounds to that double,
and is the nearest to it among those. Every real number between the midpoints to the two
neighbouring doubles rounds to the double, and so do the midpoints themselves when its
significand is even. A grid of decimals reaches into that interval exactly when one of the two
grid points around the double does, so grids are tried from coarse to fine, and 17 digits
always suffice.
-/

namespace ArgGuard.Double

/-- Which of two equally near decimals is taken. -/
inductive Tie where
  /-- The one with an even last digit. -/
  | toEven
  /-- The larger one. -/
  | up
  deriving DecidableEq, Repr

/-- The number `digits · 10 ^ exponent`. -/
structure Decimal where
  /-- The digits, as a natural number. -/
  digits : Nat
  /-- The power of ten. -/
  exponent : Int
  deriving DecidableEq, Repr

/-- The same decimal without zeros at the end of its digits. -/
def Decimal.trimmed (d : Decimal) : Decimal :=
  go (Nat.toDigits 10 d.digits).length d
where
  /-- Drop at most so many zeros. -/
  go : Nat → Decimal → Decimal
  | n + 1, d => if d.digits ≠ 0 ∧ d.digits % 10 = 0 then go n ⟨d.digits / 10, d.exponent + 1⟩ else d
  | 0, d => d

/-- The interval of a positive double in units of a quarter of its last binary place, over a
common denominator: the double is `value / den`, and what lies between `low / den` and
`high / den` rounds to it. -/
structure Interval where
  /-- The lower midpoint. -/
  low : Nat
  /-- The double itself. -/
  value : Nat
  /-- The upper midpoint. -/
  high : Nat
  /-- The common denominator. -/
  den : Nat
  /-- Whether the midpoints belong to the interval. -/
  closed : Bool
  deriving DecidableEq, Repr

/-- The interval of numbers that round to a positive double. Below a power of two the
neighbouring doubles are half as far apart. -/
def interval (x : Double) : Interval :=
  let gapBelow := if x.significand = Nat.pow 2 52 ∧ minExponent < x.exponent then 1 else 2
  let scale := x.exponent - 2
  let up := if scale < 0 then 1 else Nat.pow 2 scale.natAbs
  let den := if scale < 0 then Nat.pow 2 scale.natAbs else 1
  { low := (4 * x.significand - gapBelow) * up
    value := 4 * x.significand * up
    high := (4 * x.significand + 2) * up
    den
    closed := x.significand % 2 = 0 }

/-- The same interval in units of a power of ten. -/
def Interval.inUnits (i : Interval) (exponent : Int) : Interval :=
  if exponent < 0 then
    let f := Nat.pow 10 exponent.natAbs
    { i with low := i.low * f, value := i.value * f, high := i.high * f }
  else { i with den := i.den * Nat.pow 10 exponent.natAbs }

/-- Whether a whole number of units lies in the interval. -/
def Interval.holds (i : Interval) (n : Nat) : Bool :=
  if i.closed then i.low ≤ n * i.den && n * i.den ≤ i.high
  else i.low < n * i.den && n * i.den < i.high

/-- The grid point nearest to the double among its two neighbours that lie in the interval. -/
def Interval.nearest? (tie : Tie) (i : Interval) : Option Nat :=
  let floor := i.value / i.den
  let rest := i.value % i.den
  match i.holds floor, i.holds (floor + 1) with
  | true, true =>
    if 2 * rest < i.den then some floor
    else if i.den < 2 * rest then some (floor + 1)
    else match tie with
      | .toEven => some (floor + floor % 2)
      | .up => some (floor + 1)
  | true, false => some floor
  | false, true => some (floor + 1)
  | false, false => none

/-- The exponent of the first digit of a positive fraction. -/
def firstDigitExponent (num den : Nat) : Int :=
  if den ≤ num then (Nat.toDigits 10 (num / den)).length - 1
  else
    let places := (Nat.toDigits 10 (den / num)).length
    if den ≤ num * Nat.pow 10 (places - 1) then 1 - (places : Int) else -(places : Int)

/-- Try the grid of a power of ten, then so many finer ones. -/
def search (tie : Tie) (i : Interval) : Nat → Int → Decimal
  | 0, exponent => ⟨((i.inUnits exponent).nearest? tie).getD 0, exponent⟩
  | n + 1, exponent =>
    match (i.inUnits exponent).nearest? tie with
    | some digits => ⟨digits, exponent⟩
    | none => search tie i n (exponent - 1)

/-- The shortest decimal that rounds to the magnitude of a double. -/
def shortest (tie : Tie) (x : Double) : Decimal :=
  if x.significand = 0 then ⟨0, 0⟩
  else
    let i := x.interval
    (search tie i 17 (firstDigitExponent i.value i.den)).trimmed

end ArgGuard.Double
