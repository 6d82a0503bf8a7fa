import ArgGuard.Number.Shortest
import ArgGuard.Text.Basic

/-!
# Written numbers

A double is written with its shortest digits in one of two notations. The compact one is
positional from 10⁻⁵ up to 10¹⁶, where it keeps a fraction even of a whole number, and uses an
exponent with an explicit sign elsewhere. The plain one never uses an exponent and leaves an
empty fraction out.
-/

namespace ArgGuard.Double

/-- A sign in front of a magnitude. -/
def signed (x : Double) (magnitude : Text) : Text :=
  if x.negative then '-' :: magnitude else magnitude

/-- Digits with a decimal point after the given number of places, padded with zeros on either
side; an empty fraction becomes the given one. -/
def positional (digits : Text) (places : Int) (emptyFraction : Text) : Text :=
  if places ≤ 0 then "0." ++ List.replicate places.natAbs '0' ++ digits
  else if digits.length ≤ places.natAbs then
    digits ++ List.replicate (places.natAbs - digits.length) '0' ++ emptyFraction
  else digits.take places.natAbs ++ '.' :: digits.drop places.natAbs

/-- Digits with a point after the first one and a power of ten. -/
def scientific (digits : Text) (places : Int) : Text :=
  let mantissa := match digits with
    | first :: second :: rest => first :: '.' :: second :: rest
    | few => few
  let exponent := places - 1
  mantissa ++ 'e' :: (if exponent < 0 then '-' else '+') :: Text.ofNat exponent.natAbs

/-- The compact notation. -/
def compact (x : Double) : Text :=
  let d := x.shortest .toEven
  let digits := Text.ofNat d.digits
  let places := d.exponent + digits.length
  signed x <|
    if -5 < places ∧ places ≤ 16 then positional digits places ".0"
    else scientific digits places

/-- The plain notation. -/
def plain (x : Double) : Text :=
  let d := x.shortest .up
  let digits := Text.ofNat d.digits
  signed x <|
    if x.significand = 0 then digits else positional digits (d.exponent + digits.length) []

end ArgGuard.Double
