/-!
# Code point ranges

A property of characters is given as an ascending list of closed ranges of code points.
-/

namespace ArgGuard.Unicode

/-- Closed ranges of code points, each written as its first and last member. -/
abbrev Ranges := List (Nat × Nat)

/-- A character belongs to the ranges when one of them holds its code point. -/
def Ranges.contains (ranges : Ranges) (c : Char) : Bool :=
  ranges.any fun (first, last) => first ≤ c.toNat && c.toNat ≤ last

end ArgGuard.Unicode
