import ArgGuard.Dictionary
import ArgGuard.Number.Notation

/-!
# JSON values

A number is an integer where 64 bits hold it and a double otherwise. An object is a list of
members in the order in which their names were first met, each name once.
-/

namespace ArgGuard.Json

/-- A number of a JSON text. -/
inductive Number where
  /-- An integer from `-2 ^ 63` up to `2 ^ 64 - 1`. -/
  | int (value : Int)
  /-- Any other number. -/
  | double (value : Double)
  deriving DecidableEq, Repr

/-- The double that a number stands for where only doubles are used. -/
def Number.toDouble : Number → Double
  | int n => Double.ofInt n
  | double x => x

/-- A JSON value. -/
inductive Value where
  /-- The null. -/
  | null
  /-- A truth value. -/
  | bool (value : Bool)
  /-- A number. -/
  | number (value : Number)
  /-- A string. -/
  | string (value : Text)
  /-- An array. -/
  | array (items : List Value)
  /-- An object. -/
  | object (members : List (Text × Value))
  deriving Repr

end ArgGuard.Json
