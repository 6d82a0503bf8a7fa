import ArgGuard.Json.Value

/-!
# Printing JSON

Values are printed without any white space. Strings escape the quote, the backslash and the
control characters; all other characters stand for themselves.
-/

namespace ArgGuard.Json

/-- A hexadecimal code of four lower-case digits. -/
def fourDigits (n : Nat) : Text :=
  let digits := Nat.toDigits 16 n
  List.replicate (4 - digits.length) '0' ++ digits

/-- How one character stands in a string. -/
def printedChar (c : Char) : Text :=
  if c = '"' ∨ c = '\\' then ['\\', c]
  else if c = '\n' then "\\n"
  else if c = '\r' then "\\r"
  else if c = '\t' then "\\t"
  else if c.toNat = 8 then "\\b"
  else if c.toNat = 12 then "\\f"
  else if c.toNat < 32 then "\\u" ++ fourDigits c.toNat
  else [c]

/-- A string between quotes. -/
def printedString (s : Text) : Text := '"' :: s.flatMap printedChar ++ ['"']

/-- A number. -/
def Number.text : Number → Text
  | int n => Text.ofInt n
  | double x => x.compact

namespace Value

mutual

/-- A value without white space. -/
def compact : Value → Text
  | null => "null"
  | bool b => if b then "true" else "false"
  | number n => n.text
  | string s => printedString s
  | array items => '[' :: Text.joined "," (compactItems items) ++ [']']
  | object members => '\x7b' :: Text.joined "," (compactMembers members) ++ ['\x7d']

/-- The items of an array, each printed. -/
def compactItems : List Value → List Text
  | [] => []
  | item :: rest => compact item :: compactItems rest

/-- The members of an object, each printed. -/
def compactMembers : List (Text × Value) → List Text
  | [] => []
  | (name, value) :: rest => (printedString name ++ ':' :: compact value) :: compactMembers rest

end

end Value

end ArgGuard.Json
