import ArgGuard.Json.Fault

/-!
# Scalars of a JSON text

Reading the constants, numbers and strings of a JSON text. A scalar whose end is known may
still have no value: a string with a lone surrogate, or a number beyond all doubles. Such a
scalar can be skipped but not read, so its value carries the fault. A scalar that breaks off
stops every reader, but a reader that only skips sees fewer reasons to name.
-/

namespace ArgGuard.Json

/-- A scalar of a JSON text. -/
inductive Scalar where
  /-- The null. -/
  | null
  /-- A truth value. -/
  | bool (value : Bool)
  /-- A number, unless no double holds it. -/
  | number (value : Except Fault Number)
  /-- A string, unless its surrogates are not paired. -/
  | string (value : Except Fault Text)

/-- Where a text stops being JSON: the fault for a reader, and the one for a reader that only
skips. -/
structure Break where
  /-- The fault met by reading. -/
  fault : Fault
  /-- The fault met by skipping. -/
  skipped : Fault
  deriving DecidableEq, Repr

/-- A break that reading and skipping meet alike. -/
def Break.both (fault : Fault) : Break := ⟨fault, fault⟩

/-- JSON white space. -/
def isSpace (c : Char) : Bool := c = ' ' || c = '\n' || c = '\t' || c = '\r'

/-- What is left after the white space in front. -/
def skipSpace (s : Text) : Text := s.dropWhile isSpace

section Strings

/-- The value of a hexadecimal digit. -/
def hexDigit? (c : Char) : Option Nat :=
  if Text.isDigit c then some (c.toNat - '0'.toNat)
  else if 'a' ≤ c ∧ c ≤ 'f' then some (c.toNat - 'a'.toNat + 10)
  else if 'A' ≤ c ∧ c ≤ 'F' then some (c.toNat - 'A'.toNat + 10)
  else none

/-- The value of four hexadecimal digits. -/
def hexCode? (a b c d : Char) : Option Nat := do
  return ((← hexDigit? a) * 16 + (← hexDigit? b)) * 256 + (← hexDigit? c) * 16 + (← hexDigit? d)

/-- Why no four digits can be read: the text has fewer than four bytes left, or some other
character is among the next four. -/
def hexFault (s : Text) : Fault :=
  if Text.byteCount (s.take 4) < 4 then .endInString else .invalidEscape

/-- The character behind a backslash, for the escapes of one character. -/
def simpleEscape? (c : Char) : Option Char :=
  if c = '"' ∨ c = '\\' ∨ c = '/' then some c
  else if c = 'b' then some (Char.ofNat 8)
  else if c = 'f' then some (Char.ofNat 12)
  else if c = 'n' then some '\n'
  else if c = 'r' then some '\r'
  else if c = 't' then some '\t'
  else none

/-- The first halves of surrogate pairs. -/
def isHighSurrogate (n : Nat) : Bool := 0xD800 ≤ n && n ≤ 0xDBFF

/-- The second halves of surrogate pairs. -/
def isLowSurrogate (n : Nat) : Bool := 0xDC00 ≤ n && n ≤ 0xDFFF

/-- The character that a surrogate pair stands for. -/
def pairedChar (high low : Nat) : Char :=
  Char.ofNat (0x10000 + (high - 0xD800) * 0x400 + (low - 0xDC00))

/-- Read a string after its opening quote: the characters in reverse are collected, and the
text after the closing quote is returned with the string. -/
def readString (collected : Text) : Text → Except Fault (Text × Text)
  | [] => .error .endInString
  | '"' :: rest => .ok (collected.reverse, rest)
  | '\\' :: 'u' :: a :: b :: c :: d :: rest =>
    match hexCode? a b c d with
    | none => .error .invalidEscape
    | some code =>
      if isLowSurrogate code then .error .loneSurrogate
      else if isHighSurrogate code then
        match rest with
        | '\\' :: 'u' :: a :: b :: c :: d :: rest =>
          match hexCode? a b c d with
          | none => .error .invalidEscape
          | some second =>
            if isLowSurrogate second then readString (pairedChar code second :: collected) rest
            else .error .loneSurrogate
        | '\\' :: 'u' :: rest => .error (hexFault rest)
        | [] | ['\\'] => .error .endInString
        | _ => .error .endOfHexEscape
      else readString (Char.ofNat code :: collected) rest
  | '\\' :: 'u' :: rest => .error (hexFault rest)
  | ['\\'] => .error .endInString
  | '\\' :: c :: rest =>
    match simpleEscape? c with
    | some char => readString (char :: collected) rest
    | none => .error .invalidEscape
  | c :: rest =>
    if c.toNat < 32 then .error .controlCharacter else readString (c :: collected) rest

/-- Skip a string after its opening quote, without pairing surrogates. -/
def skipString : Text → Except Fault Text
  | [] => .error .endInString
  | '"' :: rest => .ok rest
  | '\\' :: 'u' :: a :: b :: c :: d :: rest =>
    match hexCode? a b c d with
    | none => .error .invalidEscape
    | some _ => skipString rest
  | '\\' :: 'u' :: rest => .error (hexFault rest)
  | ['\\'] => .error .endInString
  | '\\' :: c :: rest =>
    match simpleEscape? c with
    | some _ => skipString rest
    | none => .error .invalidEscape
  | c :: rest => if c.toNat < 32 then .error .controlCharacter else skipString rest

/-- A string after its opening quote, with the text behind it. -/
def string? (s : Text) : Except Break (Except Fault Text × Text) :=
  match readString [] s, skipString s with
  | .ok (value, rest), _ => .ok (.ok value, rest)
  | .error fault, .ok rest => .ok (.error fault, rest)
  | .error fault, .error skipped => .error ⟨fault, skipped⟩

end Strings

section Numbers

/-- The digits in front of a text, and what follows them. -/
def spanDigits (s : Text) : Text × Text := (s.takeWhile Text.isDigit, s.dropWhile Text.isDigit)

/-- A number with one more decimal digit. -/
def appendDigit (n : Nat) (c : Char) : Nat := n * 10 + (c.toNat - '0'.toNat)

/-- The number that decimal digits write. -/
def digitsValue (digits : Text) : Nat := digits.foldl appendDigit 0

/-- Append decimal digits to a number as long as 64 bits hold it. The digits that are left are
returned with it. -/
def takeDigits (n : Nat) : Text → Nat × Text
  | [] => (n, [])
  | c :: rest =>
    if appendDigit n c < Nat.pow 2 64 then takeDigits (appendDigit n c) rest else (n, c :: rest)

/-- The break at a place where a digit must stand. -/
def digitMissing : Text → Break
  | [] => ⟨.endInValue, .invalidNumber⟩
  | _ => .both .invalidNumber

/-- The parts of a number as they are written. -/
structure Numeral where
  /-- Whether a minus sign stands in front. -/
  negative : Bool
  /-- The digits before the point. -/
  whole : Text
  /-- The digits after the point, if there is one. -/
  fraction : Option Text
  /-- The power of ten, if there is one. -/
  exponent : Option Int
  deriving DecidableEq, Repr

/-- The value of a numeral: an integer where it is written as one and 64 bits hold it, else a
double. A negative zero is no integer. The significand of a double has as many digits as 64 bits
hold; of the others, those before the point count by the power of ten, and those after it do not
count. -/
def Numeral.value (n : Numeral) : Except Fault Number :=
  let (whole, left) := takeDigits 0 n.whole
  let isInt := n.fraction.isNone && n.exponent.isNone && left.isEmpty &&
    (!n.negative || (whole ≠ 0 && whole ≤ Nat.pow 2 63))
  if isInt then .ok (.int (if n.negative then -(whole : Int) else whole))
  else
    let fraction := n.fraction.getD []
    let (significand, dropped) := takeDigits whole fraction
    let exponent := n.exponent.getD 0 + left.length + dropped.length - fraction.length
    match Double.ofDecimal? n.negative significand exponent with
    | some x => .ok (.double x)
    | none => .error .numberOutOfRange

/-- The digits before the point: a zero alone, or digits that start with no zero. -/
def readWhole (s : Text) : Except Break (Text × Text) :=
  match s with
  | '0' :: rest =>
    match rest with
    | c :: _ => if Text.isDigit c then .error (.both .invalidNumber) else .ok (['0'], rest)
    | [] => .ok (['0'], [])
  | _ =>
    let (digits, rest) := spanDigits s
    if digits.isEmpty then .error (digitMissing s) else .ok (digits, rest)

/-- A point and at least one digit, if there is a point. -/
def readFraction : Text → Except Break (Option Text × Text)
  | '.' :: s =>
    let (digits, rest) := spanDigits s
    if digits.isEmpty then .error (digitMissing s) else .ok (some digits, rest)
  | s => .ok (none, s)

/-- A sign of an exponent, if there is one. -/
def readSign : Text → Bool × Text
  | '-' :: s => (true, s)
  | '+' :: s => (false, s)
  | s => (false, s)

/-- An exponent with at least one digit, if there is one. -/
def readExponent : Text → Except Break (Option Int × Text)
  | c :: s =>
    if c = 'e' ∨ c = 'E' then
      let (negative, s) := readSign s
      let (digits, rest) := spanDigits s
      if digits.isEmpty then .error (digitMissing s)
      else
        let exponent : Int := digitsValue digits
        .ok (some (if negative then -exponent else exponent), rest)
    else .ok (none, c :: s)
  | [] => .ok (none, [])

/-- A number after its sign. -/
def readNumeral (negative : Bool) (s : Text) : Except Break (Numeral × Text) := do
  let (whole, s) ← readWhole s
  let (fraction, s) ← readFraction s
  let (exponent, s) ← readExponent s
  return (⟨negative, whole, fraction, exponent⟩, s)

end Numbers

/-- What stands in front of a text, after white space. -/
inductive Front where
  /-- A scalar, and the text behind it. -/
  | scalar (scalar : Scalar) (rest : Text)
  /-- The opening bracket of an array, and the text behind it. -/
  | openList (rest : Text)
  /-- The opening brace of an object, and the text behind it. -/
  | openObject (rest : Text)
  /-- No complete scalar: the character it starts with, if any, and the break. -/
  | broken (start : Option Char) (gap : Break)

/-- Read the rest of a constant after its first character. -/
def readWord (start : Char) (letters : Text) (scalar : Scalar) (s : Text) : Front :=
  match letters, s with
  | [], rest => .scalar scalar rest
  | _ :: _, [] => .broken start (.both .endInValue)
  | expected :: letters, c :: rest =>
    if c = expected then readWord start letters scalar rest
    else .broken start (.both .wordExpected)

/-- A number as a front. -/
def readNumber (start : Char) (negative : Bool) (s : Text) : Front :=
  match readNumeral negative s with
  | .ok (numeral, rest) => .scalar (.number numeral.value) rest
  | .error gap => .broken start gap

/-- What stands in front of a text. -/
def Front.ofText (s : Text) : Front :=
  match skipSpace s with
  | [] => .broken none (.both .endInValue)
  | c :: rest =>
    if c = 'n' then readWord c "ull" .null rest
    else if c = 't' then readWord c "rue" (.bool true) rest
    else if c = 'f' then readWord c "alse" (.bool false) rest
    else if c = '"' then
      match string? rest with
      | .ok (value, rest) => .scalar (.string value) rest
      | .error gap => .broken c gap
    else if c = '[' then .openList rest
    else if c = '\x7b' then .openObject rest
    else if c = '-' then readNumber c true rest
    else if Text.isDigit c then readNumber c false (c :: rest)
    else .broken c (.both .valueExpected)

/-- What a scalar is found to be where another type is expected. -/
def Scalar.found : Scalar → Except Fault Found
  | null => .ok .null
  | bool b => .ok (.bool b)
  | number n => n.map .number
  | string s => s.map .string

/-- The value of a scalar. -/
def Scalar.value : Scalar → Except Fault Value
  | null => .ok .null
  | bool b => .ok (.bool b)
  | number n => n.map .number
  | string s => s.map .string

/-- What a front is found to be where another type is expected. -/
def Front.found : Front → Except Fault Found
  | scalar s _ => s.found
  | openList _ => .ok .array
  | openObject _ => .ok .object
  | broken _ gap => .error gap.fault

end ArgGuard.Json
