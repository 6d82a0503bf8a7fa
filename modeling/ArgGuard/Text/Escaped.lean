import ArgGuard.Text.Basic
import ArgGuard.Unicode.Extending
import ArgGuard.Unicode.Printable

/-!
# Visible escapes

Messages and comments show arbitrary names, so characters that would break the line or stay
invisible are written as escapes. A name inside a comment escapes both quotes, and an
extending character only where it would attach to the comment itself. A string shown between
double quotes leaves the single quote alone and escapes every extending character.
-/

namespace ArgGuard.Text

/-- What a context escapes beside the characters that are always escaped. -/
structure Escaping where
  /-- The single quote gets a backslash. -/
  singleQuote : Bool
  /-- Extending characters are written by number. -/
  extending : Bool
  deriving DecidableEq, Repr

/-- A character written by its number in lower-case hexadecimal digits. -/
def numbered (c : Char) : Text := "\\u\x7b" ++ Nat.toDigits 16 c.toNat ++ "\x7d"

/-- How one character is shown. -/
def escapedChar (e : Escaping) (c : Char) : Text :=
  if c.toNat = 0 then "\\0"
  else if c = '\t' then "\\t"
  else if c = '\n' then "\\n"
  else if c = '\r' then "\\r"
  else if c = '\\' ∨ c = '"' ∨ (c = '\'' ∧ e.singleQuote) then ['\\', c]
  else if e.extending && Unicode.isExtending c then numbered c
  else if Unicode.isPrintable c then [c]
  else numbered c

/-- A name as a comment shows it. -/
def escaped : Text → Text
  | [] => []
  | c :: rest => escapedChar ⟨true, true⟩ c ++ rest.flatMap (escapedChar ⟨true, false⟩)

/-- A string as a message shows it, between double quotes. -/
def shown (s : Text) : Text := '"' :: s.flatMap (escapedChar ⟨false, true⟩) ++ ['"']

end ArgGuard.Text
