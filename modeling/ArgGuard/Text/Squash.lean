import ArgGuard.Text.Line

/-!
# Squashing code onto one line

Code that is appended to a line must not bring a line break along. Squashing drops blank
lines and full-line comments, removes the indentation of the other lines and joins these
with single spaces.
-/

namespace ArgGuard.Text

/-- A line counts when something other than a comment follows its indentation. -/
def isCode : Text → Bool
  | [] => false
  | c :: _ => c != '#'

/-- The lines that count, without their indentation and terminators. -/
def codeLines (code : Text) : List Text :=
  (code.lines.map fun l => l.body.dropWhile isSpace).filter isCode

/-- Multi-line code as a single line. -/
def squash (code : Text) : Text := joined " " code.codeLines

end ArgGuard.Text
