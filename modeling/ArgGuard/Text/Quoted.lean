import ArgGuard.Text.Basic

/-!
# Double-quoted literals

A text is written as a Perl double-quoted string in which nothing is interpolated: the
quote, the backslash and the two sigils that start an interpolation are escaped, and the
line breaks and the tab are written as escapes, so the literal stays on one line.
-/

namespace ArgGuard.Text

/-- How one character stands in a double-quoted literal. -/
def quotedChar (c : Char) : Text :=
  if c = '"' ∨ c = '\\' ∨ c = '$' ∨ c = '@' then ['\\', c]
  else if c = '\n' then ['\\', 'n']
  else if c = '\r' then ['\\', 'r']
  else if c = '\t' then ['\\', 't']
  else [c]

/-- The double-quoted literal of a text. -/
def quoted (s : Text) : Text := '"' :: s.flatMap quotedChar ++ ['"']

end ArgGuard.Text
