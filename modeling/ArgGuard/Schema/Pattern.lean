import ArgGuard.Schema.Basic

/-!
# Patterns between slashes

A pattern is written between slashes so that it means the same there: the slash and the sigil
of arrays are escaped, and so is a dollar sign, unless it stands at the end, before a closing
parenthesis or before a bar, where it is an anchor. Escape pairs of the pattern are kept.
-/

namespace ArgGuard.Schema

/-- A dollar sign before this rest of a pattern is an anchor. -/
def isAnchor : Text → Bool
  | [] => true
  | c :: _ => c = ')' || c = '|'

/-- The body of a pattern between slashes, unless the pattern ends inside an escape pair. -/
def slashed? : Text → Option Text
  | [] => some []
  | ['\\'] => none
  | '\\' :: c :: rest => do return '\\' :: c :: (← slashed? rest)
  | c :: rest => do
    let body ← slashed? rest
    if c = '/' ∨ c = '@' ∨ (c = '$' ∧ !isAnchor rest) then return '\\' :: c :: body
    else return c :: body

/-- The body of a one-line pattern between slashes. -/
def patternBody (pattern : Text) : Except CompileError Text :=
  if pattern.contains '\n' || pattern.contains '\r' then
    .error (.clauseValue "match" "pattern must be a single line")
  else match slashed? pattern with
    | some body => .ok body
    | none => .error (.clauseValue "match" "pattern ends with a lone backslash")

end ArgGuard.Schema
