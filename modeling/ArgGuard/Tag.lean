import ArgGuard.Identifier

/-!
# Tags

A tag is a comment that asks for argument checks. It ends a line that declares one lexical
variable, as in `my $n = $args{count}; # VALIDATE_ARG count`. The tag starts at the last `#`
of the line, and the code in front of it ends with a semicolon, so a line can be cut into a
declaration and a tag in one way only.
-/

namespace ArgGuard

/-- The kind of a variable, told by its sigil. -/
inductive Sigil where
  /-- One value, or a reference. -/
  | scalar
  /-- A list of values. -/
  | array
  /-- Values by name. -/
  | hash
  deriving DecidableEq, Repr

namespace Sigil

/-- The character in front of the variable's name. -/
def char : Sigil → Char
  | scalar => '$'
  | array => '@'
  | hash => '%'

/-- The kind that a sigil stands for. -/
def ofChar? (c : Char) : Option Sigil :=
  if c = '$' then some scalar
  else if c = '@' then some array
  else if c = '%' then some hash
  else none

/-- Each kind is the one that its character stands for. -/
theorem ofChar?_char (s : Sigil) : ofChar? s.char = some s := by cases s <;> decide

end Sigil

/-- How many arguments a tag asks to check. -/
inductive Tag.Scope where
  /-- The one argument bound to the declared variable. -/
  | single
  /-- Every argument in the declared aggregate. -/
  | all
  deriving DecidableEq, Repr

/-- A tag with the declaration it stands behind. -/
structure Tag where
  /-- One argument or all of them. -/
  scope : Tag.Scope
  /-- The kind of the declared variable. -/
  sigil : Sigil
  /-- The declared variable's name, without its sigil. -/
  name : Text
  /-- The argument named after the keyword, if there is one. -/
  explicit : Option Text
  /-- The code before the tag. -/
  lead : Text
  /-- The tag itself, from its `#` to the end of the line. -/
  comment : Text
  deriving DecidableEq, Repr

namespace Tag

/-- The argument a tag refers to: the one it names, else the one called like the variable. -/
def argumentName (t : Tag) : Text := t.explicit.getD t.name

/-- The declared variable with its sigil. -/
def declared (t : Tag) : Text := t.sigil.char :: t.name

/-- The keyword of a tag. -/
def Scope.keyword : Scope → Text
  | .single => "VALIDATE_ARG"
  | .all => "VALIDATE_ARGS"

/-- An initializer follows blanks and an equals sign and stays on its line. -/
def isInitializer (s : Text) : Bool :=
  match Text.skipBlanks s with
  | '=' :: value => !value.contains '\n'
  | _ => false

/-- A semicolon with blanks behind it ends a declaration; what comes before is returned. -/
def dropSemicolon? (s : Text) : Option Text :=
  match (Text.trimBlanksEnd s).reverse with
  | ';' :: before => some before.reverse
  | _ => none

/-- Read a `my` declaration that takes up the whole text, with or without an initializer. -/
def declaration? (lead : Text) : Option (Sigil × Text) := do
  let afterMy ← List.isPrefixOf? "my" (Text.skipBlanks lead)
  let start ← Text.skipBlanks? afterMy
  let sigil ← start.head?.bind Sigil.ofChar?
  let (name, rest) ← Identifier.read? start.tail
  let initial ← dropSemicolon? rest
  if initial.isEmpty || isInitializer initial then some (sigil, name) else none

/-- After the keyword comes nothing but blanks, or one argument name between blanks. -/
def explicit? (s : Text) : Option (Option Text) :=
  if s.all Text.isBlank then some none
  else do
    let (name, rest) ← Identifier.read? (← Text.skipBlanks? s)
    if rest.all Text.isBlank then some (some name) else none

/-- Read the keyword and the argument name out of a tag comment. -/
def keyword? : Text → Option (Scope × Option Text)
  | '#' :: afterHash => do
    match ← List.isPrefixOf? Scope.single.keyword (Text.skipBlanks afterHash) with
    | 'S' :: rest => return (.all, ← explicit? rest)
    | rest => return (.single, ← explicit? rest)
  | _ => none

/-- Read a line, without its terminator, as a declaration with a tag. -/
def ofLine? (line : Text) : Option Tag := do
  let (lead, comment) ← Text.cutAtLast? '#' line
  let (sigil, name) ← declaration? lead
  let (scope, explicit) ← keyword? comment
  return { scope, sigil, name, explicit, lead, comment }

end Tag

end ArgGuard
