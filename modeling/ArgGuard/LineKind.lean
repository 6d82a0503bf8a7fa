import ArgGuard.Tag

/-!
# Kinds of lines

A scan of a source reacts to a handful of line shapes: the marks around documentation blocks,
the mark that ends the code, package and sub declarations in conventional layout, and tags.
The shapes exclude each other, except that the closing documentation mark also looks like an
opening one and is told apart first.
-/

namespace ArgGuard

/-- What a line means in code. -/
inductive LineKind where
  /-- A documentation block starts. -/
  | docOpen
  /-- A documentation block ends. -/
  | docClose
  /-- The code ends, and data may follow. -/
  | endOfCode
  /-- A package declaration. -/
  | package (name : Text)
  /-- A sub declaration. -/
  | function (name : Text)
  /-- A declaration with a tag. -/
  | tag (tag : Tag)
  /-- Any other line. -/
  | other
  deriving DecidableEq, Repr

namespace LineKind

/-- A documentation block ends at a line that starts with the word `=cut`. -/
def closesDoc (line : Text) : Bool :=
  match List.isPrefixOf? "=cut" line with
  | some (c :: _) => !Unicode.isWord c
  | some [] => true
  | none => false

/-- A documentation block starts at a line with an equals sign and an ASCII letter. -/
def opensDoc : Text → Bool
  | '=' :: c :: _ => c.isAlpha
  | _ => false

/-- The code ends at a line that holds one of two marks, with blanks behind it. -/
def endsCode (line : Text) : Bool :=
  [("__END__" : Text), "__DATA__"].any fun mark =>
    ((List.isPrefixOf? mark line).map (·.all Text.isBlank)).getD false

/-- Further parts of a package name, each a double colon and word characters. -/
def moreParts (s : Text) : Text × Text :=
  go s.length s
where
  /-- Read at most so many parts. -/
  go : Nat → Text → Text × Text
  | n + 1, ':' :: ':' :: rest =>
    let (word, after) := Identifier.spanWord rest
    if word.isEmpty then ([], ':' :: ':' :: rest)
    else
      let (parts, final) := go n after
      (':' :: ':' :: word ++ parts, final)
  | _, s => ([], s)

/-- Read the longest package name: an identifier and further parts. -/
def packageName? (s : Text) : Option (Text × Text) := do
  let (head, rest) ← Identifier.read? s
  let (parts, after) := moreParts rest
  return (head ++ parts, after)

/-- What is left after a version number: an optional `v`, a digit, then digits, dots and
underscores. -/
def dropVersion? (s : Text) : Option Text :=
  match (match s with | 'v' :: rest => rest | _ => s) with
  | c :: rest =>
    if Text.isDigit c then
      some (rest.dropWhile fun c => Text.isDigit c || c = '.' || c = '_')
    else none
  | [] => none

/-- A declaration goes on with a semicolon or an opening brace after any blanks. -/
def startsBody (s : Text) : Bool :=
  match Text.skipBlanks s with
  | c :: _ => c = ';' || c = '\x7b'
  | [] => false

/-- The rest of a package declaration may hold a version before its body. -/
def endsPackageHead (s : Text) : Bool :=
  startsBody s || (((Text.skipBlanks? s).bind dropVersion?).map startsBody).getD false

/-- The name in a package declaration. -/
def declaredPackage? (line : Text) : Option Text := do
  let rest ← List.isPrefixOf? "package" (Text.skipBlanks line)
  let (name, after) ← packageName? (← Text.skipBlanks? rest)
  if endsPackageHead after then some name else none

/-- The name in a sub declaration. -/
def declaredFunction? (line : Text) : Option Text := do
  let rest ← List.isPrefixOf? "sub" (Text.skipBlanks line)
  let (name, _) ← Identifier.read? (← Text.skipBlanks? rest)
  return name

/-- The kind of a line, given without its terminator. -/
def ofLine (line : Text) : LineKind :=
  if closesDoc line then docClose
  else if opensDoc line then docOpen
  else if endsCode line then endOfCode
  else if let some name := declaredPackage? line then package name
  else if let some name := declaredFunction? line then function name
  else if let some t := Tag.ofLine? line then tag t
  else other

end LineKind

end ArgGuard
