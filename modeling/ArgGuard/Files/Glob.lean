import ArgGuard.Files.Access

/-!
# Glob patterns

A glob pattern is a path in which a question mark stands for any character, an asterisk for any
characters, and brackets for one character out of a set or, behind an exclamation mark, for one
outside of it. Two asterisks make up a whole piece of the path and stand for any number of
directories. Pieces without wildcards are followed as they are.
-/

namespace ArgGuard.Glob

/-- The characters that one item of a set stands for. -/
inductive CharRange where
  /-- One character. -/
  | single (c : Char)
  /-- The characters from one to another. -/
  | range (first last : Char)
  deriving DecidableEq, Repr

/-- Whether an item of a set stands for a character. -/
def CharRange.holds (c : Char) : CharRange → Bool
  | single d => c = d
  | range first last => first ≤ c && c ≤ last

/-- The items of a set. -/
def charRanges : Text → List CharRange
  | a :: '-' :: b :: rest => .range a b :: charRanges rest
  | c :: rest => .single c :: charRanges rest
  | [] => []

/-- A part of a pattern. -/
inductive Token where
  /-- This character. -/
  | char (c : Char)
  /-- Any character. -/
  | anyChar
  /-- Any characters. -/
  | anySequence
  /-- Any number of directories. -/
  | anyDirectories
  /-- A character in a set, or outside of it. -/
  | oneOf (inside : Bool) (set : List CharRange)
  deriving DecidableEq, Repr

/-- What is wrong with a pattern. -/
inductive PatternFault where
  /-- More than two asterisks in a row. -/
  | tooManyStars
  /-- Two asterisks that are no whole piece. -/
  | partialRecursion
  /-- A bracket without a set. -/
  | invalidRange
  deriving DecidableEq, Repr

/-- A fault of a pattern, and near which character it is. -/
structure PatternError where
  /-- The number of characters before it. -/
  position : Nat
  /-- What is wrong. -/
  fault : PatternFault
  deriving DecidableEq, Repr

/-- The words that report a fault of a pattern. -/
def PatternError.message (e : PatternError) : Text :=
  let what : Text := match e.fault with
    | .tooManyStars => "wildcards are either regular `*` or recursive `**`"
    | .partialRecursion => "recursive wildcards must form a single path component"
    | .invalidRange => "invalid range pattern"
  "Pattern syntax error near position " ++ Text.ofNat e.position ++ ": " ++ what

/-- Cut a text after its first closing bracket, which is dropped. -/
def cutAtBracket? : Text → Option (Text × Text)
  | [] => none
  | c :: rest =>
    if c = ']' then some ([], rest)
    else (cutAtBracket? rest).map fun (set, after) => (c :: set, after)

/-- Read a set after its opening bracket. Its first character may be a closing bracket. -/
def charSet? : Text → Option (Token × Text)
  | '!' :: first :: rest =>
    (cutAtBracket? rest).map fun (set, after) => (.oneOf false (charRanges (first :: set)), after)
  | ['!'] => none
  | first :: rest =>
    (cutAtBracket? rest).map fun (set, after) => (.oneOf true (charRanges (first :: set)), after)
  | [] => none

/-- Read a pattern from a position on, given whether a new piece starts there. The bound is the
length of the text. -/
def tokensFrom (position : Nat) (atStart : Bool) : Nat → Text → Except PatternError (List Token)
  | bound + 1, '*' :: '*' :: rest =>
    match atStart, rest with
    | _, '*' :: _ => .error ⟨position + 2, .tooManyStars⟩
    | false, _ => .error ⟨position - 1, .partialRecursion⟩
    | true, [] => .ok [.anyDirectories]
    | true, '/' :: after => return .anyDirectories :: (← tokensFrom (position + 3) true bound after)
    | true, _ => .error ⟨position + 2, .partialRecursion⟩
  | bound + 1, '*' :: rest => return .anySequence :: (← tokensFrom (position + 1) false bound rest)
  | bound + 1, '?' :: rest => return .anyChar :: (← tokensFrom (position + 1) false bound rest)
  | bound + 1, '[' :: rest =>
    match charSet? rest with
    | some (set, after) =>
      return set :: (← tokensFrom (position + 1 + rest.length - after.length) false bound after)
    | none => .error ⟨position, .invalidRange⟩
  | bound + 1, c :: rest => return .char c :: (← tokensFrom (position + 1) (c = '/') bound rest)
  | _, _ => .ok []

/-- Read a pattern. -/
def tokens (pattern : Text) : Except PatternError (List Token) :=
  tokensFrom 0 true pattern.length pattern

/-- The characters of a pattern without wildcards. -/
def literal? : List Token → Option Text
  | [] => some []
  | .char c :: rest => (literal? rest).map (c :: ·)
  | _ => none

/-- Whether a part of a pattern that stands for one character stands for this one. -/
def Token.holds (c : Char) : Token → Bool
  | char d => c = d
  | anyChar => true
  | oneOf inside set => (set.any (CharRange.holds c)) == inside
  | anySequence | anyDirectories => false

/-- Whether a name matches a pattern. -/
def nameMatches : List Token → Text → Bool
  | [], name => name.isEmpty
  | .anySequence :: rest, name | .anyDirectories :: rest, name =>
    anySuffix (nameMatches rest) name
  | token :: rest, c :: name => token.holds c && nameMatches rest name
  | _ :: _, [] => false
where
  /-- Whether some end of a text has a property. -/
  anySuffix (holds : Text → Bool) : Text → Bool
    | [] => holds []
    | c :: rest => holds (c :: rest) || anySuffix holds rest

/-- A glob pattern, ready to be followed. -/
structure Pattern where
  /-- The directory from which it is followed. -/
  start : Text
  /-- Its pieces. -/
  pieces : List (List Token)
  /-- Whether only directories match, as behind a slash at the end. -/
  directoriesOnly : Bool
  deriving DecidableEq, Repr

/-- The pieces between slashes, where a slash at the end starts no new piece. -/
def patternPieces (pattern : Text) : List Text :=
  let pieces := Path.pieces pattern
  if pieces.getLast? = some [] then pieces.dropLast else pieces

/-- Read a glob pattern: as a whole, and piece by piece. An empty one has one empty piece. -/
def Pattern.ofText (pattern : Text) : Except PatternError Pattern := do
  let _ ← tokens pattern
  let absolute := Path.isAbsolute pattern
  let relative := if absolute then pattern.tail else pattern
  let pieces ← (patternPieces relative).mapM tokens
  return {
    start := if absolute then "/" else "."
    pieces := if relative.isEmpty then [[]] else pieces
    directoriesOnly := pattern.getLast? = some '/' }

section Search

variable {m : Type → Type} [Monad m] (files : FileAccess m)

/-- The path of an entry; entries of the working directory go by their names. -/
def below (path name : Text) : Text := if Path.same path "." then name else Path.join path name

/-- How many steps a search may take along a path: no path is longer than 4096 bytes, and each
piece of a pattern takes at most one step more. -/
def searchBound (pieces : List (List Token)) : Nat := 4096 + pieces.length

/-- Whether a piece stands for any number of directories. -/
def isRecursive (piece : List Token) : Bool := piece = [.anyDirectories]

mutual

/-- The paths below a path that match the pieces of a pattern. -/
def search (directoriesOnly : Bool) : Nat → List (List Token) → Text → m (List Text)
  | 0, _, _ => return []
  | _, [], path => do
    if directoriesOnly && !(← files.isDirectory path) then return [] else return [path]
  | bound + 1, piece :: rest, path => do
    match literal? piece with
    | some name =>
      let next := below path name
      let found ←
        if name = ['.'] ∨ name = ['.', '.'] then files.isDirectory path
        else (· || ·) <$> files.isFile next <*> files.isDirectory next
      if found then search directoriesOnly bound rest next else return []
    | none =>
      match ← files.list path with
      | .error _ => return []
      | .ok names =>
        let inside ← names.mapM fun name =>
          visit directoriesOnly bound piece rest (below path name) name
        let dots := if piece.head? = some (.char '.') then
          [("." : Text), ".."].filter (nameMatches piece) else []
        let special ← dots.mapM fun name =>
          search directoriesOnly bound rest (Path.join path name)
        return inside.flatten ++ special.flatten

/-- The paths that match when an entry of a directory is reached with a piece and those behind
it. -/
def visit (directoriesOnly : Bool) :
    Nat → List Token → List (List Token) → Text → Text → m (List Text)
  | 0, _, _, _, _ => return []
  | bound + 1, piece, rest, path, name => do
    if isRecursive piece then
      let rest := rest.dropWhile isRecursive
      let isDirectory ← files.isDirectory path
      let deeper ←
        if isDirectory then search directoriesOnly bound (piece :: rest) path else pure []
      match rest with
      | [] => return if isDirectory then path :: deeper else []
      | next :: rest => return (← visit directoriesOnly bound next rest path name) ++ deeper
    else if nameMatches piece name then search directoriesOnly bound rest path
    else return []

end

/-- The paths that match a pattern. -/
def Pattern.search (pattern : Pattern) : m (List Text) :=
  Glob.search files pattern.directoriesOnly (searchBound pattern.pieces * 2) pattern.pieces
    pattern.start

end Search

end ArgGuard.Glob
