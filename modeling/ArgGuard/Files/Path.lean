import ArgGuard.Text.Basic

/-!
# Paths

A path is a text of pieces between slashes. What a path means is told by its components:
empty pieces and single dots drop out, except a dot at the very start. Two spellings of the
same components are equal paths, and paths are ordered by their components.
-/

namespace ArgGuard.Path

/-- Cut a text at every separator; there is always one piece more than separators. -/
def splitAt (separator : Char) : Text → List Text
  | [] => [[]]
  | c :: rest =>
    if c = separator then [] :: splitAt separator rest
    else match splitAt separator rest with
      | [] => [[c]]
      | piece :: pieces => (c :: piece) :: pieces

/-- There is always a piece. -/
theorem splitAt_ne_nil (separator : Char) (s : Text) : splitAt separator s ≠ [] := by
  cases s with
  | nil => simp [splitAt]
  | cons c rest =>
    rw [splitAt]
    split
    next => simp
    next => split <;> simp

/-- The pieces with separators between them are the text. -/
theorem joined_splitAt (separator : Char) (s : Text) :
    Text.joined [separator] (splitAt separator s) = s := by
  induction s with
  | nil => rfl
  | cons c rest ih =>
    rw [splitAt]
    cases hp : splitAt separator rest with
    | nil => exact absurd hp (splitAt_ne_nil separator rest)
    | cons piece pieces =>
      rw [hp] at ih
      split
      next h => simp_all [Text.joined, List.intercalate_cons_cons]
      next => cases pieces <;> simp_all [Text.joined, List.intercalate_cons_cons]

/-- The pieces between slashes. -/
def pieces (path : Text) : List Text := splitAt '/' path

/-- The pieces between slashes, without the empty ones at the end. -/
def trimmedPieces (path : Text) : List Text :=
  ((pieces path).reverse.dropWhile fun piece => piece = []).reverse

/-- An absolute path starts with a slash. -/
def isAbsolute (path : Text) : Bool := path.head? = some '/'

/-- A step of a path. -/
inductive Component where
  /-- The root directory, in front of an absolute path. -/
  | root
  /-- The current directory, only in front of a relative path. -/
  | here
  /-- The directory above. -/
  | parent
  /-- An entry of a directory. -/
  | name (text : Text)
  deriving DecidableEq, Repr

namespace Component

/-- The component that a piece stands for, unless it drops out. -/
def ofPiece? (piece : Text) : Option Component :=
  if piece = [] ∨ piece = ['.'] then none
  else if piece = ['.', '.'] then some parent
  else some (name piece)

/-- The characters of a component. -/
def text : Component → Text
  | root => []
  | here => ['.']
  | parent => ['.', '.']
  | name text => text

/-- The place of a kind of component in the order. -/
def rank : Component → Nat
  | root => 0
  | here => 1
  | parent => 2
  | name _ => 3

end Component

/-- The components of a path. -/
def components (path : Text) : List Component :=
  let rest := (pieces path).filterMap Component.ofPiece?
  if isAbsolute path then .root :: rest
  else if (pieces path).head? = some ['.'] then .here :: rest
  else rest

/-- A path with the given components. -/
def ofComponents (components : List Component) : Text :=
  match components with
  | [.root] => "/"
  | _ => Text.joined "/" (components.map Component.text)

/-- Texts compared character by character. -/
def leText : Text → Text → Bool
  | [], _ => true
  | _ :: _, [] => false
  | c :: s, d :: t => c < d || (c = d && leText s t)

/-- Components compared by kind and then by name. -/
def Component.le (a b : Component) : Bool :=
  a.rank < b.rank || (a.rank = b.rank && leText a.text b.text)

/-- Lists of components compared component by component. -/
def leComponents : List Component → List Component → Bool
  | [], _ => true
  | _ :: _, [] => false
  | a :: as, b :: bs => if a = b then leComponents as bs else a.le b

/-- Paths compared by their components. -/
def le (a b : Text) : Bool := leComponents (components a) (components b)

/-- Equal paths have equal components. -/
def same (a b : Text) : Bool := components a = components b

/-- A path inside another one; an absolute path stays as it is. -/
def join (base path : Text) : Text :=
  if isAbsolute path then path
  else if base = [] ∨ base.getLast? = some '/' then base ++ path
  else base ++ '/' :: path

/-- The last piece of a path that does not drop out, with the pieces before it. -/
def lastPiece? (path : Text) : Option (List Text × Text) :=
  match (pieces path).reverse.dropWhile fun piece => piece = [] || piece = ['.'] with
  | [] => none
  | piece :: before => if piece = ['.', '.'] then none else some (before.reverse, piece)

/-- The name of the entry that a path leads to. -/
def fileName? (path : Text) : Option Text := (lastPiece? path).map Prod.snd

/-- A file name without its extension, and the extension. A dot in front of a name starts no
extension. -/
def cutExtension (name : Text) : Text × Option Text :=
  match Text.cutAtLast? '.' name with
  | some ([], _) | none => (name, none)
  | some (stem, dotted) => (stem, some dotted.tail)

/-- The extension of the entry that a path leads to. -/
def extension? (path : Text) : Option Text :=
  (fileName? path).bind fun name => (cutExtension name).2

/-- A path with another extension; one without a file name stays as it is. -/
def withExtension (path extension : Text) : Text :=
  match lastPiece? path with
  | none => path
  | some (before, name) =>
    Text.joined "/" (before ++ [(cutExtension name).1]) ++ '.' :: extension

end ArgGuard.Path
