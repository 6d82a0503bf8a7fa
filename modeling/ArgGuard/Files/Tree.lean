import ArgGuard.Dictionary
import ArgGuard.Files.Error
import ArgGuard.Files.Path

/-!
# File trees

A file tree is a file system held in memory. Each place is a list of names from the root down, and
holds a file or a directory; relative paths start in the working directory. Paths are followed piece
by piece, so a path that leads through a file fails even when it comes back out of it.
-/

namespace ArgGuard

/-- What a file holds. -/
inductive Content where
  /-- A text, written as UTF-8. -/
  | text (text : Text)
  /-- Bytes that are not UTF-8 text. -/
  | bytes (bytes : List UInt8)
  deriving DecidableEq, Repr

/-- Bytes are a text when they are its UTF-8 form. -/
def Content.ofBytes (bytes : List UInt8) : Content :=
  match String.fromUTF8? ⟨bytes.toArray⟩ with
  | some s => .text s.toList
  | none => .bytes bytes

/-- The text of a content. -/
def Content.read : Content → Except FileError Text
  | text t => .ok t
  | bytes _ => .error .notUtf8

/-- What a place holds. -/
inductive Entry where
  /-- A file with its content. -/
  | file (content : Content)
  /-- A directory. -/
  | directory
  deriving DecidableEq, Repr

/-- A file system with a working directory. -/
structure FileTree where
  /-- The working directory, by its names from the root down. -/
  workingDirectory : List Text
  /-- What the places hold, by their names from the root down. -/
  entries : Dictionary (List Text) Entry
  deriving DecidableEq, Repr

namespace FileTree

/-- Where a path leads: the names from the root down. -/
abbrev Place := List Text

/-- What a place holds; the root is a directory. -/
def at? (tree : FileTree) : Place → Option Entry
  | [] => some .directory
  | names => Dictionary.get? tree.entries names

/-- Let a place hold an entry. -/
def put (tree : FileTree) (place : Place) (entry : Entry) : FileTree :=
  { tree with entries := Dictionary.insert place entry tree.entries }

/-- Follow one piece of a path from a place, which must be a directory. The root is the directory
above itself. -/
def follow (tree : FileTree) (place : Place) (piece : Text) : Except FileError Place :=
  match tree.at? place with
  | none => .error .notFound
  | some (.file _) => .error .notDirectory
  | some .directory =>
    match Path.Component.ofPiece? piece with
    | some (.name name) =>
      if 255 < Text.byteCount name then .error .nameTooLong else .ok (place ++ [name])
    | some .parent => .ok place.dropLast
    | _ => .ok place

/-- Follow pieces from a place. -/
def followAll (tree : FileTree) (place : Place) (pieces : List Text) : Except FileError Place :=
  pieces.foldlM (follow tree) place

/-- Where the first component of a path starts. -/
def startOf (tree : FileTree) (path : Text) : Place :=
  if Path.isAbsolute path then [] else tree.workingDirectory

/-- Where some pieces of a path lead, if the path may be used at all. -/
def reach (tree : FileTree) (path : Text) (pieces : List Text) : Except FileError Place :=
  if path = [] then .error .notFound
  else if path.contains (Char.ofNat 0) then .error .nullInPath
  else if 4096 ≤ Text.byteCount path then .error .nameTooLong
  else tree.followAll (tree.startOf path) pieces

/-- The place that a path leads to, whether or not it holds anything. -/
def locate (tree : FileTree) (path : Text) : Except FileError Place :=
  tree.reach path (Path.pieces path)

/-- What the place of a path holds. -/
def entry (tree : FileTree) (path : Text) : Except FileError Entry := do
  match tree.at? (← tree.locate path) with
  | some entry => return entry
  | none => throw .notFound

/-- Whether a path leads to a file. -/
def isFile (tree : FileTree) (path : Text) : Bool :=
  match tree.entry path with
  | .ok (.file _) => true
  | _ => false

/-- Whether a path leads to a directory. -/
def isDirectory (tree : FileTree) (path : Text) : Bool :=
  match tree.entry path with
  | .ok .directory => true
  | _ => false

/-- The text of the file that a path leads to. -/
def read (tree : FileTree) (path : Text) : Except FileError Text := do
  match ← tree.entry path with
  | .file content => content.read
  | .directory => throw .isDirectory

/-- The names directly below a place. -/
def namesBelow (tree : FileTree) (place : Place) : List Text :=
  (Dictionary.keys tree.entries).filterMap fun key =>
    if key.length = place.length + 1 ∧ key.dropLast = place then key.getLast? else none

/-- The names in the directory that a path leads to. -/
def list (tree : FileTree) (path : Text) : Except FileError (List Text) := do
  let place ← tree.locate path
  match tree.at? place with
  | some .directory => return tree.namesBelow place
  | some (.file _) => throw .notDirectory
  | none => throw .notFound

/-- Let the file that a path leads to hold a text. A new file needs its directory. -/
def write (tree : FileTree) (path text : Text) : Except FileError FileTree := do
  let place ← tree.locate path
  match tree.at? place with
  | some .directory => throw .isDirectory
  | _ => return tree.put place (.file (.text text))

/-- Make the directory of a path, in a directory that exists. Slashes at the end of the path do not
count, but a dot there leads into the directory that is to be made. -/
def makeDirectory (tree : FileTree) (path : Text) : Except FileError FileTree := do
  let place ← tree.reach path (Path.trimmedPieces path)
  match tree.at? place with
  | none => return tree.put place .directory
  | some _ => throw .alreadyExists

/-- Make the directory of a path and those that it lies in, given the components of the path, last
one first. What was made before a failure stays. -/
def makeDirectories (tree : FileTree) (path : Text) :
    List Path.Component → FileTree × Except FileError Unit
  | [] => (tree, .ok ())
  | _ :: above =>
    let settle (tree : FileTree) (error : FileError) : FileTree × Except FileError Unit :=
      (tree, if tree.isDirectory path then .ok () else .error error)
    match tree.makeDirectory path with
    | .ok made => (made, .ok ())
    | .error .notFound =>
      match tree.makeDirectories (Path.ofComponents above.reverse) above with
      | (tree, .error error) => (tree, .error error)
      | (tree, .ok ()) =>
        match tree.makeDirectory path with
        | .ok made => (made, .ok ())
        | .error error => settle tree error
    | .error error => settle tree error

/-- Make the directory that a path leads to, and those it lies in. -/
def createDirectories (tree : FileTree) (path : Text) : FileTree × Except FileError Unit :=
  tree.makeDirectories path (Path.components path).reverse

end FileTree

end ArgGuard
