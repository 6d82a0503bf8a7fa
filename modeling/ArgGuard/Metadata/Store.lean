import ArgGuard.Files.Path
import ArgGuard.Metadata.Reader

/-!
# Metadata stores

Metadata is kept in one JSON file with a member for each package, or in a directory with a file
for each package, where `Foo::Bar` is kept in `Foo/Bar.json`. A third store holds the metadata
of its packages itself.
-/

namespace ArgGuard.Metadata

/-- Cut a package name at every double colon. -/
def packageParts : Text → List Text
  | [] => [[]]
  | ':' :: ':' :: rest => [] :: packageParts rest
  | c :: rest =>
    match packageParts rest with
    | [] => [[c]]
    | part :: parts => (c :: part) :: parts

/-- The file of a package inside a metadata directory. -/
def packageFile (package : Text) : Text :=
  Path.withExtension ((packageParts package).foldl Path.join []) "json"

/-- How metadata is kept in files. -/
inductive Layout where
  /-- One file with a member for each package. -/
  | file (path : Text)
  /-- A directory with a file for each package. -/
  | directory (path : Text)
  deriving DecidableEq, Repr

namespace Layout

/-- The file in which the metadata of a package is looked for. -/
def pathOf (layout : Layout) (package : Text) : Text :=
  match layout with
  | file path => path
  | directory path => Path.join path (packageFile package)

/-- Read the metadata of a package from the text of its file. -/
def index (layout : Layout) (package text : Text) : Except MetadataError MetadataIndex :=
  let malformed := MetadataError.malformed package
  match layout with
  | directory _ => (MetadataIndex.ofText text).mapError malformed
  | file _ => do
    let packages ← (Json.membersOfText text).mapError malformed
    match packages.get? package with
    | none => throw (.unitNotFound package)
    | some value => (MetadataIndex.ofValue value).mapError malformed

/-- The store of a layout over files that are read by path. A missing file holds no package. -/
def store (layout : Layout) (read : Text → Except FileError Text) : MetadataStore := fun package =>
  let path := layout.pathOf package
  match read path with
  | .ok text => layout.index package text
  | .error .notFound => .error (.unitNotFound package)
  | .error error => .error (.unreadable package path error)

end Layout

/-- The store that holds the given metadata. -/
def heldStore (packages : Dictionary Text MetadataIndex) : MetadataStore := fun package =>
  match packages.get? package with
  | some index => .ok index
  | none => .error (.unitNotFound package)

end ArgGuard.Metadata
