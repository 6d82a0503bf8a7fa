import ArgGuard.Files.Tree

/-!
# Access to files

What a program does to files, as a record of operations in any monad. A file tree held in
memory gives one such record, whose operations are state changes of the tree.
-/

namespace ArgGuard

/-- The operations on files, named by paths. -/
structure FileAccess (m : Type → Type) where
  /-- Whether a path leads to a file. -/
  isFile : Text → m Bool
  /-- Whether a path leads to a directory. -/
  isDirectory : Text → m Bool
  /-- The names in a directory, in any order. -/
  list : Text → m (Except FileError (List Text))
  /-- The text of a file. -/
  read : Text → m (Except FileError Text)
  /-- What reading any of these paths gives at this moment. -/
  snapshot : List Text → m (Text → Except FileError Text)
  /-- Let a file hold a text. -/
  write : Text → Text → m (Except FileError Unit)
  /-- Make a directory and those it lies in. -/
  createDirectories : Text → m (Except FileError Unit)

/-- Change a tree by an operation that may fail; a failure changes nothing. -/
def FileTree.attempt (change : FileTree → Except FileError FileTree) :
    StateM FileTree (Except FileError Unit) := fun tree =>
  match change tree with
  | .ok changed => (.ok (), changed)
  | .error error => (.error error, tree)

/-- The operations on a file tree held in memory. -/
def FileAccess.ofTree : FileAccess (StateM FileTree) where
  isFile path := return (← get).isFile path
  isDirectory path := return (← get).isDirectory path
  list path := return (← get).list path
  read path := return (← get).read path
  snapshot _ := return (← get).read
  write path text := FileTree.attempt fun tree => tree.write path text
  createDirectories path := fun tree =>
    let (changed, result) := tree.createDirectories path
    (result, changed)

end ArgGuard
