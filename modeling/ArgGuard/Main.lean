import ArgGuard.Batch.Run

/-!
# The command line

The program on the files of the system: arguments, environment and standard streams go to a run,
and what the run returns is shown.
-/

namespace ArgGuard.Disk

/-- The entry of a path, which is followed from the working directory. -/
def entry (path : Text) : IO.FS.DirEntry := { root := ".", fileName := String.ofList path }

/-- The number of a system error, which may come with its sign turned. -/
def errorNumber (code : UInt32) : UInt32 := min code (0 - code)

/-- The file error that a system error stands for. -/
def fileError (error : IO.Error) : FileError :=
  let unknown := FileError.other error.toString.toList
  match error with
  | .noFileOrDirectory _ code _ | .noSuchThing _ code _ =>
    if errorNumber code = 2 then .notFound else unknown
  | .alreadyExists _ code _ => if errorNumber code = 17 then .alreadyExists else unknown
  | .inappropriateType _ code _ =>
    if errorNumber code = 20 then .notDirectory
    else if errorNumber code = 21 then .isDirectory
    else unknown
  | _ => unknown

/-- The result of an action on files, or the file error it ends with. -/
def attempt {α : Type} (action : IO α) : IO (Except FileError α) := do
  try return .ok (← action)
  catch error => return .error (fileError error)

/-- Whether a path leads to an entry of some kind. -/
def leadsTo (kind : IO.FS.FileType → Bool) (path : Text) : IO Bool := do
  if path.isEmpty then return false
  match ← attempt (entry path).path.metadata with
  | .ok data => return kind data.type
  | .error _ => return false

/-- The content of bytes that were read. -/
def contentOf (bytes : ByteArray) : Content := .ofBytes bytes.toList

/-- The text of a file. -/
def read (path : Text) : IO (Except FileError Text) := do
  if path.contains (Char.ofNat 0) then return .error .nullInPath
  match ← attempt (IO.FS.readBinFile (String.ofList path)) with
  | .ok bytes => return (contentOf bytes).read
  | .error error => return .error error

/-- Make the directory of a path and those that it lies in, given the components of the path, last
one first. -/
def makeDirectories (path : Text) : List Path.Component → IO (Except FileError Unit)
  | [] => return .ok ()
  | _ :: above => do
    let make := attempt (IO.FS.createDir (String.ofList path))
    let settle (error : FileError) : IO (Except FileError Unit) := do
      if ← leadsTo (fun | .dir => true | _ => false) path then return .ok ()
      else return .error error
    match ← make with
    | .ok () => return .ok ()
    | .error .notFound =>
      match ← makeDirectories (Path.ofComponents above.reverse) above with
      | .error error => return .error error
      | .ok () =>
        match ← make with
        | .ok () => return .ok ()
        | .error error => settle error
    | .error error => settle error

/-- The operations on the files of the system. -/
def access : FileAccess IO where
  isFile := leadsTo fun | .file => true | _ => false
  isDirectory := leadsTo fun | .dir => true | _ => false
  list path := do
    let entries ← attempt (entry path).path.readDir
    return entries.map fun found => found.toList.map fun e => e.fileName.toList
  read := read
  snapshot paths := do
    let contents ← paths.mapM fun path => return (path, ← read path)
    return fun path => (Dictionary.get? contents path).getD (.error .notFound)
  write path text := attempt (IO.FS.writeFile (String.ofList path) (String.ofList text))
  createDirectories path := makeDirectories path (Path.components path).reverse

/-- A variable of the environment. -/
def environment (name : Text) : IO (Option Text) :=
  return (← IO.getEnv (String.ofList name)).map String.toList

/-- How the program is used. -/
def usage : String :=
  "Usage: arg-guard [OPTIONS] --metadata <METADATA> [FILES]...\n" ++
  "\n" ++
  "  -m, --metadata <METADATA>  Function metadata: a file or a directory\n" ++
  "  -o, --output <OUTPUT>      Directory for the results\n" ++
  "      --in-place             Replace the input files by their results\n" ++
  "      --check                Report diagnostics only; write nothing\n" ++
  "      --name <NAME>          Name of the standard input in diagnostics\n" ++
  "  -v, --verbose...           More log output; may be repeated\n" ++
  "  -q, --quiet                Only log errors\n" ++
  "  -h, --help                 Print help"

end ArgGuard.Disk

open ArgGuard in
/-- Run with the arguments of the command line; the status tells how the run ended. -/
def main (arguments : List String) : IO UInt32 := do
  let fallback ← Disk.environment Batch.metadataVariable
  match Batch.Options.ofArguments fallback (arguments.map String.toList) with
  | .error .misuse => do
    IO.eprintln Disk.usage
    return 2
  | .error .help => do
    IO.println Disk.usage
    return 0
  | .ok options => do
    let level ← Disk.environment Batch.levelVariable
    let input := do return Disk.contentOf (← (← IO.getStdin).readBinToEnd)
    let outcome ← Batch.run Disk.access options level input
    for line in outcome.log do IO.eprintln (String.ofList line)
    IO.print (String.ofList outcome.output)
    return outcome.status.toUInt32
