import ArgGuard.Batch.Log
import ArgGuard.Batch.Options
import ArgGuard.Files.Glob
import ArgGuard.Metadata.Store

/-!
# Runs

A run processes either the standard input or a batch of files. The files of a batch are taken in
the order of their paths, each once, and each on its own: a file that cannot be read or
processed is left as it is, and the run goes on. Only a result that cannot be written ends it.
-/

namespace ArgGuard.Batch

/-- Why a run ends early: what failed, and the reason if there is one. -/
structure Abort where
  /-- What failed. -/
  message : Text
  /-- The reason. -/
  cause : Option Text
  deriving DecidableEq, Repr

/-- The lines that report why a run ends early. -/
def Abort.lines (a : Abort) : List Text :=
  (("Error: " : Text) ++ a.message) ::
    match a.cause with
    | some cause => [[], "Caused by:", ("    " : Text) ++ cause]
    | none => []

/-- What part of a run has done: what it logged, whether all went well, and whether it ended
early. -/
structure Report where
  /-- The log. -/
  log : List LogLine := []
  /-- Whether every input was processed. -/
  ok : Bool := true
  /-- Why the run ends early. -/
  abort : Option Abort := none
  deriving DecidableEq, Repr

/-- Process one source with the built-in compiler, and log it. -/
def processOne (file source : Text) (store : MetadataStore) : List LogLine × Option Yield :=
  match process ⟨file, store, Schema.compile⟩ source with
  | .ok y =>
    (y.events.map .ofEvent ++ y.diagnostics.map .ofDiagnostic ++ [.processed file y.tags], some y)
  | .error f =>
    (f.events.map .ofEvent ++ f.diagnostics.map .ofDiagnostic ++ [.ofDiagnostic f.fatal], none)

/-- The packages that a source may declare. -/
def declaredPackages (source : Text) : List Text :=
  source.lines.filterMap fun l =>
    match LineKind.ofLine l.body with
    | .package name => some name
    | _ => none

section Files

variable {m : Type → Type} [Monad m] (files : FileAccess m)

/-- The store that a source needs, as its files are at this moment. -/
def storeFor (layout : Metadata.Layout) (source : Text) : m MetadataStore := do
  let read ← files.snapshot ((declaredPackages source).map layout.pathOf)
  return layout.store read

/-- The extensions of source files. -/
def sourceExtensions : List Text := ["pm", "pl"]

/-- The source files directly in a directory. -/
def sourcesIn (directory : Text) : m (Except Abort (List Text)) := do
  match ← files.list directory with
  | .error error =>
    return .error ⟨"failed to read directory: " ++ directory, some error.message⟩
  | .ok names =>
    let candidates := (names.map (Path.join directory)).filter fun path =>
      (Path.extension? path).any sourceExtensions.contains
    return .ok (← candidates.filterM files.isFile)

/-- The files that match a pattern. -/
def matchesOf (pattern : Text) : m (Except Abort (List Text)) := do
  match Glob.Pattern.ofText pattern with
  | .error error =>
    return .error ⟨"invalid glob pattern: " ++ pattern, some error.message⟩
  | .ok parsed => return .ok (← (← parsed.search files).filterM files.isFile)

/-- The files that an argument stands for: itself, the sources in a directory, or the matches of
a pattern, with a warning when there are none. -/
def inputsOf (argument : Text) : m (Except Abort (List Text × List LogLine)) := do
  if ← files.isFile argument then return .ok ([argument], [])
  else if ← files.isDirectory argument then
    return (← sourcesIn files argument).map fun found => (found, [])
  else
    return (← matchesOf files argument).map fun found =>
      (found, if found.isEmpty then [LogLine.unmatched argument] else [])

/-- The files that arguments stand for, and the log; the first failure ends the search. -/
def allInputs : List Text → m (List LogLine × Except Abort (List Text))
  | [] => return ([], .ok [])
  | argument :: rest => do
    match ← inputsOf files argument with
    | .error abort => return ([], .error abort)
    | .ok (found, log) =>
      let (others, result) ← allInputs rest
      return (log ++ others, result.map (found ++ ·))

/-- Put a path at its place in a list in order, instead of an equal path if there is one. -/
def place (path : Text) : List Text → List Text
  | [] => [path]
  | next :: rest =>
    if Path.same path next then path :: rest
    else if Path.le path next then path :: next :: rest
    else next :: place path rest

/-- Paths in their order, each once and in the spelling that came first. -/
def inOrder (paths : List Text) : List Text := paths.foldr place []

/-- The file to which the result for an input is written, if any. -/
def target? (mode : Mode) (path : Text) (modified : Bool) : Except Abort (Option Text) :=
  match mode with
  | .check => .ok none
  | .inPlace => .ok (if modified then some path else none)
  | .into directory =>
    match Path.fileName? path with
    | some name => .ok (some (Path.join directory name))
    | none => .error ⟨"not a file path: " ++ path, none⟩

/-- Write a result where it belongs. -/
def writeResult (mode : Mode) (path source text : Text) : m (Option Abort) := do
  match target? mode path (text ≠ source) with
  | .error abort => return some abort
  | .ok none => return none
  | .ok (some target) =>
    match ← files.write target text with
    | .ok () => return none
    | .error error => return some ⟨"failed to write " ++ target, some error.message⟩

/-- Process one file of a batch. -/
def processFile (layout : Metadata.Layout) (mode : Mode) (path : Text) : m Report := do
  match ← files.read path with
  | .error error => return { log := [.unreadable path error], ok := false }
  | .ok source =>
    let store ← storeFor files layout source
    match processOne path source store with
    | (log, none) => return { log, ok := false }
    | (log, some y) => return { log, abort := ← writeResult files mode path source y.text }

/-- Process the files of a batch in order, until one ends the run. -/
def processFiles (layout : Metadata.Layout) (mode : Mode) : List Text → m Report
  | [] => return {}
  | path :: rest => do
    let first ← processFile files layout mode path
    if first.abort.isSome then return first
    let others ← processFiles layout mode rest
    return ⟨first.log ++ others.log, first.ok && others.ok, others.abort⟩

/-- Make the directory for the results, if they need one. -/
def prepare (mode : Mode) : m (Option Abort) := do
  match mode with
  | .into directory =>
    match ← files.createDirectories directory with
    | .ok () => return none
    | .error error =>
      return some ⟨"failed to create output directory: " ++ directory, some error.message⟩
  | _ => return none

/-- Process a batch of files. -/
def processBatch (layout : Metadata.Layout) (mode : Option Mode) (arguments : List Text) :
    m Report := do
  let some mode := mode
    | return { abort := some ⟨"--output or --in-place is required when files are given", none⟩ }
  if let some abort ← prepare files mode then return { abort := some abort }
  match ← allInputs files arguments with
  | (log, .error abort) => return { log, abort := some abort }
  | (log, .ok paths) =>
    let report ← processFiles files layout mode (inOrder paths)
    return { report with log := log ++ report.log }

/-- Process the standard input; the result is what goes to the standard output. A source that
cannot be processed goes there as it is. -/
def processInput (layout : Metadata.Layout) (mode : Option Mode) (name : Text) (input : Content) :
    m (Report × Text) := do
  match input.read with
  | .error error => return ({ abort := some ⟨"failed to read stdin", some error.message⟩ }, [])
  | .ok source =>
    let store ← storeFor files layout source
    let (log, result) := processOne name source store
    let text := (result.map Yield.text).getD source
    return ({ log, ok := result.isSome }, if mode = some .check then [] else text)

/-- What a run shows and how it ends. -/
structure Outcome where
  /-- The status: zero when every input was processed. -/
  status : Nat
  /-- The text for the standard output. -/
  output : Text
  /-- The lines of the log, and why the run ended early. -/
  log : List Text
  deriving DecidableEq, Repr

/-- How a run with this report ends, and what it shows of its log. -/
def Outcome.ofReport (level : LogLevel) (report : Report) (output : Text) : Outcome :=
  { status := if report.ok && report.abort.isNone then 0 else 1
    output
    log := (LogLine.shown level report.log).map LogLine.text ++
      (report.abort.map Abort.lines).getD [] }

/-- Run with options. A level set from outside wins over the options. -/
def run (options : Options) (level : Option Text) (input : m Content) : m Outcome := do
  let shown := (level.map LogLevel.ofSetting).getD (.ofOptions options.quiet options.verbosity)
  let layout : Metadata.Layout :=
    if ← files.isDirectory options.metadata then .directory options.metadata
    else .file options.metadata
  if options.files.isEmpty then
    let (report, output) ← processInput files layout options.mode options.name (← input)
    return .ofReport shown report output
  else
    return .ofReport shown (← processBatch files layout options.mode options.files) []

end Files

/-- The environment variable that names the metadata when no option does. -/
def metadataVariable : Text := "VALIDATE_INJECT_METADATA"

/-- The environment variable that sets the level of the log. -/
def levelVariable : Text := "RUST_LOG"

end ArgGuard.Batch
