import ArgGuard.Diagnostic
import ArgGuard.Guard
import ArgGuard.LineKind
import ArgGuard.Text.Line

/-!
# Scanning a source

A source is scanned line by line. From line to line the scan carries the region it is in, the
package with its metadata, and the sub with what its tags have checked so far. Each line yields
a text, mostly its own; a tag in code gets its guard put in front of it on the same line, so
the lines of a source keep their number and their order. The first fatal condition ends the
scan without any text.
-/

namespace ArgGuard

/-- Where a line stands. -/
inductive Region where
  /-- In code. -/
  | code
  /-- In a documentation block. -/
  | doc
  /-- Behind the end of the code. -/
  | data
  deriving DecidableEq, Repr

/-- A package with its metadata. -/
structure Package where
  /-- Its name. -/
  name : Text
  /-- Its functions. -/
  index : MetadataIndex

/-- A sub with what its tags have done so far. -/
structure Sub where
  /-- Its name. -/
  name : Text
  /-- The line of its declaration. -/
  line : Nat
  /-- Its metadata, if the package has any for it. -/
  metadata : Option FunctionMetadata
  /-- The arguments that are checked. -/
  validated : List Text := []
  /-- Whether there was a tag for all arguments. -/
  sawAll : Bool := false
  /-- Whether the error variable is declared. -/
  declared : Bool := false

/-- What a scan carries from line to line. -/
structure Scan where
  /-- The region. -/
  region : Region := .code
  /-- The package, once one is declared. -/
  package : Option Package := none
  /-- The sub, once one is declared in the package. -/
  sub : Option Sub := none

/-- A step of a scan that a log may show. -/
inductive Event where
  /-- A documentation block starts. -/
  | docOpened (line : Nat)
  /-- A documentation block ends. -/
  | docClosed (line : Nat)
  /-- The metadata of a package was found. -/
  | packageLoaded (package : Text) (functions : Nat)
  /-- A sub starts, with or without metadata. -/
  | subEntered (package sub : Text) (resolved : Bool)
  /-- A tag got its guard. -/
  | guardInserted (line : Nat) (sub : Text) (arguments : List Text)
  deriving DecidableEq, Repr

/-- What lines of a source yield. -/
structure Yield where
  /-- The text that replaces the lines. -/
  text : Text := []
  /-- How many tags got a guard. -/
  tags : Nat := 0
  /-- Notices and warnings, in order. -/
  diagnostics : List Diagnostic := []
  /-- The steps, in order. -/
  events : List Event := []
  deriving DecidableEq, Repr

/-- What lines yield after other lines. -/
def Yield.append (a b : Yield) : Yield :=
  ⟨a.text ++ b.text, a.tags + b.tags, a.diagnostics ++ b.diagnostics, a.events ++ b.events⟩

instance : Append Yield := ⟨Yield.append⟩

@[simp] theorem Yield.text_append (a b : Yield) : (a ++ b).text = a.text ++ b.text := rfl

@[simp] theorem Yield.tags_append (a b : Yield) : (a ++ b).tags = a.tags + b.tags := rfl

@[simp] theorem Yield.diagnostics_append (a b : Yield) :
    (a ++ b).diagnostics = a.diagnostics ++ b.diagnostics := rfl

@[simp] theorem Yield.events_append (a b : Yield) : (a ++ b).events = a.events ++ b.events := rfl

/-- Yields of consecutive lines may be put together in any grouping. -/
theorem Yield.append_assoc (a b c : Yield) : a ++ b ++ c = a ++ (b ++ c) := by
  change Yield.append (Yield.append a b) c = Yield.append a (Yield.append b c)
  simp [Yield.append, Nat.add_assoc]

/-- Lines that yield nothing change nothing. -/
theorem Yield.empty_append (a : Yield) : ({} : Yield) ++ a = a := by
  change Yield.append {} a = a
  simp [Yield.append]

/-- Further lines that yield nothing change nothing. -/
theorem Yield.append_empty (a : Yield) : a ++ ({} : Yield) = a := by
  change Yield.append a {} = a
  simp [Yield.append]

/-- Why a source was not processed. -/
structure ScanFailure where
  /-- The fatal condition. -/
  fatal : Diagnostic
  /-- The notices and warnings before it. -/
  diagnostics : List Diagnostic := []
  /-- The steps before it. -/
  events : List Event := []
  deriving DecidableEq, Repr

/-- A failure after lines that yielded something. -/
def ScanFailure.after (y : Yield) (f : ScanFailure) : ScanFailure :=
  { f with diagnostics := y.diagnostics ++ f.diagnostics, events := y.events ++ f.events }

/-- A failure after some lines and others before them is one after all of them. -/
theorem ScanFailure.after_after (a b : Yield) (f : ScanFailure) :
    (f.after b).after a = f.after (a ++ b) := by
  change (f.after b).after a = f.after (Yield.append a b)
  simp [ScanFailure.after, Yield.append]

/-- What a scan works with. -/
structure ScanSetting where
  /-- The name of the source. -/
  file : Text
  /-- Where packages have their metadata. -/
  store : MetadataStore
  /-- What turns schemas into code. -/
  compiler : SchemaCompiler

namespace Scan

/-- The notices due where a sub ends: its required arguments that no tag checks. -/
def closingNotices (file : Text) (sub : Option Sub) : List Diagnostic :=
  match sub with
  | some { name, line, metadata := some m, validated, .. } =>
    (m.requiredArgs.filter fun argument => !validated.contains argument).map fun argument =>
      { severity := .notice
        file
        line := some line
        message :=
          "argument '" ++ argument ++ "' of sub '" ++ name ++ "' is required but not validated" }
  | _ => []

/-- A warning that leaves a line as it is. -/
def unchanged (file : Text) (line : Nat) (reason : Text) : Diagnostic :=
  ⟨.warning, file, some line, reason ++ "; line left unchanged"⟩

/-- The guard for a tag in a sub with metadata. A sub has at most one tag for all arguments. -/
def guardFor (compiler : SchemaCompiler) (sub : Sub) (m : FunctionMetadata) (tag : Tag) :
    Except GuardError Guard :=
  match tag.scope with
  | .single => Guard.single compiler sub.name m tag sub.declared
  | .all =>
    if sub.sawAll then .error (.duplicateAll sub.name)
    else Guard.all compiler sub.name m tag sub.declared

/-- A sub after a tag got its guard. -/
def subAfter (sub : Sub) (tag : Tag) (guard : Guard) : Sub :=
  { sub with
    validated := sub.validated ++ guard.validated
    sawAll := sub.sawAll || tag.scope = .all
    declared := sub.declared || !guard.code.isEmpty }

/-- Enter a package: the sub before it ends, and its metadata must be found. -/
def enterPackage (setting : ScanSetting) (scan : Scan) (number : Nat) (line : Line)
    (name : Text) : Except ScanFailure (Scan × Yield) :=
  let notices := closingNotices setting.file scan.sub
  match setting.store name with
  | .error error =>
    .error {
      fatal := ⟨.fatal, setting.file, some number,
        "cannot load metadata for package '" ++ name ++ "': " ++ error.message⟩
      diagnostics := notices }
  | .ok index =>
    .ok ({ scan with package := some ⟨name, index⟩, sub := none },
      { text := line.text
        diagnostics := notices
        events := [.packageLoaded name index.length] })

/-- Enter a sub: the sub before it ends, and it must be in a package. -/
def enterSub (setting : ScanSetting) (scan : Scan) (number : Nat) (line : Line)
    (name : Text) : Except ScanFailure (Scan × Yield) :=
  let notices := closingNotices setting.file scan.sub
  match scan.package with
  | none =>
    .error {
      fatal := ⟨.fatal, setting.file, some number,
        "sub '" ++ name ++ "' is declared outside of any package"⟩
      diagnostics := notices }
  | some package =>
    let metadata := package.index.get? name
    .ok ({ scan with sub := some { name, line := number, metadata } },
      { text := line.text
        diagnostics := notices
        events := [.subEntered package.name name metadata.isSome] })

/-- Put the guard of a tag in front of it, in a sub with metadata. -/
def insertGuard (setting : ScanSetting) (scan : Scan) (number : Nat) (line : Line) (tag : Tag) :
    Except ScanFailure (Scan × Yield) :=
  let skip (reason : Text) : Except ScanFailure (Scan × Yield) :=
    .ok (scan,
      { text := line.text, diagnostics := [unchanged setting.file number reason] })
  match scan.sub with
  | none => skip (Text.trimBlanksEnd tag.comment ++ " outside of any sub")
  | some sub =>
    match sub.metadata with
    | none => skip ("no metadata for sub '" ++ sub.name ++ "'")
    | some m =>
      match guardFor setting.compiler sub m tag with
      | .error error =>
        .error { fatal := ⟨.fatal, setting.file, some number, error.message⟩ }
      | .ok guard =>
        .ok ({ scan with sub := some (subAfter sub tag guard) },
          { text := tag.lead ++ guard.code ++ tag.comment ++ line.ending.text
            tags := 1
            events := [.guardInserted number sub.name guard.validated] })

/-- Scan one line. -/
def step (setting : ScanSetting) (scan : Scan) (number : Nat) (line : Line) :
    Except ScanFailure (Scan × Yield) :=
  match scan.region with
  | .data => .ok (scan, { text := line.text })
  | .doc =>
    if LineKind.closesDoc line.body then
      .ok ({ scan with region := .code },
        { text := line.text, events := [.docClosed number] })
    else .ok (scan, { text := line.text })
  | .code =>
    match LineKind.ofLine line.body with
    | .docOpen =>
      .ok ({ scan with region := .doc }, { text := line.text, events := [.docOpened number] })
    | .docClose | .other => .ok (scan, { text := line.text })
    | .endOfCode =>
      .ok ({ scan with region := .data, sub := none },
        { text := line.text, diagnostics := closingNotices setting.file scan.sub })
    | .package name => enterPackage setting scan number line name
    | .function name => enterSub setting scan number line name
    | .tag tag => insertGuard setting scan number line tag

/-- Scan lines, the first of which has the given number. -/
def run (setting : ScanSetting) (scan : Scan) (number : Nat) :
    List Line → Except ScanFailure (Scan × Yield)
  | [] => .ok (scan, {})
  | line :: rest =>
    match step setting scan number line with
    | .error failure => .error failure
    | .ok (next, y) =>
      match run setting next (number + 1) rest with
      | .error failure => .error (failure.after y)
      | .ok (last, ys) => .ok (last, y ++ ys)

/-- The scan of lines and further ones goes on from where it is after the first lines. -/
theorem run_append (setting : ScanSetting) (scan : Scan) (number : Nat)
    (first others : List Line) :
    run setting scan number (first ++ others) =
      match run setting scan number first with
      | .error failure => .error failure
      | .ok (next, y) =>
        match run setting next (number + first.length) others with
        | .error failure => .error (failure.after y)
        | .ok (last, ys) => .ok (last, y ++ ys) := by
  induction first generalizing scan number with
  | nil =>
    simp only [List.nil_append, run, List.length_nil, Nat.add_zero]
    split
    next failure h => simp [h, ScanFailure.after]
    next last ys h => simp [h, Yield.empty_append]
  | cons line rest ih =>
    simp only [List.cons_append, run, List.length_cons]
    cases step setting scan number line with
    | error failure => rfl
    | ok result =>
      obtain ⟨next, y⟩ := result
      simp only [ih]
      cases run setting next (number + 1) rest with
      | error failure => rfl
      | ok result =>
        obtain ⟨middle, ys⟩ := result
        simp only [Nat.add_comm rest.length 1, ← Nat.add_assoc]
        cases run setting middle (number + 1 + rest.length) others with
        | error failure => simp [ScanFailure.after_after]
        | ok result => simp [Yield.append_assoc]

end Scan

/-- Process a source: put a guard in front of every tag in a sub with metadata. -/
def process (setting : ScanSetting) (source : Text) : Except ScanFailure Yield :=
  match Scan.run setting {} 1 source.lines with
  | .error failure => .error failure
  | .ok (scan, y) => .ok (y ++ { diagnostics := Scan.closingNotices setting.file scan.sub })

end ArgGuard
