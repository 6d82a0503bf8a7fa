import ArgGuard.Text.Basic

/-!
# Options

The command line gives input files and options. An option has a long name, and some have a
letter; letters may be put together behind one dash. A value follows in the same argument or
in the next one, which must not look like an option. No option may be given twice, except the
one for more output, and some exclude each other.
-/

namespace ArgGuard.Batch

/-- The options without a value. -/
inductive Switch where
  /-- Replace the input files by their results. -/
  | inPlace
  /-- Write nothing. -/
  | check
  /-- More log output; may be repeated. -/
  | verbose
  /-- Only log errors. -/
  | quiet
  /-- Show how the program is used. -/
  | help
  deriving DecidableEq, Repr

/-- The options with a value. -/
inductive Setting where
  /-- Where the metadata is. -/
  | metadata
  /-- The directory for the results. -/
  | output
  /-- The name of the standard input in diagnostics. -/
  | name
  deriving DecidableEq, Repr

/-- An option. -/
inductive Opt where
  /-- One without a value. -/
  | switch (switch : Switch)
  /-- One with a value. -/
  | setting (setting : Setting)
  deriving DecidableEq, Repr

namespace Opt

/-- The options by their long names. -/
def byName : List (Text × Opt) :=
  [("metadata", .setting .metadata), ("output", .setting .output), ("name", .setting .name),
   ("in-place", .switch .inPlace), ("check", .switch .check), ("verbose", .switch .verbose),
   ("quiet", .switch .quiet), ("help", .switch .help)]

/-- The options by their letters. -/
def byLetter : List (Char × Opt) :=
  [('m', .setting .metadata), ('o', .setting .output), ('v', .switch .verbose),
   ('q', .switch .quiet), ('h', .switch .help)]

end Opt

/-- What the arguments read so far have given. -/
structure Given where
  /-- The input files, directories and patterns. -/
  files : List Text := []
  /-- Where the metadata is. -/
  metadata : Option Text := none
  /-- The directory for the results. -/
  output : Option Text := none
  /-- The name of the standard input. -/
  name : Option Text := none
  /-- Whether the input files are replaced. -/
  inPlace : Bool := false
  /-- Whether nothing is written. -/
  check : Bool := false
  /-- How often more output was asked for. -/
  verbosity : Nat := 0
  /-- Whether only errors are logged. -/
  quiet : Bool := false
  deriving DecidableEq, Repr

/-- Why the reading of arguments stops. -/
inductive Stop where
  /-- The arguments make no sense. -/
  | misuse
  /-- Help is asked for. -/
  | help
  deriving DecidableEq, Repr

namespace Given

/-- Turn on an option without a value. -/
def turnOn (g : Given) : Switch → Except Stop Given
  | .inPlace => if g.inPlace then .error .misuse else .ok { g with inPlace := true }
  | .check => if g.check then .error .misuse else .ok { g with check := true }
  | .verbose => .ok { g with verbosity := g.verbosity + 1 }
  | .quiet => if g.quiet then .error .misuse else .ok { g with quiet := true }
  | .help => .error .help

/-- Give an option its value. A path must not be empty. -/
def assign (g : Given) (setting : Setting) (value : Text) : Except Stop Given :=
  match setting with
  | .metadata =>
    if g.metadata.isSome || value.isEmpty then .error .misuse
    else .ok { g with metadata := some value }
  | .output =>
    if g.output.isSome || value.isEmpty then .error .misuse
    else .ok { g with output := some value }
  | .name => if g.name.isSome then .error .misuse else .ok { g with name := some value }

end Given

/-- A dash with something behind it looks like an option; a dash alone does not. -/
def looksLikeOption : Text → Bool
  | '-' :: _ :: _ => true
  | _ => false

/-- Cut a long option around its first equals sign. -/
def cutValue (body : Text) : Text × Option Text :=
  match body.dropWhile (· ≠ '=') with
  | _ :: value => (body.takeWhile (· ≠ '='), some value)
  | [] => (body, none)

/-- Read letters put together: either all are options without a value, or one has a value, which
is what follows its letter, if anything does. -/
def readLetters (g : Given) : Text → Except Stop (Given × Option Setting)
  | [] => .ok (g, none)
  | letter :: rest =>
    match Opt.byLetter.lookup letter with
    | none => .error .misuse
    | some (.switch switch) => do readLetters (← g.turnOn switch) rest
    | some (.setting setting) =>
      match rest with
      | [] => .ok (g, some setting)
      | '=' :: value => return (← g.assign setting value, none)
      | value => return (← g.assign setting value, none)

/-- Read a long option, with a value in the same argument or without. -/
def readLong (g : Given) (body : Text) : Except Stop (Given × Option Setting) :=
  let (name, value?) := cutValue body
  match Opt.byName.lookup name, value? with
  | none, _ | some (.switch _), some _ => .error .misuse
  | some (.switch switch), none => return (← g.turnOn switch, none)
  | some (.setting setting), some value => return (← g.assign setting value, none)
  | some (.setting setting), none => .ok (g, some setting)

/-- Read one argument; an option that still lacks its value is returned. -/
def readArgument (g : Given) (argument : Text) : Except Stop (Given × Option Setting) :=
  match argument with
  | '-' :: '-' :: body => readLong g body
  | '-' :: letter :: rest => readLetters g (letter :: rest)
  | file => .ok ({ g with files := g.files ++ [file] }, none)

/-- Read the arguments after those already read. Behind two dashes alone, all are files. -/
def readArguments (g : Given) : List Text → Except Stop Given
  | [] => .ok g
  | argument :: rest =>
    if argument = ['-', '-'] then .ok { g with files := g.files ++ rest }
    else match readArgument g argument with
      | .error stop => .error stop
      | .ok (g, none) => readArguments g rest
      | .ok (g, some setting) =>
        match rest with
        | [] => .error .misuse
        | value :: rest =>
          if looksLikeOption value then .error .misuse
          else match g.assign setting value with
            | .error stop => .error stop
            | .ok g => readArguments g rest

/-- What happens to the results. -/
inductive Mode where
  /-- They replace the input files. -/
  | inPlace
  /-- They go to files in a directory. -/
  | into (directory : Text)
  /-- Nothing is written. -/
  | check
  deriving DecidableEq, Repr

/-- The options of a run. -/
structure Options where
  /-- The input files, directories and patterns; none means the standard input. -/
  files : List Text
  /-- Where the metadata is. -/
  metadata : Text
  /-- What happens to the results, if that is said. -/
  mode : Option Mode
  /-- The name of the standard input in diagnostics. -/
  name : Text
  /-- How often more output was asked for. -/
  verbosity : Nat
  /-- Whether only errors are logged. -/
  quiet : Bool
  deriving DecidableEq, Repr

/-- What happens to the results; two wishes exclude each other. -/
def Given.mode (g : Given) : Except Stop (Option Mode) :=
  match g.inPlace, g.output, g.check with
  | false, none, false => .ok none
  | true, none, false => .ok (some .inPlace)
  | false, some directory, false => .ok (some (.into directory))
  | false, none, true => .ok (some .check)
  | _, _, _ => .error .misuse

/-- The options that arguments give, with a place of the metadata to fall back on. -/
def Options.ofArguments (fallback : Option Text) (arguments : List Text) : Except Stop Options := do
  let g ← readArguments {} arguments
  let mode ← g.mode
  if g.quiet && g.verbosity ≠ 0 then throw .misuse
  match g.metadata.or fallback with
  | none | some [] => throw .misuse
  | some metadata =>
    return {
      files := g.files
      metadata
      mode
      name := g.name.getD "<stdin>"
      verbosity := g.verbosity
      quiet := g.quiet }

end ArgGuard.Batch
