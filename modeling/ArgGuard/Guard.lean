import ArgGuard.Metadata.Basic
import ArgGuard.Schema.Compiler
import ArgGuard.Text.Squash

/-!
# Guards

A guard is the code that a tag asks for, on one line. It is a list of statements: for each
argument a check that it was passed, if it is required, and the code of its schema with a check
of the error variable. The variable is declared once in a function, before its first use. A
check that an argument was passed comes before the code of its schema, so a missing argument
never gets there.
-/

namespace ArgGuard

/-- Why a tag cannot be honoured. -/
inductive GuardError where
  /-- The metadata is of another version. -/
  | unsupportedVersion (function : Text) (found : Double)
  /-- The arguments cannot be addressed by name. -/
  | unsupportedPacking (function : Text) (packing : Packing)
  /-- The argument is not declared. -/
  | unknownArgument (function argument : Text)
  /-- The argument has no schema. -/
  | missingSchema (function argument : Text)
  /-- The variable is of the wrong kind for the tag. -/
  | wrongVariable (scope : Tag.Scope) (expected : Sigil) (found : Text)
  /-- A tag for all arguments names one. -/
  | explicitNameOnAll (name : Text)
  /-- A function has a second tag for all arguments. -/
  | duplicateAll (function : Text)
  /-- The schema of an argument does not compile. -/
  | schema (argument : Text) (error : CompileError)
  deriving DecidableEq, Repr

/-- The words that report why a tag cannot be honoured. -/
def GuardError.message : GuardError → Text
  | unsupportedVersion function found =>
    "unsupported metadata version " ++ found.plain ++ " for sub '" ++ function ++ "' (only " ++
      FunctionMetadata.supportedVersion.plain ++ " is supported)"
  | unsupportedPacking function packing =>
    "sub '" ++ function ++ "' packs its arguments as '" ++ packing.name ++ "'; only '" ++
      Packing.hash.name ++ "' and '" ++ Packing.hashRef.name ++ "' are supported"
  | unknownArgument function argument =>
    "argument '" ++ argument ++ "' is not declared in the metadata of sub '" ++ function ++ "'"
  | missingSchema function argument =>
    "argument '" ++ argument ++ "' of sub '" ++ function ++ "' has no schema"
  | wrongVariable scope expected found =>
    scope.keyword ++ " needs a '" ++ [expected.char] ++ "' variable, found '" ++ found ++ "'"
  | explicitNameOnAll name =>
    Tag.Scope.all.keyword ++ " does not take an argument name (got '" ++ name ++ "')"
  | duplicateAll function =>
    "more than one " ++ Tag.Scope.all.keyword ++ " in sub '" ++ function ++ "'"
  | schema argument error =>
    "cannot compile schema for argument '" ++ argument ++ "': " ++ error.message

namespace Guard

/-- The variable that holds the error message within a function. -/
def errorHolder : Text := "$arg_err"

/-- The status that is returned with the message of a failure. -/
def failureStatus : Nat := 400

/-- How a function is left on a failure. -/
inductive Exit where
  /-- By raising the message. -/
  | raise
  /-- By returning a status and the message. -/
  | status
  deriving DecidableEq, Repr

/-- How a function is left, as its metadata tells. -/
def Exit.ofMetadata (m : FunctionMetadata) : Exit := if m.naked then raise else status

/-- The statement that leaves the function with a message. -/
def Exit.leave (exit : Exit) (message : Text) : Text :=
  match exit with
  | raise => "die " ++ message ++ ";"
  | status => "return [" ++ Text.ofNat failureStatus ++ ", " ++ message ++ "];"

/-- A statement of a guard. -/
inductive Statement where
  /-- Declare the error variable. -/
  | declareHolder
  /-- Leave with a message when a condition holds. -/
  | leaveIf (condition message : Text)
  /-- Run the code of a schema. -/
  | run (code : Text)
  deriving DecidableEq, Repr

/-- The text of a statement. -/
def Statement.text (exit : Exit) : Statement → Text
  | declareHolder => "my " ++ errorHolder ++ ";"
  | leaveIf condition message =>
    "if (" ++ condition ++ ") \x7b " ++ exit.leave message ++ " \x7d"
  | run code => code

/-- Statements on one line, each with a space behind it. -/
def render (exit : Exit) (statements : List Statement) : Text :=
  statements.flatMap fun s => s.text exit ++ [' ']

/-- An argument to be checked. -/
structure Target where
  /-- Its name. -/
  name : Text
  /-- What is declared about it. -/
  spec : ArgSpec
  /-- The expression for its value. -/
  data : Text
  /-- The expression that is true when it was not passed. -/
  missing : Text

/-- The check that a required argument was passed. -/
def presence (t : Target) : List Statement :=
  if t.spec.required then
    [.leaveIf t.missing (Text.quoted ("Missing required argument '" ++ t.name ++ "'"))]
  else []

/-- The request to compile the schema of an argument. -/
def request (t : Target) (schema : Json.Value) : CompileRequest :=
  { schema, errTerm := errorHolder, dataTerm := t.data, dataName := t.name, returnKind := .str }

/-- The code of a schema with the check of the error variable, unless there is no code. -/
def conformance (t : Target) (code : Text) : List Statement :=
  if code.isEmpty then []
  else
    [.run code,
     .leaveIf errorHolder
      (Text.quoted ("Invalid value for argument '" ++ t.name ++ "': ") ++ " . " ++ errorHolder)]

/-- The checks of one argument. -/
def block (compiler : SchemaCompiler) (t : Target) : Except GuardError (List Statement) :=
  match t.spec.schema with
  | none => .ok (presence t)
  | some schema =>
    match compiler (request t schema) with
    | .error error => .error (.schema t.name error)
    | .ok code => .ok (presence t ++ conformance t (Text.squash code))

/-- The checks of arguments in order. The error variable is declared in front of the first
checks, unless it is declared already. -/
def blocks (compiler : SchemaCompiler) (declared : Bool) :
    List Target → Except GuardError (List Statement)
  | [] => .ok []
  | t :: rest => do
    let checks ← block compiler t
    let others ← blocks compiler (declared || !checks.isEmpty) rest
    let opening := if checks.isEmpty || declared then [] else [Statement.declareHolder]
    return opening ++ checks ++ others

end Guard

/-- The code for a tag and the arguments that it checks. -/
structure Guard where
  /-- The code, on one line. -/
  code : Text
  /-- The names of the checked arguments, in order. -/
  validated : List Text
  deriving DecidableEq, Repr

namespace Guard

/-- The guard that checks arguments in order. -/
def ofTargets (compiler : SchemaCompiler) (exit : Exit) (declared : Bool)
    (targets : List Target) : Except GuardError Guard := do
  let statements ← blocks compiler declared targets
  return ⟨render exit statements, targets.map Target.name⟩

/-- Only metadata of the supported version and packing styles is used. -/
def checkMetadata (function : Text) (m : FunctionMetadata) : Except GuardError Unit :=
  if !m.hasSupportedVersion then .error (.unsupportedVersion function m.version)
  else if !m.packing.isSupported then .error (.unsupportedPacking function m.packing)
  else .ok ()

/-- The expression for one argument inside the variable that holds all of them. -/
def elementTerm (packing : Packing) (name key : Text) : Text :=
  let subscript := if Identifier.isBareword key then key else Text.quoted key
  let arrow : Text := if packing = .hashRef then "->" else ""
  '$' :: name ++ arrow ++ '\x7b' :: subscript ++ ['\x7d']

/-- The argument that is bound to a variable of its own. -/
def boundTarget (variableName argument : Text) (spec : ArgSpec) : Target :=
  let term : Text := '$' :: variableName
  ⟨argument, spec, term, "!defined(" ++ term ++ ")"⟩

/-- An argument inside the variable that holds all of them. -/
def elementTarget (packing : Packing) (variableName argument : Text) (spec : ArgSpec) : Target :=
  let term := elementTerm packing variableName argument
  ⟨argument, spec, term, "!exists(" ++ term ++ ")"⟩

/-- The guard for a tag on one argument. -/
def single (compiler : SchemaCompiler) (function : Text) (m : FunctionMetadata) (tag : Tag)
    (declared : Bool) : Except GuardError Guard := do
  checkMetadata function m
  if tag.sigil ≠ .scalar then throw (.wrongVariable .single .scalar tag.declared)
  let argument := tag.argumentName
  let some spec := m.args.get? argument | throw (.unknownArgument function argument)
  if spec.schema.isNone then throw (.missingSchema function argument)
  ofTargets compiler (.ofMetadata m) declared [boundTarget tag.name argument spec]

/-- The guard for a tag on all arguments, in declared order. -/
def all (compiler : SchemaCompiler) (function : Text) (m : FunctionMetadata) (tag : Tag)
    (declared : Bool) : Except GuardError Guard := do
  checkMetadata function m
  if let some name := tag.explicit then throw (.explicitNameOnAll name)
  if tag.sigil ≠ m.packing.aggregate then
    throw (.wrongVariable .all m.packing.aggregate tag.declared)
  ofTargets compiler (.ofMetadata m) declared
    (m.args.map fun (argument, spec) => elementTarget m.packing tag.name argument spec)

end Guard

end ArgGuard
