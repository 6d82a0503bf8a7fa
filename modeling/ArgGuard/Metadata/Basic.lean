import ArgGuard.Files.Error
import ArgGuard.Json.Fault
import ArgGuard.Tag

/-!
# Function metadata

What is known about the functions of a package: the arguments each takes, in the order in which
they were declared, how the function receives them and how it reports a failure.
-/

namespace ArgGuard

/-- How a function receives its arguments. -/
inductive Packing where
  /-- As a list of names and values. -/
  | hash
  /-- As a reference to a hash. -/
  | hashRef
  /-- As a list of values. -/
  | array
  /-- As a reference to an array. -/
  | arrayRef
  deriving DecidableEq, Repr

namespace Packing

/-- The name of a packing style. -/
def name : Packing → Text
  | hash => "hash"
  | hashRef => "hashref"
  | array => "array"
  | arrayRef => "arrayref"

/-- The packing styles in the order in which reports list them. -/
def all : List Packing := [hash, hashRef, array, arrayRef]

/-- The packing style of a name. -/
def ofName (text : Text) : Except Json.Fault Packing :=
  match all.find? fun p => p.name = text with
  | some p => .ok p
  | none => .error (.unknownName text (all.map name))

/-- Each style is read by its name. -/
theorem ofName_name (p : Packing) : ofName p.name = .ok p := by cases p <;> rfl

/-- Only the two hash styles address an argument by its name. -/
def isSupported : Packing → Bool
  | hash | hashRef => true
  | array | arrayRef => false

/-- The kind of variable that holds all arguments. -/
def aggregate : Packing → Sigil
  | hash => .hash
  | array => .array
  | hashRef | arrayRef => .scalar

end Packing

/-- What is declared about one argument. -/
structure ArgSpec where
  /-- The schema its value must fit, if there is one. -/
  schema : Option Json.Value := none
  /-- Whether it must be passed. -/
  required : Bool := false
  deriving Repr

/-- What is declared about one function. -/
structure FunctionMetadata where
  /-- The version of the declaration. -/
  version : Double := Double.ofInt 1
  /-- The arguments by name, in declared order. -/
  args : Dictionary Text ArgSpec := []
  /-- How the arguments are received. -/
  packing : Packing := .hash
  /-- A failure is raised instead of returned with a status. -/
  naked : Bool := false
  /-- No argument is declared twice. -/
  distinct : (Dictionary.keys args).Nodup := by decide
  deriving Repr

namespace FunctionMetadata

/-- The only version that is understood is the double nearest to 1.1. -/
def supportedVersion : Double := (Double.ofFraction? false 11 10).getD (Double.zero false)

/-- Whether the declaration is of the supported version. -/
def hasSupportedVersion (m : FunctionMetadata) : Bool := m.version = supportedVersion

/-- The names of the required arguments, in declared order. -/
def requiredArgs (m : FunctionMetadata) : List Text :=
  (m.args.filter fun (_, spec) => spec.required).map Prod.fst

/-- A required argument is one that is declared as required. -/
theorem mem_requiredArgs_iff {m : FunctionMetadata} {argument : Text} :
    argument ∈ m.requiredArgs ↔ ∃ spec, (argument, spec) ∈ m.args ∧ spec.required := by
  simp [requiredArgs]

/-- Required arguments are declared arguments. -/
theorem mem_keys_of_mem_requiredArgs {m : FunctionMetadata} {argument : Text}
    (h : argument ∈ m.requiredArgs) : argument ∈ Dictionary.keys m.args := by
  obtain ⟨spec, hmem, -⟩ := mem_requiredArgs_iff.1 h
  exact List.mem_map.2 ⟨_, hmem, rfl⟩

/-- No argument is required twice. -/
theorem nodup_requiredArgs (m : FunctionMetadata) : m.requiredArgs.Nodup :=
  m.distinct.sublist (List.filter_sublist.map Prod.fst)

end FunctionMetadata

/-- The functions of a package by name, in declared order. -/
abbrev MetadataIndex := Dictionary Text FunctionMetadata

/-- Why the metadata of a package cannot be had. -/
inductive MetadataError where
  /-- There is none. -/
  | unitNotFound (package : Text)
  /-- Its file cannot be read. -/
  | unreadable (package path : Text) (error : FileError)
  /-- Its text is not the JSON that is expected. -/
  | malformed (package : Text) (fault : Json.Fault)
  deriving DecidableEq, Repr

/-- The words that report a metadata error. -/
def MetadataError.message : MetadataError → Text
  | unitNotFound package => "no metadata for unit '" ++ package ++ "'"
  | unreadable package path error =>
    "failed to read metadata for unit '" ++ package ++ "' from " ++ path ++ ": " ++ error.message
  | malformed package fault =>
    "malformed metadata for unit '" ++ package ++ "': " ++ fault.message

/-- A store tells the metadata of a package. -/
abbrev MetadataStore := Text → Except MetadataError MetadataIndex

end ArgGuard
