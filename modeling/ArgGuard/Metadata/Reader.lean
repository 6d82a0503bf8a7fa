import ArgGuard.Metadata.Record

/-!
# Reading metadata

The metadata of a package is a JSON object from function names to records. It is read straight
from its text, or from the value of one member of a larger object.
-/

namespace ArgGuard.Metadata

open Json

/-- Read a truth value. -/
def readBool : Outline → Except Fault Bool
  | .scalar (.bool b) => .ok b
  | o => .error (Outline.mismatch "a boolean" o.found)

/-- Read a truth value from a value. -/
def boolOfValue : Value → Except Fault Bool
  | .bool b => .ok b
  | v => .error (.wrongType (Found.ofValue v) "a boolean")

/-- Read a number. -/
def readDouble : Outline → Except Fault Double
  | .scalar (.number n) => n.map Number.toDouble
  | o => .error (Outline.mismatch "f64" o.found)

/-- Read a number from a value. -/
def doubleOfValue : Value → Except Fault Double
  | .number n => .ok n.toDouble
  | v => .error (.wrongType (Found.ofValue v) "f64")

/-- Read any value, where a null means that there is none. -/
def readOptional (depth : Nat) : Outline → Except Fault (Option Value)
  | .scalar .null => .ok none
  | o => return some (← o.value depth)

/-- A value, where a null means that there is none. -/
def optionalOfValue : Value → Option Value
  | .null => none
  | v => some v

/-- Accept a null and nothing else. -/
def readNull : Outline → Except Fault Unit
  | .scalar .null => .ok ()
  | o => .error (Outline.mismatch "unit" o.found)

end ArgGuard.Metadata

namespace ArgGuard

open Json Metadata

namespace Packing

/-- Read a packing style: its name, or an object with the name as only member, set to null. -/
def read (depth : Nat) : Outline → Except Fault Packing
  | .scalar (.string name) => do Packing.ofName (← name)
  | .broken (some '"') gap => .error gap.fault
  | .broken none gap => .error gap.fault
  | .object members ending =>
    match depth, members, ending with
    | 0, _, _ => .error .tooDeep
    | _, (name, o) :: more, ending => do
      let packing ← Packing.ofName (← name)
      readNull o
      match more, ending with
      | [], .closed => return packing
      | [], .unfinished => throw .endInObject
      | _, _ => throw .valueExpected
    | _, [], .unfinished => .error .endInValue
    | _, [], .nameMissing found => .error (Outline.mismatch "variant identifier" found)
    | _, [], .nameBroken gap => .error gap.fault
    | _, [], .colonMissing name atEnd => do
      let _ ← Packing.ofName (← name)
      throw (colonFault atEnd)
    | _, [], _ => .error .valueExpected
  | _ => .error .valueExpected

/-- Read a packing style from a value. -/
def ofValue : Value → Except Fault Packing
  | .string name => Packing.ofName name
  | .object [(name, v)] => do
    let packing ← Packing.ofName name
    match v with
    | .null => return packing
    | v => throw (.wrongType (Found.ofValue v) "unit")
  | .object _ => .error .singleMemberExpected
  | v => .error (.wrongType (Found.ofValue v) "string or map")

end Packing

namespace ArgSpec

/-- The fields of what is declared about an argument. -/
def fields : List (RecordField ArgSpec) :=
  [{ name := "schema"
     otherName := none
     ofOutline := fun depth o spec => return { spec with schema := ← readOptional depth o }
     ofValue := fun v spec => return { spec with schema := optionalOfValue v } },
   { name := "req"
     otherName := some "required"
     ofOutline := fun _ o spec => return { spec with required := ← readBool o }
     ofValue := fun v spec => return { spec with required := ← boolOfValue v } }]

/-- Read what is declared about an argument. -/
def read : Nat → Outline → Except Fault ArgSpec :=
  RecordField.readOutline fields "struct ArgSpec" {}

/-- Read what is declared about an argument from a value. -/
def ofValue : Value → Except Fault ArgSpec := RecordField.readValue fields "struct ArgSpec" {}

end ArgSpec

namespace FunctionMetadata

/-- The fields of what is declared about a function. -/
def fields : List (RecordField FunctionMetadata) :=
  [{ name := "v"
     otherName := none
     ofOutline := fun _ o m => return { m with version := ← readDouble o }
     ofValue := fun v m => return { m with version := ← doubleOfValue v } },
   { name := "args"
     otherName := none
     ofOutline := fun depth o m =>
      match h : readDictionary ArgSpec.read depth o with
      | .ok args => .ok { m with args, distinct := nodup_keys_readDictionary h }
      | .error fault => .error fault
     ofValue := fun v m =>
      match h : readDictionaryValue ArgSpec.ofValue v with
      | .ok args => .ok { m with args, distinct := nodup_keys_readDictionaryValue h }
      | .error fault => .error fault },
   { name := "args_as"
     otherName := none
     ofOutline := fun depth o m => return { m with packing := ← Packing.read depth o }
     ofValue := fun v m => return { m with packing := ← Packing.ofValue v } },
   { name := "result_naked"
     otherName := none
     ofOutline := fun _ o m => return { m with naked := ← readBool o }
     ofValue := fun v m => return { m with naked := ← boolOfValue v } }]

/-- Read what is declared about a function. -/
def read : Nat → Outline → Except Fault FunctionMetadata :=
  RecordField.readOutline fields "struct FunctionMetadata" {}

/-- Read what is declared about a function from a value. -/
def ofValue : Value → Except Fault FunctionMetadata :=
  RecordField.readValue fields "struct FunctionMetadata" {}

/-- Read what is declared about a function from its text. -/
def ofText (s : Text) : Except Fault FunctionMetadata := readText (read Outline.nestingLimit) s

end FunctionMetadata

namespace MetadataIndex

/-- Read the metadata of a package from its text. -/
def ofText (s : Text) : Except Fault MetadataIndex :=
  readText (readDictionary FunctionMetadata.read Outline.nestingLimit) s

/-- Read the metadata of a package from a value. -/
def ofValue : Value → Except Fault MetadataIndex := readDictionaryValue FunctionMetadata.ofValue

end MetadataIndex

end ArgGuard
