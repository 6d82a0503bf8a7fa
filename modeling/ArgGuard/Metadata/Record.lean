import ArgGuard.Json.Members
import ArgGuard.Metadata.Basic

/-!
# Records in JSON

A record is written as an object of its fields or as an array of them in a fixed order, and any
field may be left out. It is read in two ways: straight from the outline of a text, or from a
value that was read before. Reading straight, a field given twice is a fault, also where the
value would have kept the last one only; unknown fields are skipped.
-/

namespace ArgGuard.Metadata

open Json

/-- A field of a record: its names, and how a record gets it from a text or from a value. -/
structure RecordField (Record : Type) where
  /-- The name that reports use. -/
  name : Text
  /-- Another name that means the same. -/
  otherName : Option Text
  /-- Read the field from an outline in which so many arrays and objects may nest. -/
  ofOutline : Nat → Outline → Record → Except Fault Record
  /-- Read the field from a value. -/
  ofValue : Value → Record → Except Fault Record

namespace RecordField

variable {Record : Type}

/-- Whether a name means a field. -/
def answersTo (f : RecordField Record) (name : Text) : Bool :=
  f.name = name || f.otherName = some name

/-- The field that a name means. -/
def find? (fields : List (RecordField Record)) (name : Text) : Option (RecordField Record) :=
  fields.find? (answersTo · name)

/-- The field that a name means, unless it was given before. -/
def take (fields : List (RecordField Record)) (given : List Text) (name : Text) :
    Except Fault (Option (RecordField Record)) :=
  match find? fields name with
  | some f => if f.name ∈ given then .error (.duplicateField f.name) else .ok (some f)
  | none => .ok none

/-- Read the members of an object as fields, after those already given. -/
def ofMembers (fields : List (RecordField Record)) (depth : Nat) (given : List Text)
    (record : Record) (ending : ObjectEnd) :
    List (Except Fault Text × Outline) → Except Fault Record
  | [] => do
    if let .colonMissing (.ok name) _ := ending then
      let _ ← take fields given name
    Outline.unlessFault ending.fault? record
  | (name, o) :: rest => do
    match ← take fields given (← name) with
    | some f =>
      let record ← f.ofOutline depth o record
      ofMembers fields depth (f.name :: given) record ending rest
    | none =>
      o.skip
      ofMembers fields depth given record ending rest

/-- The fault at the end of an array that has given every field. -/
def surplusFault? : ListEnd → Option Fault
  | .closed => none
  | .unfinished => some .endInList
  | .danglingComma => some .trailingComma
  | .stray | .commaAtEnd => some .trailingCharacters

/-- Read the items of an array as fields in order. -/
def ofItems (depth : Nat) (ending : ListEnd) :
    List (RecordField Record) → List Outline → Record → Except Fault Record
  | [], [], record => Outline.unlessFault (surplusFault? ending) record
  | [], _ :: _, _ => .error .trailingCharacters
  | _ :: _, [], record => Outline.unlessFault ending.fault? record
  | f :: fields, o :: rest, record => do
    let record ← f.ofOutline depth o record
    ofItems depth ending fields rest record

/-- Read a record from an outline in which so many arrays and objects may nest. -/
def readOutline (fields : List (RecordField Record)) (expected : Text) (record : Record)
    (depth : Nat) : Outline → Except Fault Record
  | .list items ending =>
    match depth with
    | 0 => .error .tooDeep
    | depth + 1 => ofItems depth ending fields items record
  | .object members ending =>
    match depth with
    | 0 => .error .tooDeep
    | depth + 1 => ofMembers fields depth [] record ending members
  | o => .error (Outline.mismatch expected o.found)

/-- Read the members of an object value as fields, after those already given. -/
def ofMemberValues (fields : List (RecordField Record)) (given : List Text) (record : Record) :
    List (Text × Value) → Except Fault Record
  | [] => .ok record
  | (name, v) :: rest => do
    match ← take fields given name with
    | some f =>
      let record ← f.ofValue v record
      ofMemberValues fields (f.name :: given) record rest
    | none => ofMemberValues fields given record rest

/-- Read the items of an array value of the given size as fields in order. -/
def ofItemValues (size : Nat) :
    List (RecordField Record) → List Value → Record → Except Fault Record
  | _, [], record => .ok record
  | [], _ :: _, _ => .error (.tooManyItems size)
  | f :: fields, v :: rest, record => do
    let record ← f.ofValue v record
    ofItemValues size fields rest record

/-- Read a record from a value. -/
def readValue (fields : List (RecordField Record)) (expected : Text) (record : Record) :
    Value → Except Fault Record
  | .array items => ofItemValues items.length fields items record
  | .object members => ofMemberValues fields [] record members
  | v => .error (.wrongType (Found.ofValue v) expected)

end RecordField

end ArgGuard.Metadata
