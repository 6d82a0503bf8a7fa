import ArgGuard.Json.Printer

/-!
# Schemas

A schema names a type, says whether a value must be defined, and constrains it by clauses in
the order in which they are written. In JSON it is a type name, or an array of a type name and
an object of clauses; a star behind the name, and a clause `req`, ask for a defined value.
-/

namespace ArgGuard

/-- Why a schema is not compiled. -/
inductive CompileError where
  /-- It is not of the shape of a schema. -/
  | malformed (reason : Text)
  /-- Its type is unknown. -/
  | unknownType (name : Text)
  /-- A clause does not apply to its type. -/
  | unsupportedClause (type clause : Text)
  /-- A clause does not take its value. -/
  | clauseValue (clause reason : Text)
  /-- The code cannot leave that kind of result. -/
  | returnKind (kind : Text)
  deriving DecidableEq, Repr

/-- The words that report a compile error. -/
def CompileError.message : CompileError → Text
  | malformed reason => "malformed schema: " ++ reason
  | unknownType name => "unknown type '" ++ name ++ "'"
  | unsupportedClause type clause =>
    "clause '" ++ clause ++ "' is not supported for type '" ++ type ++ "'"
  | clauseValue clause reason => "invalid value for clause '" ++ clause ++ "': " ++ reason
  | returnKind kind => "return kind '" ++ kind ++ "' is not supported"

/-- The types of a schema. -/
inductive SchemaType where
  /-- Anything. -/
  | any
  /-- A truth value. -/
  | bool
  /-- An integer. -/
  | int
  /-- A number. -/
  | float
  /-- A text. -/
  | str
  /-- A reference to an array. -/
  | array
  /-- A reference to a hash. -/
  | hash
  /-- A regular expression. -/
  | re
  deriving DecidableEq, Repr

namespace SchemaType

/-- The name of a type. -/
def name : SchemaType → Text
  | any => "any"
  | bool => "bool"
  | int => "int"
  | float => "float"
  | str => "str"
  | array => "array"
  | hash => "hash"
  | re => "re"

/-- Every type. -/
def all : List SchemaType := [any, bool, int, float, str, array, hash, re]

/-- The type of a name; `num` is another name of `float`. -/
def ofName? (text : Text) : Option SchemaType :=
  if text = "num" then some float else all.find? fun t => t.name = text

/-- Each type is read by its name. -/
theorem ofName?_name (t : SchemaType) : ofName? t.name = some t := by cases t <;> rfl

/-- Values of these types are compared as numbers. -/
def isNumeric : SchemaType → Bool
  | int | float => true
  | _ => false

end SchemaType

/-- A schema. -/
structure Schema where
  /-- The type of the value. -/
  type : SchemaType
  /-- Whether the value must be defined. -/
  required : Bool
  /-- The clauses other than `req`, in order. -/
  clauses : List (Text × Json.Value)
  deriving Repr

namespace Schema

/-- A type name without a star at its end, and whether there was one. -/
def cutStar (name : Text) : Text × Bool :=
  match name.reverse with
  | '*' :: rest => (rest.reverse, true)
  | _ => (name, false)

/-- Whether any of the `req` clauses asks for a defined value; each must be a truth value. -/
def asksDefined : List (Text × Json.Value) → Except CompileError Bool
  | [] => .ok false
  | (clause, value) :: rest =>
    if clause = "req" then
      match value with
      | .bool b => return b || (← asksDefined rest)
      | _ => .error (.clauseValue "req" "expected a boolean")
    else asksDefined rest

/-- The schema of a type name, perhaps with a star, and clauses. -/
def ofParts (name : Text) (clauses : List (Text × Json.Value)) : Except CompileError Schema := do
  let (base, star) := cutStar name
  let some type := SchemaType.ofName? base | throw (.unknownType base)
  let defined ← asksDefined clauses
  return {
    type
    required := star || defined
    clauses := clauses.filter fun (clause, _) => clause ≠ "req" }

/-- The schema that a JSON value writes. -/
def ofValue : Json.Value → Except CompileError Schema
  | .string name => ofParts name []
  | .array (.string name :: rest) =>
    match rest with
    | [] => ofParts name []
    | [.object clauses] => ofParts name clauses
    | _ => .error (.malformed "expected [type] or [type, \x7bclauses\x7d]")
  | .array _ => .error (.malformed "expected a type name as the first element")
  | value => .error (.malformed ("expected a string or an array, got " ++ value.compact))

end Schema

end ArgGuard
