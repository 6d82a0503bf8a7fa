import ArgGuard.Schema.Pattern
import ArgGuard.Text.Quoted

/-!
# Checks

A schema amounts to a list of checks on the data, made in order: that it is defined where that
is required, that it is of the type, and each clause. A check is a condition under which the
data fails and the message that tells so.
-/

namespace ArgGuard

/-- One way for data to fail. -/
structure Check where
  /-- What is checked, for a comment. -/
  what : Text
  /-- The expression that is true when the data fails. -/
  failure : Text
  /-- The message about the failure. -/
  message : Text
  deriving DecidableEq, Repr

/-- The clauses that bound a value on one side. -/
inductive Bound where
  /-- At least the bound. -/
  | min
  /-- At most the bound. -/
  | max
  /-- More than the bound. -/
  | above
  /-- Less than the bound. -/
  | below
  deriving DecidableEq, Repr

namespace Bound

/-- The operator that compares numbers. -/
def numericOperator : Bound → Text
  | min => ">="
  | max => "<="
  | above => ">"
  | below => "<"

/-- The operator that compares texts. -/
def textOperator : Bound → Text
  | min => "ge"
  | max => "le"
  | above => "gt"
  | below => "lt"

/-- The words between the data and the bound. -/
def phrase : Bound → Text
  | min => "at least"
  | max => "at most"
  | above => "larger than"
  | below => "smaller than"

end Bound

/-- The clauses that compare a length. -/
inductive LengthTest where
  /-- At least as long. -/
  | min
  /-- At most as long. -/
  | max
  /-- Exactly as long. -/
  | exact
  deriving DecidableEq, Repr

namespace LengthTest

/-- The operator that compares lengths. -/
def operator : LengthTest → Text
  | min => ">="
  | max => "<="
  | exact => "=="

/-- The words before the length. -/
def phrase : LengthTest → Text
  | min => "Length must be at least"
  | max => "Length must be at most"
  | exact => "Length must be"

end LengthTest

/-- The clauses of a schema other than `req`. -/
inductive Clause where
  /-- A bound on one side. -/
  | bound (bound : Bound)
  /-- A bound on either side. -/
  | between
  /-- A comparison of the length. -/
  | length (test : LengthTest)
  /-- A list of allowed values. -/
  | oneOf
  /-- A pattern that must match. -/
  | matching
  deriving DecidableEq, Repr

namespace Clause

/-- The clauses by name. -/
def byName : List (Text × Clause) :=
  [("min", .bound .min), ("max", .bound .max), ("xmin", .bound .above), ("xmax", .bound .below),
   ("between", .between), ("min_len", .length .min), ("max_len", .length .max),
   ("len", .length .exact), ("in", .oneOf), ("match", .matching)]

/-- The clause of a name. -/
def ofName? (name : Text) : Option Clause := byName.lookup name

end Clause

namespace SchemaType

/-- The expression that is true when data is of a type, and what the type is called. Anything
is of type `any`. -/
def condition? (type : SchemaType) (data : Text) : Option (Text × Text) :=
  let plain : Text := "!ref(" ++ data ++ ")"
  let isA (kind : Text) : Text := "ref(" ++ data ++ ") eq '" ++ kind ++ "'"
  match type with
  | any => none
  | bool => some (plain, "boolean")
  | int => some (plain ++ " && " ++ data ++ " =~ /\\A[+-]?[0-9]+\\z/", "integer")
  | float => some (plain ++ " && " ++ data ++
      " =~ /\\A[+-]?(?:[0-9]+(?:\\.[0-9]*)?|\\.[0-9]+)(?:[eE][+-]?[0-9]+)?\\z/", "number")
  | str => some (plain, "text")
  | array => some (isA "ARRAY", "array")
  | hash => some (isA "HASH", "hash")
  | re => some (plain ++ " || " ++ isA "Regexp", "regex pattern")

/-- The operator that compares data of a type with a bound. -/
def operator? (type : SchemaType) (bound : Bound) : Option Text :=
  match type with
  | int | float => some bound.numericOperator
  | str => some bound.textOperator
  | _ => none

/-- The operator that tells whether data of a type equals a value. -/
def equality? : SchemaType → Option Text
  | int | float => some "=="
  | str => some "eq"
  | _ => none

/-- The expression for the length of data of a type. -/
def length? (type : SchemaType) (data : Text) : Option Text :=
  match type with
  | str => some ("length(" ++ data ++ ")")
  | array => some ("scalar(@\x7b" ++ data ++ "\x7d)")
  | hash => some ("scalar(keys %\x7b" ++ data ++ "\x7d)")
  | _ => none

end SchemaType

namespace Schema

/-- How a message shows a value: a string as it is, anything else as JSON. -/
def display : Json.Value → Text
  | .string s => s
  | value => value.compact

/-- The literal with which data of a type is compared: a number for the numeric types, a quoted
string for texts. -/
def literal (type : SchemaType) (clause : Text) (value : Json.Value) :
    Except CompileError Text :=
  let reject : Except CompileError Text :=
    .error (.clauseValue clause
      (value.compact ++ " cannot be compared with type '" ++ type.name ++ "'"))
  match value with
  | .number n => if type.isNumeric then .ok n.text else reject
  | .string s => if type = .str then .ok (Text.quoted s) else reject
  | _ => reject

/-- The literals of a list of values. -/
def literals (type : SchemaType) (clause : Text) : List Json.Value → Except CompileError (List Text)
  | [] => .ok []
  | value :: rest => do
    let first ← literal type clause value
    let others ← literals type clause rest
    return first :: others

/-- The failure condition and the message of a clause. -/
def clauseFailure (type : SchemaType) (clause : Text) (value : Json.Value) (data : Text) :
    Except CompileError (Text × Text) :=
  let unsupported := CompileError.unsupportedClause type.name clause
  match Clause.ofName? clause with
  | none => .error unsupported
  | some (.bound bound) => do
    let some operator := type.operator? bound | throw unsupported
    let limit ← literal type clause value
    return ("!(" ++ data ++ " " ++ operator ++ " " ++ limit ++ ")",
      "Must be " ++ bound.phrase ++ " " ++ display value)
  | some .between => do
    let some atLeast := type.operator? .min | throw unsupported
    let some atMost := type.operator? .max | throw unsupported
    match value with
    | .array [low, high] =>
      let lowest ← literal type clause low
      let highest ← literal type clause high
      return ("!(" ++ data ++ " " ++ atLeast ++ " " ++ lowest ++ " && " ++
          data ++ " " ++ atMost ++ " " ++ highest ++ ")",
        "Must be between " ++ display low ++ " and " ++ display high)
    | _ => throw (.clauseValue clause "expected [min, max]")
  | some (.length test) => do
    let some length := type.length? data | throw unsupported
    match value with
    | .number (.int (.ofNat n)) =>
      return ("!(" ++ length ++ " " ++ test.operator ++ " " ++ Text.ofNat n ++ ")",
        test.phrase ++ " " ++ Text.ofNat n)
    | _ => throw (.clauseValue clause "expected a non-negative integer")
  | some .oneOf => do
    let some equals := type.equality? | throw unsupported
    match value with
    | .array items =>
      let allowed ← literals type clause items
      return ("!(grep \x7b $_ " ++ equals ++ " " ++ data ++ " \x7d (" ++
          Text.joined ", " allowed ++ "))",
        "Must be one of [" ++ Text.joined ", " (items.map display) ++ "]")
    | _ => throw (.clauseValue clause "expected a list")
  | some .matching => do
    if type ≠ .str then throw unsupported
    match value with
    | .string pattern =>
      return ("!(" ++ data ++ " =~ /" ++ (← patternBody pattern) ++ "/)",
        "Must match pattern " ++ pattern)
    | _ => throw (.clauseValue clause "expected a pattern string")

/-- The check of a clause. -/
def clauseCheck (type : SchemaType) (data : Text) (clause : Text × Json.Value) :
    Except CompileError Check := do
  let (failure, message) ← clauseFailure type clause.1 clause.2 data
  return ⟨"clause '" ++ clause.1 ++ "'", failure, message⟩

/-- The check that required data is defined. -/
def definedCheck (data : Text) : Check :=
  ⟨"required", "!defined(" ++ data ++ ")", "Required but not specified"⟩

/-- The check of a type, if the type rules anything out. -/
def typeCheck? (type : SchemaType) (data : Text) : Option Check :=
  (type.condition? data).map fun (condition, noun) =>
    ⟨"type '" ++ type.name ++ "'", "!(" ++ condition ++ ")", "Not of type " ++ noun⟩

/-- The checks of the clauses, in order. -/
def clauseChecks (type : SchemaType) (data : Text) :
    List (Text × Json.Value) → Except CompileError (List Check)
  | [] => .ok []
  | clause :: rest => do
    let first ← clauseCheck type data clause
    let others ← clauseChecks type data rest
    return first :: others

/-- The checks that a schema amounts to, in order. -/
def checks (schema : Schema) (data : Text) : Except CompileError (List Check) := do
  let clauses ← clauseChecks schema.type data schema.clauses
  return (if schema.required then [definedCheck data] else []) ++
    (typeCheck? schema.type data).toList ++ clauses

end Schema

end ArgGuard
