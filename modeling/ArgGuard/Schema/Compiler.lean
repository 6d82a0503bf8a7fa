import ArgGuard.Schema.Check
import ArgGuard.Text.Escaped

/-!
# Compiling schemas

A schema is compiled to Perl code over several lines with comments. The code leaves the message
of the first failed check in an error variable, and leaves that variable alone when every check
passes. Data that need not be defined is checked only when it is.
-/

namespace ArgGuard

/-- What the code leaves in the error variable. -/
inductive ReturnKind where
  /-- A message. -/
  | str
  /-- A truth value. -/
  | bool
  deriving DecidableEq, Repr

/-- The name of a kind of result. -/
def ReturnKind.name : ReturnKind → Text
  | str => "str"
  | bool => "bool"

/-- A request to compile a schema. -/
structure CompileRequest where
  /-- The schema. -/
  schema : Json.Value
  /-- The error variable. -/
  errTerm : Text
  /-- The expression for the data. -/
  dataTerm : Text
  /-- The name of the data, for a comment. -/
  dataName : Text
  /-- What the code leaves in the error variable. -/
  returnKind : ReturnKind
  deriving Repr

/-- A compiler turns requests into code. -/
abbrev SchemaCompiler := CompileRequest → Except CompileError Text

namespace Schema

/-- The lines that make one check after the given keyword. -/
def checkLines (errTerm keyword : Text) (check : Check) : List Text :=
  ["# check " ++ check.what,
   keyword ++ " (" ++ check.failure ++ ") \x7b",
   "    " ++ errTerm ++ " = " ++ Text.quoted check.message ++ ";",
   "\x7d"]

/-- The lines that make checks until one fails. -/
def chainLines (errTerm : Text) : List Check → List Text
  | [] => []
  | first :: others =>
    checkLines errTerm "if" first ++ others.flatMap (checkLines errTerm "elsif")

/-- Lines that are run only when the data is defined. -/
def guardedLines (data : Text) (lines : List Text) : List Text :=
  let opening : List Text := ["# skip when undefined", "if (defined(" ++ data ++ ")) \x7b"]
  opening ++ lines.map (fun line => ("    " : Text) ++ line) ++ [['\x7d']]

/-- The lines that make the checks of a schema. -/
def bodyLines (schema : Schema) (checks : List Check) (request : CompileRequest) : List Text :=
  if checks.isEmpty then ["# nothing to check"]
  else
    let chain := chainLines request.errTerm checks
    if schema.required then chain else guardedLines request.dataTerm chain

/-- The code for the checks of a schema. -/
def code (schema : Schema) (checks : List Check) (request : CompileRequest) : Text :=
  let title : Text := "# validate '" ++ Text.escaped request.dataName ++
    "' against schema of type '" ++ schema.type.name ++ "'"
  (title :: bodyLines schema checks request).flatMap (· ++ ['\n'])

/-- The built-in compiler. It leaves messages only. -/
def compile : SchemaCompiler := fun request => do
  if request.returnKind ≠ .str then throw (.returnKind request.returnKind.name)
  let schema ← ofValue request.schema
  let checks ← schema.checks request.dataTerm
  return schema.code checks request

end Schema

end ArgGuard
