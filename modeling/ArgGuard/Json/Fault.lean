import ArgGuard.Json.Value
import ArgGuard.Json.Printer
import ArgGuard.Text.Escaped

/-!
# Faults of a JSON text

Each way in which a text fails to be JSON, or to be the JSON that is expected, with the words
that report it.
-/

namespace ArgGuard.Json

/-- A word between the quotes that reports use for syntax and names. -/
def ticked (word : Text) : Text := "`" ++ word ++ "`"

/-- What a fault calls the value it found. -/
inductive Found where
  /-- The null. -/
  | null
  /-- A truth value. -/
  | bool (value : Bool)
  /-- A number. -/
  | number (value : Number)
  /-- A string. -/
  | string (value : Text)
  /-- An array. -/
  | array
  /-- An object. -/
  | object
  deriving DecidableEq, Repr

namespace Found

/-- What a value is found to be. -/
def ofValue : Value → Found
  | .null => null
  | .bool b => bool b
  | .number n => number n
  | .string s => string s
  | .array _ => array
  | .object _ => object

/-- The words for what was found. -/
def text : Found → Text
  | null => "null"
  | bool b => "boolean " ++ ticked (if b then "true" else "false")
  | number (.int n) => "integer " ++ ticked (Text.ofInt n)
  | number (.double x) => "floating point " ++ ticked x.compact
  | string s => "string " ++ Text.shown s
  | array => "sequence"
  | object => "map"

end Found

/-- A way in which a text is not the JSON that is expected. -/
inductive Fault where
  /-- The text ends where a value should be. -/
  | endInValue
  /-- The text ends inside an object. -/
  | endInObject
  /-- The text ends inside an array. -/
  | endInList
  /-- The text ends inside a string. -/
  | endInString
  /-- No value starts here. -/
  | valueExpected
  /-- A word that starts like a constant goes on differently. -/
  | wordExpected
  /-- No colon follows a member's name. -/
  | colonExpected
  /-- Neither a comma nor a bracket follows an item. -/
  | commaOrBracketExpected
  /-- Neither a comma nor a brace follows a member. -/
  | commaOrBraceExpected
  /-- A comma is followed by the end of its array or object. -/
  | trailingComma
  /-- Something follows where the value is complete. -/
  | trailingCharacters
  /-- A member's name is not a string. -/
  | nameExpected
  /-- A number lacks a digit or has a zero too many. -/
  | invalidNumber
  /-- A number is beyond the largest double. -/
  | numberOutOfRange
  /-- A backslash is followed by something that is no escape. -/
  | invalidEscape
  /-- A surrogate stands in the wrong place. -/
  | loneSurrogate
  /-- The second half of a surrogate pair is missing. -/
  | endOfHexEscape
  /-- A control character stands inside a string. -/
  | controlCharacter
  /-- Arrays and objects nest too deep. -/
  | tooDeep
  /-- A value is of another type than expected. -/
  | wrongType (found : Found) (expected : Text)
  /-- An object stands where it must have one member. -/
  | singleMemberExpected
  /-- A name is none of the expected ones. -/
  | unknownName (name : Text) (known : List Text)
  /-- A field is given twice. -/
  | duplicateField (name : Text)
  /-- An array has more items than there are fields. -/
  | tooManyItems (count : Nat)
  deriving DecidableEq, Repr

/-- The words that report a fault. -/
def Fault.message : Fault → Text
  | endInValue => "EOF while parsing a value"
  | endInObject => "EOF while parsing an object"
  | endInList => "EOF while parsing a list"
  | endInString => "EOF while parsing a string"
  | valueExpected => "expected value"
  | wordExpected => "expected ident"
  | colonExpected => "expected " ++ ticked ":"
  | commaOrBracketExpected => "expected " ++ ticked "," ++ " or " ++ ticked "]"
  | commaOrBraceExpected => "expected " ++ ticked "," ++ " or " ++ ticked "\x7d"
  | trailingComma => "trailing comma"
  | trailingCharacters => "trailing characters"
  | nameExpected => "key must be a string"
  | invalidNumber => "invalid number"
  | numberOutOfRange => "number out of range"
  | invalidEscape => "invalid escape"
  | loneSurrogate => "lone leading surrogate in hex escape"
  | endOfHexEscape => "unexpected end of hex escape"
  | controlCharacter => "control character (\\u0000-\\u001F) found while parsing a string"
  | tooDeep => "recursion limit exceeded"
  | wrongType found expected => "invalid type: " ++ found.text ++ ", expected " ++ expected
  | singleMemberExpected => "invalid value: map, expected map with a single key"
  | unknownName name known =>
    "unknown variant " ++ ticked name ++ ", expected one of " ++
      Text.joined ", " (known.map ticked)
  | duplicateField name => "duplicate field " ++ ticked name
  | tooManyItems count =>
    "invalid length " ++ Text.ofNat count ++ ", expected fewer elements in array"

end ArgGuard.Json
