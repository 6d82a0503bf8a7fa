import ArgGuard.Json.Scalar
import ArgGuard.Scan
import ArgGuard.Text.Escaped

/-!
# Log lines

A log line names its level, says what happened and lists fields. A log shows the lines up to a
level; the graver ones come first in the order of levels.
-/

namespace ArgGuard

/-- The levels of a log, from none to all. -/
inductive LogLevel where
  /-- Nothing at all. -/
  | off
  /-- Errors. -/
  | error
  /-- Warnings. -/
  | warn
  /-- Notices. -/
  | info
  /-- Steps. -/
  | debug
  /-- Everything. -/
  | trace
  deriving DecidableEq, Repr

namespace LogLevel

/-- The place of a level in the order. -/
def rank : LogLevel → Nat
  | off => 0
  | error => 1
  | warn => 2
  | info => 3
  | debug => 4
  | trace => 5

/-- The name of a level, as lines show it. -/
def name : LogLevel → Text
  | off => "OFF"
  | error => "ERROR"
  | warn => "WARN"
  | info => "INFO"
  | debug => "DEBUG"
  | trace => "TRACE"

/-- Every level. -/
def all : List LogLevel := [off, error, warn, info, debug, trace]

/-- The level that a setting of one word names, by its name in either case or by its place in the
order; an empty setting means errors, and any other word nothing. What a setting may say besides is
not modelled: levels for some targets or spans only, or a list of such. It counts as any other
word. -/
def ofSetting (setting : Text) : LogLevel :=
  if setting.isEmpty then error
  else if setting.all Text.isDigit then
    (all.find? fun level => level.rank = Json.digitsValue setting).getD off
  else (all.find? fun level => level.name = setting.map Char.toUpper).getD off

/-- The level that the options for more or less output ask for. -/
def ofOptions (quiet : Bool) (verbosity : Nat) : LogLevel :=
  if quiet then error
  else match verbosity with
    | 0 => info
    | 1 => debug
    | _ => trace

end LogLevel

/-- A line of a log. -/
structure LogLine where
  /-- Its level. -/
  level : LogLevel
  /-- What happened. -/
  message : Text
  /-- Its fields, each with its value as it is shown. -/
  fields : List (Text × Text)
  deriving DecidableEq, Repr

namespace LogLine

/-- Control characters that a terminal would obey are shown by their numbers. -/
def tamed (c : Char) : Text :=
  if c.toNat = 0x1B ∨ c.toNat = 0x07 ∨ c.toNat = 0x08 ∨ c.toNat = 0x0C ∨ c.toNat = 0x7F then
    "\\x" ++ (if c.toNat < 16 then ['0'] else []) ++ Nat.toDigits 16 c.toNat
  else if 0x80 ≤ c.toNat ∧ c.toNat ≤ 0x9F then Text.numbered c
  else [c]

/-- The characters of a log line. -/
def text (l : LogLine) : Text :=
  l.level.name ++ ' ' :: l.message.flatMap tamed ++
    l.fields.flatMap fun (field, value) => ' ' :: field ++ '=' :: value

/-- The lines that a log of some level shows. -/
def shown (level : LogLevel) (lines : List LogLine) : List LogLine :=
  lines.filter fun l => l.level.rank ≤ level.rank

/-- How a field shows a truth value. -/
def boolText (b : Bool) : Text := if b then "true" else "false"

/-- How a field shows a list of strings. -/
def listText (items : List Text) : Text :=
  '[' :: Text.joined ", " (items.map Text.shown) ++ [']']

/-- The log line of a step of a scan. -/
def ofEvent : Event → LogLine
  | .docOpened line => ⟨.trace, "doc block opened", [("line", Text.ofNat line)]⟩
  | .docClosed line => ⟨.trace, "doc block closed", [("line", Text.ofNat line)]⟩
  | .packageLoaded package functions =>
    ⟨.debug, "loaded package metadata",
      [("unit", package), ("functions", Text.ofNat functions)]⟩
  | .subEntered package sub resolved =>
    ⟨.debug, "entering sub",
      [("unit", package), ("function", sub), ("resolved", boolText resolved)]⟩
  | .guardInserted line sub arguments =>
    ⟨.debug, "spliced validation code",
      [("line", Text.ofNat line), ("function", sub), ("arguments", listText arguments)]⟩

/-- The level at which a diagnostic is logged. -/
def levelOf : Severity → LogLevel
  | .notice => .info
  | .warning => .warn
  | .fatal => .error

/-- The log line of a diagnostic. -/
def ofDiagnostic (d : Diagnostic) : LogLine :=
  ⟨levelOf d.severity, d.message,
    ("file", d.file) :: (d.line.map fun n => (("line" : Text), Text.ofNat n)).toList⟩

/-- The log line of a processed source. -/
def processed (file : Text) (tags : Nat) : LogLine :=
  ⟨.debug, "processed", [("file", Text.shown file), ("tags", Text.ofNat tags)]⟩

/-- The log line of an input that cannot be read. -/
def unreadable (file : Text) (error : FileError) : LogLine :=
  ⟨.error, "failed to read: " ++ error.message, [("file", file)]⟩

/-- The log line of a pattern without matches. -/
def unmatched (pattern : Text) : LogLine := ⟨.warn, "no files matched", [("pattern", pattern)]⟩

end LogLine

end ArgGuard
