import ArgGuard.Text.Basic

/-!
# Diagnostics

What is reported about a source: notices and warnings, which leave it usable, and the fatal
conditions, after which the source is left as it is.
-/

namespace ArgGuard

/-- How grave a diagnostic is. -/
inductive Severity where
  /-- Something to know. -/
  | notice
  /-- Something that was left undone. -/
  | warning
  /-- The source cannot be processed. -/
  | fatal
  deriving DecidableEq, Repr

/-- The name of a severity. -/
def Severity.name : Severity → Text
  | notice => "notice"
  | warning => "warning"
  | fatal => "fatal"

/-- A report about a line of a source. -/
structure Diagnostic where
  /-- How grave it is. -/
  severity : Severity
  /-- The name of the source. -/
  file : Text
  /-- The number of the line, counted from one, if there is one. -/
  line : Option Nat
  /-- What is reported. -/
  message : Text
  deriving DecidableEq, Repr

/-- A diagnostic as one line. -/
def Diagnostic.text (d : Diagnostic) : Text :=
  let place : Text := match d.line with
    | some n => ':' :: Text.ofNat n
    | none => []
  d.file ++ place ++ ": " ++ d.severity.name ++ ": " ++ d.message

end ArgGuard
