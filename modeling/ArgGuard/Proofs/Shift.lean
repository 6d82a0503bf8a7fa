import ArgGuard.Proofs.Renumbering

/-!
# Counting lines from elsewhere

Counting the lines from elsewhere shifts the numbers in what is reported and changes nothing
else. It is a renumbering that adds the same to every number.
-/

namespace ArgGuard

/-- A diagnostic some lines further down. -/
def Diagnostic.shift (d : Nat) (x : Diagnostic) : Diagnostic :=
  { x with line := x.line.map (· + d) }

/-- An event some lines further down. -/
def Event.shift (d : Nat) : Event → Event
  | docOpened line => docOpened (line + d)
  | docClosed line => docClosed (line + d)
  | packageLoaded package functions => packageLoaded package functions
  | subEntered package sub resolved => subEntered package sub resolved
  | guardInserted line sub arguments => guardInserted (line + d) sub arguments

/-- What lines yield that stand some lines further down. -/
def Yield.shift (d : Nat) (y : Yield) : Yield :=
  { y with
    diagnostics := y.diagnostics.map (Diagnostic.shift d)
    events := y.events.map (Event.shift d) }

/-- A failure some lines further down. -/
def ScanFailure.shift (d : Nat) (f : ScanFailure) : ScanFailure where
  fatal := f.fatal.shift d
  diagnostics := f.diagnostics.map (Diagnostic.shift d)
  events := f.events.map (Event.shift d)

/-- A sub some lines further down. -/
def Sub.shift (d : Nat) (sub : Sub) : Sub := { sub with line := sub.line + d }

/-- Shifting an event adds to its line. -/
theorem Event.renumber_add (d : Nat) : Event.renumber (· + d) = Event.shift d := by
  funext e
  cases e <;> rfl

namespace Scan

/-- A scan some lines further down. -/
def shift (d : Nat) (scan : Scan) : Scan := { scan with sub := scan.sub.map (Sub.shift d) }

/-- Without a sub, a scan does not tell where it is. -/
theorem shift_eq_self {scan : Scan} (d : Nat) (h : scan.sub = none) : scan.shift d = scan := by
  obtain ⟨region, package, sub⟩ := scan
  obtain rfl : sub = none := h
  rfl

/-- The result of a scan some lines further down. -/
def shiftResult (d : Nat) : Except ScanFailure (Scan × Yield) → Except ScanFailure (Scan × Yield)
  | .error failure => .error (failure.shift d)
  | .ok (scan, y) => .ok (scan.shift d, y.shift d)

/-- Shifting a result adds to the numbers in it. -/
theorem renumberResult_add (d : Nat) : renumberResult (· + d) = shiftResult d := by
  funext result
  cases result with
  | error failure =>
    have hfailure : failure.renumber (· + d) = failure.shift d := by
      simp only [ScanFailure.renumber, ScanFailure.shift, Event.renumber_add]
      rfl
    simp only [renumberResult, shiftResult, hfailure]
  | ok result =>
    obtain ⟨scan, y⟩ := result
    have hyield : y.renumber (· + d) = y.shift d := by
      simp only [Yield.renumber, Yield.shift, Event.renumber_add]
      rfl
    simp only [renumberResult, shiftResult, hyield]
    rfl

/-- Notices where a sub ends move with the sub. -/
theorem closingNotices_shift (d : Nat) (file : Text) (sub : Option Sub) :
    closingNotices file (sub.map (Sub.shift d)) =
      (closingNotices file sub).map (Diagnostic.shift d) :=
  closingNotices_renumber (· + d) file sub

/-- Lines are scanned in the same way wherever they stand. -/
theorem run_shift (setting : ScanSetting) (scan : Scan) (number d : Nat) (lines : List Line) :
    run setting (scan.shift d) (number + d) lines =
      shiftResult d (run setting scan number lines) := by
  have hmoved : ∀ i < lines.length, number + i + d = number + d + i := by
    intro i _
    omega
  rw [← renumberResult_add]
  exact run_renumber setting scan (· + d) number (number + d) lines hmoved

end Scan

end ArgGuard
