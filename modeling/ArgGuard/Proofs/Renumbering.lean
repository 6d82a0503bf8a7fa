import ArgGuard.Scan

/-!
# Numbering lines anew

A scan reads line numbers only to report them. Where the lines that are scanned get other
numbers, one after the other as before, the numbers in what is reported change with them and
nothing else does. Counting the lines from elsewhere is one case of this; lines that come in
between are another.
-/

namespace ArgGuard

/-- A diagnostic about a line that gets another number. -/
def Diagnostic.renumber (ρ : Nat → Nat) (x : Diagnostic) : Diagnostic :=
  { x with line := x.line.map ρ }

/-- An event at a line that gets another number. -/
def Event.renumber (ρ : Nat → Nat) : Event → Event
  | docOpened line => docOpened (ρ line)
  | docClosed line => docClosed (ρ line)
  | packageLoaded package functions => packageLoaded package functions
  | subEntered package sub resolved => subEntered package sub resolved
  | guardInserted line sub arguments => guardInserted (ρ line) sub arguments

/-- What lines yield that get other numbers. -/
def Yield.renumber (ρ : Nat → Nat) (y : Yield) : Yield :=
  { y with
    diagnostics := y.diagnostics.map (Diagnostic.renumber ρ)
    events := y.events.map (Event.renumber ρ) }

/-- What lines yield one after the other gets the new numbers part by part. -/
theorem Yield.renumber_append (ρ : Nat → Nat) (a b : Yield) :
    (a ++ b).renumber ρ = a.renumber ρ ++ b.renumber ρ := by
  change (Yield.append a b).renumber ρ = Yield.append (a.renumber ρ) (b.renumber ρ)
  simp [Yield.append, Yield.renumber]

/-- A failure at lines that get other numbers. -/
def ScanFailure.renumber (ρ : Nat → Nat) (f : ScanFailure) : ScanFailure where
  fatal := f.fatal.renumber ρ
  diagnostics := f.diagnostics.map (Diagnostic.renumber ρ)
  events := f.events.map (Event.renumber ρ)

/-- A failure gets the new numbers together with the lines before it. -/
theorem ScanFailure.renumber_after (ρ : Nat → Nat) (y : Yield) (f : ScanFailure) :
    (f.after y).renumber ρ = (f.renumber ρ).after (y.renumber ρ) := by
  simp [ScanFailure.after, ScanFailure.renumber, Yield.renumber]

/-- A sub whose declaration gets another number. -/
def Sub.renumber (ρ : Nat → Nat) (sub : Sub) : Sub := { sub with line := ρ sub.line }

namespace Scan

/-- A scan of lines that get other numbers. -/
def renumber (ρ : Nat → Nat) (scan : Scan) : Scan :=
  { scan with sub := scan.sub.map (Sub.renumber ρ) }

/-- The result of a scan of lines that get other numbers. -/
def renumberResult (ρ : Nat → Nat) :
    Except ScanFailure (Scan × Yield) → Except ScanFailure (Scan × Yield)
  | .error failure => .error (failure.renumber ρ)
  | .ok (scan, y) => .ok (scan.renumber ρ, y.renumber ρ)

/-- Notices where a sub ends are about the line of its declaration. -/
theorem closingNotices_renumber (ρ : Nat → Nat) (file : Text) (sub : Option Sub) :
    closingNotices file (sub.map (Sub.renumber ρ)) =
      (closingNotices file sub).map (Diagnostic.renumber ρ) := by
  cases sub with
  | none => rfl
  | some sub =>
    obtain ⟨name, line, metadata, validated, sawAll, declared⟩ := sub
    cases metadata with
    | none => rfl
    | some m => simp [closingNotices, Sub.renumber, Diagnostic.renumber, Function.comp_def]

variable (setting : ScanSetting) (scan : Scan) (ρ : Nat → Nat) (number : Nat) (line : Line)

/-- Entering a package does not depend on the numbers of lines. -/
theorem enterPackage_renumber (name : Text) :
    enterPackage setting (scan.renumber ρ) (ρ number) line name =
      renumberResult ρ (enterPackage setting scan number line name) := by
  unfold enterPackage
  rw [renumber, closingNotices_renumber]
  cases setting.store name with
  | error error => rfl
  | ok index => rfl

/-- Entering a sub does not depend on the numbers of lines. -/
theorem enterSub_renumber (name : Text) :
    enterSub setting (scan.renumber ρ) (ρ number) line name =
      renumberResult ρ (enterSub setting scan number line name) := by
  unfold enterSub
  rw [renumber, closingNotices_renumber]
  cases scan.package with
  | none => rfl
  | some package => rfl

/-- The guard of a tag does not depend on the numbers of lines. -/
theorem insertGuard_renumber (tag : Tag) :
    insertGuard setting (scan.renumber ρ) (ρ number) line tag =
      renumberResult ρ (insertGuard setting scan number line tag) := by
  obtain ⟨region, package, sub⟩ := scan
  cases sub with
  | none => rfl
  | some sub =>
    have hmetadata : (sub.renumber ρ).metadata = sub.metadata := rfl
    have hguard (m : FunctionMetadata) :
        guardFor setting.compiler (sub.renumber ρ) m tag =
          guardFor setting.compiler sub m tag := rfl
    simp only [insertGuard, renumber, Option.map_some, hmetadata, hguard]
    cases sub.metadata with
    | none => rfl
    | some m =>
      dsimp only
      cases guardFor setting.compiler sub m tag with
      | error error => rfl
      | ok guard => rfl

/-- A line is scanned in the same way whatever its number is. -/
theorem step_renumber :
    step setting (scan.renumber ρ) (ρ number) line =
      renumberResult ρ (step setting scan number line) := by
  have hregion : (scan.renumber ρ).region = scan.region := rfl
  unfold step
  rw [hregion]
  cases scan.region with
  | data => rfl
  | doc => by_cases hc : LineKind.closesDoc line.body <;> simp only [hc] <;> rfl
  | code =>
    cases LineKind.ofLine line.body with
    | docOpen => rfl
    | docClose => rfl
    | other => rfl
    | endOfCode =>
      simp only [renumber, closingNotices_renumber]
      rfl
    | package name => exact enterPackage_renumber ..
    | function name => exact enterSub_renumber ..
    | tag tag => exact insertGuard_renumber ..

/-- Lines are scanned in the same way with other numbers, as long as these follow one another. -/
theorem run_renumber (first : Nat) (lines : List Line)
    (hρ : ∀ i < lines.length, ρ (number + i) = first + i) :
    run setting (scan.renumber ρ) first lines =
      renumberResult ρ (run setting scan number lines) := by
  induction lines generalizing scan number first with
  | nil => rfl
  | cons line rest ih =>
    have hfirst : ρ number = first := hρ 0 (by simp)
    have hrest : ∀ i < rest.length, ρ (number + 1 + i) = first + 1 + i := by
      intro i hi
      have hnext := hρ (i + 1) (by simpa using hi)
      rwa [Nat.add_comm i 1, ← Nat.add_assoc, ← Nat.add_assoc] at hnext
    rw [run, run, ← hfirst, step_renumber, hfirst]
    cases step setting scan number line with
    | error failure => rfl
    | ok result =>
      obtain ⟨next, y⟩ := result
      simp only [renumberResult, ih next (number + 1) (first + 1) hrest]
      cases run setting next (number + 1) rest with
      | error failure => simp only [ScanFailure.renumber_after]
      | ok result => simp only [Yield.renumber_append]

/-- With the numbers that the lines have, nothing changes: what the lines of a source leave behind
and report tells of these lines only. -/
theorem renumberResult_run (lines : List Line) (hρ : ∀ n ≤ lines.length, ρ n = n) :
    renumberResult ρ (run setting {} 1 lines) = run setting {} 1 lines := by
  have hsame : ∀ i < lines.length, ρ (1 + i) = 1 + i := by
    intro i hi
    apply hρ
    omega
  exact (run_renumber setting {} ρ 1 1 lines hsame).symm

end Scan

end ArgGuard
