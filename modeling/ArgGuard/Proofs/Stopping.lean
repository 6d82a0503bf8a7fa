import ArgGuard.Proofs.Advance
import ArgGuard.Proofs.Boundary

/-!
# What stops a scan

A line that is scanned stops the scan in one of three ways: a package without metadata, a sub
outside of any package, or a tag that gets no guard. The first two end the sub before them, and
the notices for that sub are still given; a tag stops the scan within its sub. A run that fails
is a run that succeeds up to a line that stops it.
-/

namespace ArgGuard.Scan

/-- What stops a scan at a line, with the failure that is reported. -/
inductive Stop (setting : ScanSetting) (scan : Scan) (number : Nat) (line : Line) :
    ScanFailure → Prop
  /-- A package has no metadata. -/
  | package {name : Text} {error : MetadataError} (hr : scan.region = .code)
      (hk : LineKind.ofLine line.body = .package name) (he : setting.store name = .error error) :
      Stop setting scan number line {
        fatal := ⟨.fatal, setting.file, some number,
          "cannot load metadata for package '" ++ name ++ "': " ++ error.message⟩
        diagnostics := closingNotices setting.file scan.sub }
  /-- A sub is outside of any package. -/
  | function {name : Text} (hr : scan.region = .code)
      (hk : LineKind.ofLine line.body = .function name) (hp : scan.package = none) :
      Stop setting scan number line {
        fatal := ⟨.fatal, setting.file, some number,
          "sub '" ++ name ++ "' is declared outside of any package"⟩
        diagnostics := closingNotices setting.file scan.sub }
  /-- A tag in a sub with metadata gets no guard. -/
  | tag {tag : Tag} {sub : Sub} {m : FunctionMetadata} {error : GuardError}
      (hr : scan.region = .code) (hk : LineKind.ofLine line.body = .tag tag)
      (hs : scan.sub = some sub) (hm : sub.metadata = some m)
      (he : guardFor setting.compiler sub m tag = .error error) :
      Stop setting scan number line {
        fatal := ⟨.fatal, setting.file, some number, error.message⟩ }

variable {setting : ScanSetting} {scan next : Scan} {number : Nat} {line : Line}
  {failure : ScanFailure} {lines : List Line} {y : Yield}

/-- A line that stops a scan is a step that fails. -/
theorem Stop.step_eq (h : Stop setting scan number line failure) :
    step setting scan number line = .error failure := by
  cases h with
  | package hr hk he => simp [step, hr, hk, enterPackage, he]
  | function hr hk hp => simp [step, hr, hk, enterSub, hp]
  | tag hr hk hs hm he => simp [step, hr, hk, insertGuard, hs, hm, he]

/-- A step that fails is a line that stops the scan. -/
theorem Stop.of_step (h : step setting scan number line = .error failure) :
    Stop setting scan number line failure := by
  have hfound {f : ScanFailure} (hstop : Stop setting scan number line f) :
      Stop setting scan number line failure := by
    obtain rfl : f = failure := Except.error.inj (hstop.step_eq.symm.trans h)
    exact hstop
  cases hr : scan.region with
  | data => simp [step, hr] at h
  | doc => by_cases hc : LineKind.closesDoc line.body <;> simp [step, hr, hc] at h
  | code =>
    cases hk : LineKind.ofLine line.body with
    | docOpen => simp [step, hr, hk] at h
    | docClose => simp [step, hr, hk] at h
    | endOfCode => simp [step, hr, hk] at h
    | other => simp [step, hr, hk] at h
    | package name =>
      cases he : setting.store name with
      | error error => exact hfound (.package hr hk he)
      | ok index => simp [step, hr, hk, enterPackage, he] at h
    | function name =>
      cases hp : scan.package with
      | none => exact hfound (.function hr hk hp)
      | some package => simp [step, hr, hk, enterSub, hp] at h
    | tag tag =>
      cases hs : scan.sub with
      | none => simp [step, hr, hk, insertGuard, hs] at h
      | some sub =>
        cases hm : sub.metadata with
        | none => simp [step, hr, hk, insertGuard, hs, hm] at h
        | some m =>
          cases he : guardFor setting.compiler sub m tag with
          | error error => exact hfound (.tag hr hk hs hm he)
          | ok guard => simp [step, hr, hk, insertGuard, hs, hm, he] at h

/-- Only a line in code stops a scan. -/
theorem Stop.region_eq (h : Stop setting scan number line failure) : scan.region = .code := by
  cases h with
  | package hr => exact hr
  | function hr => exact hr
  | tag hr => exact hr

/-- How a line ends does not matter for whether it stops a scan. -/
theorem Stop.of_body_eq {other : Line} (h : Stop setting scan number line failure)
    (hbody : other.body = line.body) : Stop setting scan number other failure := by
  obtain ⟨body, ending⟩ := line
  obtain ⟨body', ending'⟩ := other
  obtain rfl : body' = body := hbody
  cases h with
  | package hr hk he => exact .package hr hk he
  | function hr hk hp => exact .function hr hk hp
  | tag hr hk hs hm he => exact .tag hr hk hs hm he

/-- A run fails at a line that stops it, whatever follows. -/
theorem Stop.run_eq (h : Stop setting next (number + lines.length) line failure)
    (hrun : run setting scan number lines = .ok (next, y)) (after : List Line) :
    run setting scan number (lines ++ line :: after) = .error (failure.after y) := by
  have hrest : run setting next (number + lines.length) (line :: after) = .error failure := by
    rw [run, h.step_eq]
  rw [run_append_of_ok hrun, hrest]
  rfl

/-- A run that fails succeeds up to a line that stops it. -/
theorem exists_stop_of_run (h : run setting scan number lines = .error failure) :
    ∃ before line after next y f, lines = before ++ line :: after ∧
      run setting scan number before = .ok (next, y) ∧
      Stop setting next (number + before.length) line f ∧ failure = f.after y := by
  induction lines generalizing scan number failure with
  | nil => simp [run] at h
  | cons line rest ih =>
    rw [run] at h
    cases hstep : step setting scan number line with
    | error f =>
      obtain rfl : f = failure := by simpa [hstep] using h
      exact ⟨[], line, rest, scan, {}, f, rfl, rfl, Stop.of_step hstep, by simp [ScanFailure.after]⟩
    | ok result =>
      obtain ⟨next, y⟩ := result
      cases hrest : run setting next (number + 1) rest with
      | ok result => simp [hstep, hrest] at h
      | error f =>
        obtain rfl : f.after y = failure := by simpa [hstep, hrest] using h
        obtain ⟨before, stopping, after, last, ys, f, rfl, hbefore, hstop, rfl⟩ := ih hrest
        refine ⟨line :: before, stopping, after, last, y ++ ys, f, rfl, ?_, ?_, ?_⟩
        · simp [run, hstep, hbefore]
        · rwa [List.length_cons, Nat.add_comm before.length 1, ← Nat.add_assoc]
        · exact ScanFailure.after_after y ys f

end ArgGuard.Scan
