import ArgGuard.Proofs.Shift
import ArgGuard.Proofs.Splicing

/-!
# Boundaries between declarations

A declaration takes over from what stands above it. Behind a text that ends in code, a text that
starts with a package declaration is processed as if it stood alone, and one that starts with a
sub declaration as if it stood right behind the last package declaration. Only line numbers and
the notices for the sub that ends tell the difference.
-/

namespace ArgGuard

/-- The nearest line that declares a package, given the code lines above, nearest first. -/
def packageLine? (above : List CodeLine) : Option CodeLine :=
  above.find? fun c => c.package?.isSome

/-- The nearest line that declares a package is one of the lines, and declares the nearest
package. -/
theorem packageLine?_eq_some {above : List CodeLine} {c : CodeLine}
    (h : packageLine? above = some c) :
    c ∈ above ∧ ∃ name, c.kind = .package name ∧ nearestPackage? above = some name := by
  refine ⟨List.mem_of_find?_eq_some h, ?_⟩
  induction above with
  | nil => simp [packageLine?] at h
  | cons first above ih =>
    rw [packageLine?, List.find?_cons] at h
    cases hp : first.package? with
    | none =>
      rw [hp] at h
      rw [nearestPackage?_cons hp]
      exact ih h
    | some name =>
      rw [hp] at h
      obtain rfl := Option.some.inj h
      refine ⟨name, ?_, by simp [nearestPackage?, hp]⟩
      exact LineKind.package?_eq_some_iff.1 hp

/-- A text `b` that starts with a declaration, behind a text `a`, with the part of `a` that the
declaration depends on. -/
inductive Boundary (a b : Text) : Text → Prop
  /-- A package declaration depends on nothing. -/
  | package {first : Line} {rest : List Line} {name : Text} (hb : b.lines = first :: rest)
      (hk : LineKind.ofLine first.body = .package name) : Boundary a b []
  /-- A sub declaration depends on the line that declared its package. -/
  | function {first : Line} {rest : List Line} {name : Text} {c : CodeLine}
      (hb : b.lines = first :: rest) (hk : LineKind.ofLine first.body = .function name)
      (hc : packageLine? (codeLines a.lines).reverse = some c) : Boundary a b c.line.text

namespace Scan

variable {setting : ScanSetting} {guards : Nat → Option Guard} {scan entry : Scan} {number : Nat}
  {line : Line} {rest : List Line} {y : Yield}

/-- The result of a scan behind lines that yielded something. -/
def resultAfter (y : Yield) : Except ScanFailure (Scan × Yield) → Except ScanFailure (Scan × Yield)
  | .error failure => .error (failure.after y)
  | .ok (last, ys) => .ok (last, y ++ ys)

/-- Further lines do not undo a failure. -/
theorem run_append_of_error {lines : List Line} {failure : ScanFailure}
    (h : run setting scan number lines = .error failure) (others : List Line) :
    run setting scan number (lines ++ others) = .error failure := by
  rw [run_append, h]

/-- Further lines are scanned from where a scan that succeeds ends. -/
theorem run_append_of_ok {lines : List Line} {next : Scan}
    (h : run setting scan number lines = .ok (next, y)) (others : List Line) :
    run setting scan number (lines ++ others) =
      resultAfter y (run setting next (number + lines.length) others) := by
  rw [run_append, h]
  dsimp only
  cases run setting next (number + lines.length) others with
  | error failure => rfl
  | ok result => rfl

/-- Notices come in front of what lines yield. -/
theorem notices_append (notices : List Diagnostic) (text : Text) (events : List Event) :
    ({ diagnostics := notices } : Yield) ++ { text, events } =
      { text, diagnostics := notices, events } := by
  change Yield.append { diagnostics := notices } { text, events } = _
  simp [Yield.append]

/-- A package declaration ends the sub before it and takes nothing else over. -/
theorem step_package {name : Text} (hk : LineKind.ofLine line.body = .package name)
    (hscan : scan.region = .code) (hentry : entry.region = .code) (hsub : entry.sub = none) :
    step setting scan number line =
      resultAfter { diagnostics := closingNotices setting.file scan.sub }
        (step setting entry number line) := by
  have hnone : closingNotices setting.file none = [] := rfl
  simp only [step, hscan, hentry, hk, enterPackage, hsub, hnone]
  cases setting.store name with
  | error error => simp [resultAfter, ScanFailure.after]
  | ok index => simp only [resultAfter, notices_append]

/-- A sub declaration ends the sub before it and takes over the package only. -/
theorem step_function {name : Text} (hk : LineKind.ofLine line.body = .function name)
    (hscan : scan.region = .code) (hentry : entry.region = .code) (hsub : entry.sub = none)
    (hpackage : entry.package = scan.package) :
    step setting scan number line =
      resultAfter { diagnostics := closingNotices setting.file scan.sub }
        (step setting entry number line) := by
  have hnone : closingNotices setting.file none = [] := rfl
  simp only [step, hscan, hentry, hk, enterSub, hsub, hpackage, hnone]
  cases scan.package with
  | none => simp [resultAfter, ScanFailure.after]
  | some package => simp only [resultAfter, notices_append]

/-- What the first line does differently, all lines do. -/
theorem run_of_step {before : Yield}
    (h : step setting scan number line = resultAfter before (step setting entry number line)) :
    run setting scan number (line :: rest) =
      resultAfter before (run setting entry number (line :: rest)) := by
  rw [run, run, h]
  cases step setting entry number line with
  | error failure => rfl
  | ok result =>
    obtain ⟨next, ys⟩ := result
    simp only [resultAfter]
    cases run setting next (number + 1) rest with
    | error failure => simp only [ScanFailure.after_after]
    | ok result => simp only [Yield.append_assoc]

/-- Where a declaration starts a text, a scan goes on as from the scan of what the declaration
depends on, once the notices for the sub before it are out. -/
theorem run_boundary {a b p : Text} (hb : Boundary a b p) (ha : a.Terminated)
    (hrun : Runs setting guards {} 1 a.lines scan y) (hcode : scan.region = .code) :
    p.Terminated ∧ p.lines.length ≤ a.lines.length ∧
      ∃ entry yp, run setting {} 1 p.lines = .ok (entry, yp) ∧ entry.sub = none ∧
        yp.text = p ∧ yp.tags = 0 ∧ yp.diagnostics = [] ∧
        ∀ number, run setting scan number b.lines =
          resultAfter { diagnostics := closingNotices setting.file scan.sub }
            (run setting entry number b.lines) := by
  cases hb with
  | package hb hk =>
    refine ⟨.inl rfl, Nat.zero_le _, {}, {}, rfl, rfl, rfl, rfl, rfl, fun number => ?_⟩
    rw [hb]
    exact run_of_step (step_package hk hcode rfl rfl)
  | @function first rest name c hb hk hc =>
    have hagrees := hrun.agrees
    obtain ⟨hmem, packageName, hkp, hnearest⟩ := packageLine?_eq_some hc
    obtain ⟨above, below, hcodeLines⟩ := List.append_of_mem (List.mem_reverse.1 hmem)
    obtain ⟨before, after, hlines, -, -, -⟩ := exists_lines_of_codeLines_eq hcodeLines
    have hline : c.line ∈ a.lines := by simp [hlines]
    obtain ⟨hterminated, hcut⟩ := Text.lines_text_of_mem ha hline
    obtain ⟨package, hp, rfl⟩ := Option.map_eq_some_iff.1 (hagrees.package.trans hnearest)
    -- Scanned by itself, the line leads into the package that the scan is in.
    have hpackage : Runs setting (fun _ => none) {} 1 [c.line] { package := some package } _ :=
      .cons (.package rfl hkp (hagrees.index package hp)) (.nil ..)
    refine ⟨hterminated, ?_, { package := some package }, _, hcut ▸ hpackage.run_eq, rfl, ?_, rfl,
      rfl, fun number => ?_⟩
    · rw [hcut]
      exact List.length_pos_of_mem hline
    · simp
    · rw [hb]
      exact run_of_step (step_function hk hcode rfl rfl hp.symm)

/-- The lines of a text that starts with a declaration are scanned as behind what the declaration
depends on, some lines further down. -/
theorem run_boundary_shift {a b p : Text} (hb : Boundary a b p) (ha : a.Terminated)
    (hrun : Runs setting guards {} 1 a.lines scan y) (hcode : scan.region = .code) :
    p.Terminated ∧ ∃ entry yp, run setting {} 1 p.lines = .ok (entry, yp) ∧
      yp.text = p ∧ yp.tags = 0 ∧ yp.diagnostics = [] ∧
      run setting scan (1 + a.lines.length) b.lines =
        resultAfter { diagnostics := closingNotices setting.file scan.sub }
          (shiftResult (a.lines.length - p.lines.length)
            (run setting entry (1 + p.lines.length) b.lines)) := by
  obtain ⟨hp, hlength, entry, yp, hentry, hsub, htext, htags, hdiagnostics, hrest⟩ :=
    run_boundary hb ha hrun hcode
  refine ⟨hp, entry, yp, hentry, htext, htags, hdiagnostics, ?_⟩
  have hnumber : 1 + a.lines.length =
      1 + p.lines.length + (a.lines.length - p.lines.length) := by omega
  rw [hrest, ← run_shift, shift_eq_self _ hsub, ← hnumber]

/-- The result for a text behind another one with no line left open. -/
theorem process_append_eq (setting : ScanSetting) {a : Text} (ha : a.Terminated) (b : Text) :
    process setting (a ++ b) =
      match run setting {} 1 a.lines with
      | .error failure => .error failure
      | .ok (next, y) =>
        match run setting next (1 + a.lines.length) b.lines with
        | .error failure => .error (failure.after y)
        | .ok (last, ys) =>
          .ok (y ++ ys ++ { diagnostics := closingNotices setting.file last.sub }) := by
  rw [process, Text.lines_append ha, run_append]
  cases run setting {} 1 a.lines with
  | error failure => rfl
  | ok result =>
    obtain ⟨next, y⟩ := result
    simp only
    cases run setting next (1 + a.lines.length) b.lines <;> rfl

end Scan

/-- Nothing leaks across a boundary: a text that starts with a declaration is processed behind
another text as behind the part that the declaration depends on, with line numbers shifted. A
failure of the text above stays the same failure. -/
theorem process_boundary {setting : ScanSetting} {a b p : Text} (ha : a.Terminated)
    (hcode : ∀ last y, Scan.run setting {} 1 a.lines = .ok (last, y) → last.region = .code)
    (hb : Boundary a b p) :
    (∀ f, process setting a = .error f → process setting (a ++ b) = .error f) ∧
    (∀ y z, process setting a = .ok y → process setting (p ++ b) = .ok z →
      ∃ w rest, process setting (a ++ b) = .ok w ∧ z.text = p ++ rest ∧ w.text = y.text ++ rest ∧
        w.tags = y.tags + z.tags ∧
        w.diagnostics = y.diagnostics ++
          z.diagnostics.map (Diagnostic.shift (a.lines.length - p.lines.length))) ∧
    (∀ y f, process setting a = .ok y → process setting (p ++ b) = .error f →
      ∃ g, process setting (a ++ b) = .error g ∧
        g.fatal = f.fatal.shift (a.lines.length - p.lines.length) ∧
        g.diagnostics = y.diagnostics ++
          f.diagnostics.map (Diagnostic.shift (a.lines.length - p.lines.length))) := by
  have hwhole := Scan.process_append_eq setting ha b
  cases hrun : Scan.run setting {} 1 a.lines with
  | error failure =>
    have habove : process setting a = .error failure := by rw [process, hrun]
    simp only [hrun] at hwhole
    refine ⟨fun f hf => ?_, fun y z hy => ?_, fun y f hy => ?_⟩
    · rw [hwhole, ← habove, hf]
    · simp [habove] at hy
    · simp [habove] at hy
  | ok result =>
    obtain ⟨scan, ya⟩ := result
    obtain ⟨guards, hruns, -⟩ := Scan.Runs.of_run hrun
    obtain ⟨hp, entry, yp, hentry, htext, htags, hdiagnostics, hbehind⟩ :=
      Scan.run_boundary_shift hb ha hruns (hcode scan _ hrun)
    have habove : process setting a =
        .ok (ya ++ { diagnostics := Scan.closingNotices setting.file scan.sub }) := by
      rw [process, hrun]
    have hpart := Scan.process_append_eq setting hp b
    simp only [hrun, hbehind] at hwhole
    simp only [hentry] at hpart
    cases hrunb : Scan.run setting entry (1 + p.lines.length) b.lines with
    | error failure =>
      simp only [hrunb, Scan.shiftResult, Scan.resultAfter] at hpart hwhole
      refine ⟨fun f hf => ?_, fun y z hy hz => ?_, fun y f hy hf => ?_⟩
      · simp [habove] at hf
      · simp [hpart] at hz
      · obtain rfl := Except.ok.inj (habove.symm.trans hy)
        obtain rfl := Except.error.inj (hpart.symm.trans hf)
        refine ⟨_, hwhole, rfl, ?_⟩
        simp [ScanFailure.after, ScanFailure.shift, hdiagnostics]
    | ok result =>
      obtain ⟨last, ys⟩ := result
      simp only [hrunb, Scan.shiftResult, Scan.resultAfter] at hpart hwhole
      refine ⟨fun f hf => ?_, fun y z hy hz => ?_, fun y f hy hf => ?_⟩
      · simp [habove] at hf
      · obtain rfl := Except.ok.inj (habove.symm.trans hy)
        obtain rfl := Except.ok.inj (hpart.symm.trans hz)
        refine ⟨_, ys.text, hwhole, ?_, ?_, ?_, ?_⟩
        · simp [htext]
        · simp [Yield.shift]
        · simp [Yield.shift, htags]
        · simp [Yield.shift, hdiagnostics, Scan.shift, Scan.closingNotices_shift]
      · simp [hpart] at hf

/-- A sub without tags, in a package. -/
def bareSource : Text := "package Count;\nsub up \x7b\n\x7d\n"

/-- The sample ends in code. -/
theorem region_bareSource (last : Scan) (y : Yield)
    (h : Scan.run countSetting {} 1 bareSource.lines = .ok (last, y)) : last.region = .code := by
  have hrun : Scan.run countSetting {} 1 bareSource.lines = .ok (_, _) := rfl
  obtain ⟨rfl, -⟩ := Prod.mk.inj (Except.ok.inj (hrun.symm.trans h))
  rfl

/-- A sub behind another one in the same package gets its notice, two lines further down than
right behind the package declaration. -/
theorem process_boundary_bareSource :
    ∃ y z w rest, process countSetting bareSource = .ok y ∧
      process countSetting (("package Count;\n" : Text) ++ ("sub up \x7b\n\x7d\n" : Text)) = .ok z ∧
      process countSetting (bareSource ++ ("sub up \x7b\n\x7d\n" : Text)) = .ok w ∧
      z.text = ("package Count;\n" : Text) ++ rest ∧ w.text = y.text ++ rest ∧
      w.tags = y.tags + z.tags ∧
      w.diagnostics = y.diagnostics ++ z.diagnostics.map (Diagnostic.shift 2) := by
  let line : Line := ⟨"package Count;", .lineFeed⟩
  have hb : Boundary bareSource ("sub up \x7b\n\x7d\n" : Text) line.text :=
    @Boundary.function _ _ _ _ _ ⟨1, line⟩ rfl rfl rfl
  have hterminated : bareSource.Terminated := .inr rfl
  obtain ⟨w, rest, hw⟩ := (process_boundary hterminated region_bareSource hb).2.1 _ _ rfl rfl
  exact ⟨_, _, w, rest, rfl, rfl, hw⟩

end ArgGuard
