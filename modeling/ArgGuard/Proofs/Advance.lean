import ArgGuard.Proofs.Reading
import ArgGuard.Proofs.TagLine

/-!
# What a line does to a scan

A line that is scanned advances the scan in one of six ways. A run that succeeds is a chain of
such advances, in which each line gets a guard or none; conversely every chain is a run. What
holds of each advance is shown here once: the region, the text and the count of tags.
-/

namespace ArgGuard

namespace Scan

/-- The step that a log shows for a mark around documentation. -/
def docEvents (region : Region) (number : Nat) (line : Line) : List Event :=
  match region with
  | .data => []
  | .doc => if LineKind.closesDoc line.body then [.docClosed number] else []
  | .code =>
    match LineKind.ofLine line.body with
    | .docOpen => [.docOpened number]
    | _ => []

/-- Why a tag is left without effect, if it is. -/
def skipReason? (sub : Option Sub) (tag : Tag) : Option Text :=
  match sub with
  | none => some (Text.trimBlanksEnd tag.comment ++ " outside of any sub")
  | some sub =>
    match sub.metadata with
    | none => some ("no metadata for sub '" ++ sub.name ++ "'")
    | some _ => none

/-- What a line does to a scan, with the guard that the line gets. -/
inductive Advance (setting : ScanSetting) (scan : Scan) (number : Nat) (line : Line) :
    Option Guard → Scan → Yield → Prop
  /-- Nothing beyond a change of region. -/
  | quiet (h : scan.region = .code → (LineKind.ofLine line.body).isQuiet) :
      Advance setting scan number line none { scan with region := scan.region.behind line }
        { text := line.text, events := docEvents scan.region number line }
  /-- The code ends, and so does the sub. -/
  | codeEnd (hr : scan.region = .code) (hk : LineKind.ofLine line.body = .endOfCode) :
      Advance setting scan number line none { scan with region := .data, sub := none }
        { text := line.text, diagnostics := closingNotices setting.file scan.sub }
  /-- A package is entered. -/
  | package {name : Text} {index : MetadataIndex} (hr : scan.region = .code)
      (hk : LineKind.ofLine line.body = .package name) (hi : setting.store name = .ok index) :
      Advance setting scan number line none
        { scan with package := some ⟨name, index⟩, sub := none }
        { text := line.text
          diagnostics := closingNotices setting.file scan.sub
          events := [.packageLoaded name index.length] }
  /-- A sub is entered. -/
  | function {name : Text} {package : Package} (hr : scan.region = .code)
      (hk : LineKind.ofLine line.body = .function name) (hp : scan.package = some package) :
      Advance setting scan number line none
        { scan with sub := some { name, line := number, metadata := package.index.get? name } }
        { text := line.text
          diagnostics := closingNotices setting.file scan.sub
          events := [.subEntered package.name name (package.index.get? name).isSome] }
  /-- A tag has no effect. -/
  | skipped {tag : Tag} {reason : Text} (hr : scan.region = .code)
      (hk : LineKind.ofLine line.body = .tag tag) (hs : skipReason? scan.sub tag = some reason) :
      Advance setting scan number line none scan
        { text := line.text, diagnostics := [unchanged setting.file number reason] }
  /-- A tag gets its guard. -/
  | guarded {tag : Tag} {sub : Sub} {m : FunctionMetadata} {guard : Guard}
      (hr : scan.region = .code) (hk : LineKind.ofLine line.body = .tag tag)
      (hs : scan.sub = some sub) (hm : sub.metadata = some m)
      (hg : guardFor setting.compiler sub m tag = .ok guard) :
      Advance setting scan number line (some guard)
        { scan with sub := some (subAfter sub tag guard) }
        { text := tag.lead ++ guard.code ++ tag.comment ++ line.ending.text
          tags := 1
          events := [.guardInserted number sub.name guard.validated] }

variable {setting : ScanSetting} {scan next : Scan} {number : Nat} {line : Line}
  {guard : Option Guard} {y : Yield}

/-- An advance is a step that succeeds. -/
theorem Advance.step_eq (h : Advance setting scan number line guard next y) :
    step setting scan number line = .ok (next, y) := by
  cases h with
  | quiet hquiet =>
    obtain ⟨region, package, sub⟩ := scan
    unfold step Region.behind docEvents
    cases region with
    | data => rfl
    | doc => by_cases hc : LineKind.closesDoc line.body <;> simp [hc]
    | code =>
      have hk := hquiet rfl
      cases hkind : LineKind.ofLine line.body <;> simp_all [LineKind.isQuiet]
  | codeEnd hr hk => simp [step, hr, hk]
  | package hr hk hi => simp [step, hr, hk, enterPackage, hi]
  | function hr hk hp => simp [step, hr, hk, enterSub, hp]
  | @skipped tag reason hr hk hs =>
    simp only [step, hr, hk, insertGuard]
    cases hsub : scan.sub with
    | none => simp_all [skipReason?]
    | some sub =>
      cases hm : sub.metadata <;> simp_all [skipReason?]
  | guarded hr hk hs hm hg => simp [step, hr, hk, insertGuard, hs, hm, hg]

/-- A step that succeeds is an advance. -/
theorem Advance.of_step (h : step setting scan number line = .ok (next, y)) :
    ∃ guard, Advance setting scan number line guard next y := by
  have hfound {guard : Option Guard} {next' : Scan} {y' : Yield}
      (ha : Advance setting scan number line guard next' y') :
      ∃ guard, Advance setting scan number line guard next y := by
    obtain ⟨rfl, rfl⟩ : next' = next ∧ y' = y := by simpa [ha.step_eq] using h
    exact ⟨guard, ha⟩
  by_cases hquiet : scan.region = .code → (LineKind.ofLine line.body).isQuiet
  · exact hfound (.quiet hquiet)
  · obtain ⟨hr, hk⟩ := Classical.not_imp.1 hquiet
    simp only [step, hr] at h
    cases hkind : LineKind.ofLine line.body with
    | docOpen => simp [hkind, LineKind.isQuiet] at hk
    | docClose => simp [hkind, LineKind.isQuiet] at hk
    | other => simp [hkind, LineKind.isQuiet] at hk
    | endOfCode => exact hfound (.codeEnd hr hkind)
    | package name =>
      cases hi : setting.store name with
      | error e => simp [hkind, enterPackage, hi] at h
      | ok index => exact hfound (.package hr hkind hi)
    | function name =>
      cases hp : scan.package with
      | none => simp [hkind, enterSub, hp] at h
      | some package => exact hfound (.function hr hkind hp)
    | tag tag =>
      cases hs : skipReason? scan.sub tag with
      | some reason => exact hfound (.skipped hr hkind hs)
      | none =>
        cases hsub : scan.sub with
        | none => simp [hsub, skipReason?] at hs
        | some sub =>
          cases hm : sub.metadata with
          | none => simp [hsub, hm, skipReason?] at hs
          | some m =>
            cases hg : guardFor setting.compiler sub m tag with
            | error e => simp [hkind, insertGuard, hsub, hm, hg] at h
            | ok guard => exact hfound (.guarded hr hkind hsub hm hg)

/-- Every advance moves to the region behind its line. -/
theorem Advance.region_eq (h : Advance setting scan number line guard next y) :
    next.region = scan.region.behind line := by
  cases h with
  | quiet => rfl
  | codeEnd hr hk => simp [Region.behind, hr, hk]
  | package hr hk => simp [Region.behind, hr, hk]
  | function hr hk => simp [Region.behind, hr, hk]
  | skipped hr hk => simp [Region.behind, hr, hk]
  | guarded hr hk => simp [Region.behind, hr, hk]

/-- Every advance yields its line, with the guard that the line gets. -/
theorem Advance.text_eq (h : Advance setting scan number line guard next y) :
    y.text = (line.withGuard guard).text := by
  cases h with
  | guarded hr hk => simp [Line.withGuard_some (LineKind.ofLine?_of_ofLine_eq_tag hk), Line.text]
  | _ => rfl

/-- Every advance counts the guard of its line. -/
theorem Advance.tags_eq (h : Advance setting scan number line guard next y) :
    y.tags = if guard.isSome then 1 else 0 := by
  cases h <;> rfl

/-- How a line ends matters for its text only. -/
theorem Advance.of_body_eq {guard : Option Guard} {other : Line}
    (h : Advance setting scan number line guard next y) (hbody : other.body = line.body) :
    ∃ z, Advance setting scan number other guard next z ∧ z.diagnostics = y.diagnostics ∧
      z.events = y.events := by
  obtain ⟨body, ending⟩ := line
  obtain ⟨body', ending'⟩ := other
  obtain rfl : body' = body := hbody
  cases h with
  | quiet hquiet => exact ⟨_, .quiet hquiet, rfl, rfl⟩
  | codeEnd hr hk => exact ⟨_, .codeEnd hr hk, rfl, rfl⟩
  | package hr hk hi => exact ⟨_, .package hr hk hi, rfl, rfl⟩
  | function hr hk hp => exact ⟨_, .function hr hk hp, rfl, rfl⟩
  | skipped hr hk hs => exact ⟨_, .skipped hr hk hs, rfl, rfl⟩
  | guarded hr hk hs hm hg => exact ⟨_, .guarded hr hk hs hm hg, rfl, rfl⟩

/-- A run that succeeds as a chain of advances, with the guards that lines get by number. -/
inductive Runs (setting : ScanSetting) (guards : Nat → Option Guard) :
    Scan → Nat → List Line → Scan → Yield → Prop
  /-- No lines do nothing. -/
  | nil (scan : Scan) (number : Nat) : Runs setting guards scan number [] scan {}
  /-- A line advances the scan, and the others go on from there. -/
  | cons {scan next last : Scan} {number : Nat} {line : Line} {rest : List Line} {y ys : Yield}
      (hline : Advance setting scan number line (guards number) next y)
      (hrest : Runs setting guards next (number + 1) rest last ys) :
      Runs setting guards scan number (line :: rest) last (y ++ ys)

variable {guards : Nat → Option Guard} {last : Scan} {lines : List Line}

/-- Only the guards of the lines that are scanned matter. -/
theorem Runs.congr {others : Nat → Option Guard} (h : Runs setting guards scan number lines last y)
    (hsame : ∀ n, number ≤ n → guards n = others n) :
    Runs setting others scan number lines last y := by
  induction h with
  | nil => exact .nil ..
  | @cons scan next last number line rest y ys hline hrest ih =>
    refine .cons ?_ (ih fun n hn => hsame n (by omega))
    rw [← hsame number (by omega)]
    exact hline

/-- A run that succeeds is a chain of advances. -/
theorem Runs.of_run (h : run setting scan number lines = .ok (last, y)) :
    ∃ guards, Runs setting guards scan number lines last y ∧
      ∀ n, guards n ≠ none → number ≤ n ∧ n < number + lines.length := by
  induction lines generalizing scan number y with
  | nil =>
    simp only [run, Except.ok.injEq, Prod.mk.injEq] at h
    obtain ⟨rfl, rfl⟩ := h
    exact ⟨fun _ => none, .nil .., by simp⟩
  | cons line rest ih =>
    rw [run] at h
    cases hstep : step setting scan number line with
    | error failure => simp [hstep] at h
    | ok result =>
      obtain ⟨next, y₁⟩ := result
      cases hrun : run setting next (number + 1) rest with
      | error failure => simp [hstep, hrun] at h
      | ok result =>
        obtain ⟨final, ys⟩ := result
        obtain ⟨rfl, rfl⟩ : final = last ∧ y₁ ++ ys = y := by simpa [hstep, hrun] using h
        obtain ⟨guard, hadvance⟩ := Advance.of_step hstep
        obtain ⟨guards, hruns, hrange⟩ := ih hrun
        refine ⟨fun n => if n = number then guard else guards n, ?_, ?_⟩
        · refine .cons (by simpa using hadvance) (hruns.congr fun n hn => ?_)
          rw [if_neg (by omega)]
        · intro n hn
          rw [List.length_cons]
          by_cases he : n = number
          · omega
          · have hr := hrange n (by simpa [he] using hn)
            omega

/-- A chain of advances is a run that succeeds. -/
theorem Runs.run_eq (h : Runs setting guards scan number lines last y) :
    run setting scan number lines = .ok (last, y) := by
  induction h with
  | nil => rfl
  | cons hline hrest ih => simp [run, hline.step_eq, ih]

/-- A chain of advances over lines and further ones goes on from where it is after the first. -/
theorem Runs.append_inv {first others : List Line}
    (h : Runs setting guards scan number (first ++ others) last y) :
    ∃ middle y₁ y₂, Runs setting guards scan number first middle y₁ ∧
      Runs setting guards middle (number + first.length) others last y₂ ∧ y = y₁ ++ y₂ := by
  induction first generalizing scan number y with
  | nil => exact ⟨scan, {}, y, .nil .., h, (Yield.empty_append y).symm⟩
  | cons line rest ih =>
    cases h with
    | cons hline hrest =>
      obtain ⟨middle, y₁, y₂, hfirst, hothers, rfl⟩ := ih hrest
      refine ⟨middle, _, y₂, .cons hline hfirst, ?_, (Yield.append_assoc ..).symm⟩
      rw [List.length_cons, Nat.add_comm rest.length 1, ← Nat.add_assoc]
      exact hothers

/-- A chain of advances over lines and a further one ends with the advance of that one. -/
theorem Runs.concat_inv {first : List Line} {line : Line}
    (h : Runs setting guards scan number (first ++ [line]) last y) :
    ∃ middle y₁ y₂, Runs setting guards scan number first middle y₁ ∧
      Advance setting middle (number + first.length) line (guards (number + first.length)) last y₂ ∧
      y = y₁ ++ y₂ := by
  obtain ⟨middle, y₁, y₂, hfirst, hothers, rfl⟩ := h.append_inv
  cases hothers with
  | cons hline hrest =>
    cases hrest
    exact ⟨middle, y₁, _, hfirst, hline, by rw [Yield.append_empty]⟩

/-- A run yields its lines, with the guards that they get. -/
theorem Runs.text_eq (h : Runs setting guards scan number lines last y) :
    y.text = (lines.zipIdx number).flatMap fun (line, n) => (line.withGuard (guards n)).text := by
  induction h with
  | nil => rfl
  | cons hline hrest ih =>
    rw [Yield.text_append, hline.text_eq, ih, List.zipIdx_cons, List.flatMap_cons]

/-- A run counts the guards of its lines. -/
theorem Runs.tags_eq (h : Runs setting guards scan number lines last y) :
    y.tags = (List.range' number lines.length).countP fun n => (guards n).isSome := by
  induction h with
  | nil => rfl
  | cons hline hrest ih =>
    rw [Yield.tags_append, hline.tags_eq, ih, List.length_cons, List.range'_succ,
      List.countP_cons, Nat.add_comm]

/-- How lines end matters for the text of a run only. -/
theorem Runs.of_bodies_eq {others : List Line}
    (h : Runs setting guards scan number lines last y)
    (hbodies : others.map Line.body = lines.map Line.body) :
    ∃ z, Runs setting guards scan number others last z ∧ z.diagnostics = y.diagnostics ∧
      z.events = y.events := by
  induction h generalizing others with
  | nil =>
    obtain rfl : others = [] := by simpa using hbodies
    exact ⟨_, .nil .., rfl, rfl⟩
  | cons hline hrest ih =>
    cases others with
    | nil => simp at hbodies
    | cons other others =>
      rw [List.map_cons, List.map_cons, List.cons.injEq] at hbodies
      obtain ⟨z, hother, hdiagnostics, hevents⟩ := hline.of_body_eq hbodies.1
      obtain ⟨zs, hothers, hdiagnosticss, heventss⟩ := ih hbodies.2
      refine ⟨_, .cons hother hothers, ?_, ?_⟩
      · rw [Yield.diagnostics_append, Yield.diagnostics_append, hdiagnostics, hdiagnosticss]
      · rw [Yield.events_append, Yield.events_append, hevents, heventss]

end Scan

end ArgGuard
