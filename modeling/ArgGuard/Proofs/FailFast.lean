import ArgGuard.Proofs.Completeness
import ArgGuard.Proofs.Stopping

/-!
# Failing fast

A source fails exactly if one of its lines in code is fatal: a package that the store does not
know, a sub outside of any package, or a tag that asks for what cannot be done. The lines above
decide whether a line is fatal, and the first fatal line decides about the failure. So neither
what stands below that line nor metadata that no tag uses can change it.
-/

namespace ArgGuard

/-- Whether a tag for all arguments stands in a section. -/
def Section.hasTagForAll (s : Section) : Bool :=
  s.lines.any fun c => c.tag?.any fun tag => tag.scope = .all

/-- A line in code that cannot be processed, with what is reported about it. The code lines above
are given, nearest first. -/
inductive Fatal (setting : ScanSetting) (above : List CodeLine) (c : CodeLine) : Text → Prop
  /-- A package without metadata. -/
  | package {name : Text} {error : MetadataError} (hk : c.kind = .package name)
      (he : setting.store name = .error error) :
      Fatal setting above c
        ("cannot load metadata for package '" ++ name ++ "': " ++ error.message)
  /-- A sub without a package above it. -/
  | function {name : Text} (hk : c.kind = .function name) (hp : nearestPackage? above = none) :
      Fatal setting above c ("sub '" ++ name ++ "' is declared outside of any package")
  /-- A second tag for all arguments of a sub. -/
  | secondAll {tag : Tag} {s : Section} {m : FunctionMetadata}
      (ht : taggedSub? setting.store above c = some (tag, s, m)) (hs : tag.scope = .all)
      (hall : s.hasTagForAll) :
      Fatal setting above c (GuardError.duplicateAll s.name).message
  /-- A tag that asks for a guard that cannot be had. -/
  | guard {tag : Tag} {s : Section} {m : FunctionMetadata} {declared : Bool} {error : GuardError}
      (ht : taggedSub? setting.store above c = some (tag, s, m))
      (hfirst : ¬ (tag.scope = .all ∧ s.hasTagForAll))
      (he : Guard.forTag setting.compiler s.name m tag declared = .error error) :
      Fatal setting above c error.message

/-- The first fatal line of a source, with the code lines above it and what is reported. -/
structure FirstFatal (setting : ScanSetting) (lines : List Line) (above : List CodeLine)
    (c : CodeLine) (message : Text) : Prop where
  /-- The line stands behind the lines above it. -/
  split : ∃ below, codeLines lines = above ++ c :: below
  /-- The line is fatal. -/
  fatal : Fatal setting above.reverse c message
  /-- No line above is fatal. -/
  first : ∀ before d after other, above = before ++ d :: after →
    ¬ Fatal setting before.reverse d other

/-- The lines in code around a line in code. -/
theorem codeLines_append_cons {before after : List Line} {line : Line}
    (h : Region.behindAll .code before = .code) :
    ∃ below, codeLines (before ++ line :: after) =
      codeLines before ++ ⟨before.length + 1, line⟩ :: below := by
  refine ⟨codeLinesFrom (Region.behind .code line) (before.length + 1 + 1) after, ?_⟩
  rw [codeLines, codeLinesFrom_append, h, codeLinesFrom, if_pos rfl, Nat.add_comm 1]
  rfl

section Guards

variable {setting : ScanSetting} {lines : List Line} {guards : Nat → Option Guard}
  {above below : List CodeLine} {s : Section} {m : FunctionMetadata}

/-- Where the tags above have their guards, a sub with metadata has seen a tag for all arguments
exactly if one stands in its section. -/
theorem AreGuards.sawAll_sub (h : AreGuards setting lines guards)
    (hcode : codeLines lines = above ++ below) (hopen : openSection? above.reverse = some s)
    (hm : s.metadata? setting.store = some m) :
    (s.sub setting.store guards).sawAll = s.hasTagForAll := by
  have hguard (c : CodeLine) (hc : c ∈ s.lines) :
      ((guards c.number).isSome && c.tag?.any fun tag => tag.scope = .all) =
        c.tag?.any fun tag => tag.scope = .all := by
    cases ht : c.tag? with
    | none => simp
    | some tag =>
      obtain ⟨guard, -, hg, -⟩ := h.of_mem_lines hcode hopen hm hc ht
      rw [hg, Option.isSome_some, Bool.true_and]
  rw [Section.hasTagForAll, Bool.eq_iff_iff, List.any_eq_true]
  simp only [Section.sub, List.any_eq_true]
  exact exists_congr fun c => and_congr_right fun hc => by rw [hguard c hc]

end Guards

namespace Scan

variable {setting : ScanSetting} {guards : Nat → Option Guard} {scan last : Scan}
  {lines : List Line} {line : Line} {failure : ScanFailure} {y : Yield}

/-- A line that stops a scan in agreement with the lines above is fatal. Its failure holds the
notices for the sub before it, unless it is a tag. -/
theorem Stop.fatal (h : Stop setting scan (lines.length + 1) line failure)
    (hagrees : Agrees setting guards lines scan) (hguards : AreGuards setting lines guards) :
    ∃ message, Fatal setting (codeLines lines).reverse ⟨lines.length + 1, line⟩ message ∧
      failure.fatal = ⟨.fatal, setting.file, some (lines.length + 1), message⟩ ∧
      closingNotices setting.file scan.sub = failure.diagnostics ++
        if (CodeLine.tag? ⟨lines.length + 1, line⟩).isSome then
          closingNotices setting.file scan.sub
        else [] := by
  cases h with
  | package hr hk he =>
    have htag : CodeLine.tag? ⟨lines.length + 1, line⟩ = none := congrArg LineKind.tag? hk
    refine ⟨_, .package hk he, rfl, ?_⟩
    rw [htag]
    exact (List.append_nil _).symm
  | function hr hk hp =>
    have htag : CodeLine.tag? ⟨lines.length + 1, line⟩ = none := congrArg LineKind.tag? hk
    refine ⟨_, .function hk ?_, rfl, ?_⟩
    · rw [← hagrees.package, hp, Option.map_none]
    · rw [htag]
      exact (List.append_nil _).symm
  | @tag tag sub m error hr hk hs hm he =>
    have htag : CodeLine.tag? ⟨lines.length + 1, line⟩ = some tag := congrArg LineKind.tag? hk
    obtain ⟨s, hopen, rfl⟩ := Option.map_eq_some_iff.1 (hagrees.sub ▸ hs)
    have hcode : codeLines lines = codeLines lines ++ [] := (List.append_nil _).symm
    have hall := hguards.sawAll_sub hcode hopen hm
    have htagged : taggedSub? setting.store (codeLines lines).reverse
        ⟨lines.length + 1, line⟩ = some (tag, s, m) := taggedSub?_eq_some_iff.2 ⟨hk, hopen, hm⟩
    rw [guardFor_eq, hall] at he
    have hnotices : closingNotices setting.file scan.sub =
        [] ++ if (CodeLine.tag? ⟨lines.length + 1, line⟩).isSome then
          closingNotices setting.file scan.sub else [] := by
      rw [htag, Option.isSome_some, if_pos rfl, List.nil_append]
    split at he
    next hsecond =>
      obtain rfl := Except.error.inj he
      exact ⟨_, .secondAll htagged hsecond.1 hsecond.2, rfl, hnotices⟩
    next hfirst => exact ⟨_, .guard htagged hfirst he, rfl, hnotices⟩

/-- A fatal line stops a scan in agreement with the lines above. -/
theorem Stop.of_fatal {message : Text}
    (h : Fatal setting (codeLines lines).reverse ⟨lines.length + 1, line⟩ message)
    (hr : scan.region = .code) (hagrees : Agrees setting guards lines scan)
    (hguards : AreGuards setting lines guards) :
    ∃ failure, Stop setting scan (lines.length + 1) line failure ∧
      failure.fatal = ⟨.fatal, setting.file, some (lines.length + 1), message⟩ := by
  have hcode : codeLines lines = codeLines lines ++ [] := (List.append_nil _).symm
  have hsub {s : Section} (hopen : openSection? (codeLines lines).reverse = some s) :
      scan.sub = some (s.sub setting.store guards) := by
    rw [hagrees.sub, hopen, Option.map_some]
  cases h with
  | package hk he => exact ⟨_, .package hr hk he, rfl⟩
  | function hk hp =>
    have hnone : scan.package = none := by
      rw [← Option.map_eq_none_iff, hagrees.package, hp]
    exact ⟨_, .function hr hk hnone, rfl⟩
  | @secondAll tag s m ht hs hall =>
    obtain ⟨hk, hopen, hm⟩ := taggedSub?_eq_some_iff.1 ht
    refine ⟨_, .tag hr hk (hsub hopen) hm ?_, rfl⟩
    rw [guardFor_eq, hguards.sawAll_sub hcode hopen hm, if_pos ⟨hs, hall⟩]
    rfl
  | @guard tag s m declared error ht hfirst he =>
    obtain ⟨hk, hopen, hm⟩ := taggedSub?_eq_some_iff.1 ht
    refine ⟨_, .tag hr hk (hsub hopen) hm ?_, rfl⟩
    rw [guardFor_eq, hguards.sawAll_sub hcode hopen hm, if_neg hfirst, Guard.forTag_eq_error_iff]
    exact Guard.forTag_eq_error_iff.1 he

/-- A run over lines, then a line that is fatal: the failure, whatever follows. -/
theorem run_of_fatal {message : Text} (hrun : run setting {} 1 lines = .ok (last, y))
    (hregion : Region.behindAll .code lines = .code)
    (h : Fatal setting (codeLines lines).reverse ⟨lines.length + 1, line⟩ message)
    (after : List Line) :
    ∃ f, run setting {} 1 (lines ++ line :: after) = .error f ∧
      f.fatal = ⟨.fatal, setting.file, some (lines.length + 1), message⟩ := by
  obtain ⟨guards, hruns, hrange⟩ := Runs.of_run hrun
  have hagrees := hruns.agrees
  obtain ⟨failure, hstop, hfatal⟩ :=
    Stop.of_fatal h (hagrees.region.trans hregion) hagrees (hruns.areGuards hrange)
  rw [Nat.add_comm] at hstop
  exact ⟨_, hstop.run_eq hrun after, hfatal⟩

/-- A run that succeeds meets no fatal line. -/
theorem not_fatal_of_run (hrun : run setting {} 1 lines = .ok (last, y))
    {above below : List CodeLine} {c : CodeLine} (hcode : codeLines lines = above ++ c :: below)
    (message : Text) : ¬ Fatal setting above.reverse c message := by
  intro h
  obtain ⟨before, after, rfl, rfl, hregion, hnumber⟩ := exists_lines_of_codeLines_eq hcode
  obtain ⟨number, line⟩ := c
  obtain rfl : number = before.length + 1 := hnumber
  cases hbefore : run setting {} 1 before with
  | error f =>
    rw [run_append_of_error hbefore] at hrun
    simp at hrun
  | ok result =>
    obtain ⟨f, hfailed, -⟩ := run_of_fatal hbefore hregion h after
    rw [hfailed] at hrun
    simp at hrun

/-- A run that fails succeeds up to the first fatal line, which stops it. -/
theorem exists_firstFatal_of_run (h : run setting {} 1 lines = .error failure) :
    ∃ before line after last y f message, lines = before ++ line :: after ∧
      run setting {} 1 before = .ok (last, y) ∧
      Stop setting last (1 + before.length) line f ∧ failure = f.after y ∧
      FirstFatal setting lines (codeLines before) ⟨before.length + 1, line⟩ message ∧
      f.fatal = ⟨.fatal, setting.file, some (before.length + 1), message⟩ ∧
      closingNotices setting.file last.sub = f.diagnostics ++
        if (CodeLine.tag? ⟨before.length + 1, line⟩).isSome then
          (openSection? (codeLines before).reverse).toList.flatMap (·.due setting)
        else [] := by
  obtain ⟨before, line, after, last, y, f, rfl, hrun, hstop, hfailure⟩ := exists_stop_of_run h
  obtain ⟨guards, hruns, hrange⟩ := Runs.of_run hrun
  have hagrees := hruns.agrees
  have hguards := hruns.areGuards hrange
  have hregion : Region.behindAll .code before = .code := hagrees.region ▸ hstop.region_eq
  have hcode : codeLines before = codeLines before ++ [] := (List.append_nil _).symm
  obtain ⟨message, hfatal, hreported, hnotices⟩ :=
    Stop.fatal (Nat.add_comm 1 _ ▸ hstop) hagrees hguards
  refine ⟨before, line, after, last, y, f, message, rfl, hrun, hstop, hfailure,
    ⟨codeLines_append_cons hregion, hfatal, ?_⟩, hreported, ?_⟩
  · intro farther d nearer other hsplit
    exact not_fatal_of_run hrun hsplit other
  · have hdue := hguards.closingNotices_eq hcode
    rw [← hagrees.sub] at hdue
    rwa [hdue] at hnotices ⊢

/-- The first fatal line makes a run fail. -/
theorem exists_run_of_firstFatal {above : List CodeLine} {c : CodeLine} {message : Text}
    (h : FirstFatal setting lines above c message) :
    ∃ f, run setting {} 1 lines = .error f ∧
      f.fatal = ⟨.fatal, setting.file, some c.number, message⟩ := by
  obtain ⟨below, hcode⟩ := h.split
  obtain ⟨before, after, rfl, rfl, hregion, hnumber⟩ := exists_lines_of_codeLines_eq hcode
  obtain ⟨number, line⟩ := c
  obtain rfl : number = before.length + 1 := hnumber
  cases hbefore : run setting {} 1 before with
  | ok result => exact run_of_fatal hbefore hregion h.fatal after
  | error f =>
    -- A failure above would come from a fatal line above.
    obtain ⟨_, _, _, _, _, _, other, -, -, -, -, habove, -⟩ := exists_firstFatal_of_run hbefore
    obtain ⟨below', hsplit⟩ := habove.split
    exact absurd habove.fatal (h.first _ _ below' other hsplit)

end Scan

/-- The fatal condition with which a source fails, if it fails. -/
def fatal? (setting : ScanSetting) (source : Text) : Option Diagnostic :=
  match process setting source with
  | .error f => some f.fatal
  | .ok _ => none

section Process

variable {setting : ScanSetting} {source : Text} {f : ScanFailure}

/-- A source fails exactly if the run over its lines does. -/
theorem process_eq_error_iff :
    process setting source = .error f ↔ Scan.run setting {} 1 source.lines = .error f := by
  rw [process]
  cases Scan.run setting {} 1 source.lines <;> simp

/-- The fatal condition of a source comes from its first fatal line. -/
theorem fatal?_eq_some_iff {d : Diagnostic} :
    fatal? setting source = some d ↔
      ∃ above c message, FirstFatal setting source.lines above c message ∧
        d = ⟨.fatal, setting.file, some c.number, message⟩ := by
  rw [fatal?]
  constructor
  · intro h
    cases hprocess : process setting source with
    | ok z => simp [hprocess] at h
    | error f =>
      rw [hprocess] at h
      obtain rfl := Option.some.inj h
      obtain ⟨_, _, _, _, _, _, message, -, -, -, rfl, hfirst, hfatal, -⟩ :=
        Scan.exists_firstFatal_of_run (process_eq_error_iff.1 hprocess)
      exact ⟨_, _, message, hfirst, hfatal⟩
  · rintro ⟨above, c, message, hfirst, rfl⟩
    obtain ⟨f, hrun, hfatal⟩ := Scan.exists_run_of_firstFatal hfirst
    rw [process_eq_error_iff.2 hrun, ← hfatal]

end Process

/-- Declarations of a function that agree in what a tag uses. -/
structure FunctionMetadata.AgreeFor (tag : Tag) (m other : FunctionMetadata) : Prop where
  /-- They have the same version. -/
  version : m.version = other.version
  /-- They have the same packing style. -/
  packing : m.packing = other.packing
  /-- A tag for one argument uses this argument. -/
  single : tag.scope = .single → m.args.get? tag.argumentName = other.args.get? tag.argumentName
  /-- A tag for all arguments uses all of them. -/
  all : tag.scope = .all → m.args = other.args

/-- Declarations that agree in what a tag uses give it the same arguments to check. -/
theorem FunctionMetadata.AgreeFor.targets_eq {tag : Tag} {m other : FunctionMetadata}
    (h : m.AgreeFor tag other) (function : Text) :
    Guard.targets function m tag = Guard.targets function other tag := by
  have hcheck : Guard.checkMetadata function m = Guard.checkMetadata function other := by
    have hversion : m.hasSupportedVersion = other.hasSupportedVersion := by
      rw [FunctionMetadata.hasSupportedVersion, FunctionMetadata.hasSupportedVersion, h.version]
    rw [Guard.checkMetadata, Guard.checkMetadata, hversion, h.version, h.packing]
  unfold Guard.targets
  rw [hcheck]
  cases hs : tag.scope with
  | single => rw [h.single hs]
  | all => rw [h.all hs, h.packing]

/-- Stores that agree in what the lines of a source use. -/
structure SameUse (lines : List Line) (store other : MetadataStore) : Prop where
  /-- The packages that are declared are found in both, or missing for the same reason. -/
  packages : ∀ c ∈ codeLines lines, ∀ name, c.package? = some name →
    (store name).map (fun _ => ()) = (other name).map fun _ => ()
  /-- The metadata of the sub around a tag agrees in what the tag uses. -/
  tags : ∀ above c below tag s, codeLines lines = above ++ c :: below → c.tag? = some tag →
    openSection? above.reverse = some s →
      Option.Rel (FunctionMetadata.AgreeFor tag) (s.metadata? store) (s.metadata? other)

/-- Agreement goes both ways. -/
theorem FunctionMetadata.AgreeFor.symm {tag : Tag} {m other : FunctionMetadata}
    (h : m.AgreeFor tag other) : other.AgreeFor tag m :=
  ⟨h.version.symm, h.packing.symm, fun hs => (h.single hs).symm, fun hs => (h.all hs).symm⟩

namespace SameUse

variable {lines : List Line} {store : MetadataStore}

/-- Stores agree in both directions. -/
theorem symm {other : MetadataStore} (h : SameUse lines store other) :
    SameUse lines other store where
  packages c hc name hname := (h.packages c hc name hname).symm
  tags above c below tag s hcode htag hopen := by
    have hrel := h.tags above c below tag s hcode htag hopen
    generalize s.metadata? store = first at hrel
    generalize s.metadata? other = second at hrel
    cases hrel with
    | none => exact .none
    | some hagree => exact .some hagree.symm

/-- Where a sub around a tag has metadata in one store, it has some in the other, which agrees in
what the tag uses. -/
theorem metadata?_eq {other : MetadataStore} (h : SameUse lines store other)
    {above below : List CodeLine} {c : CodeLine} {tag : Tag} {s : Section} {m : FunctionMetadata}
    (hcode : codeLines lines = above ++ c :: below)
    (ht : taggedSub? store above.reverse c = some (tag, s, m)) :
    ∃ m', taggedSub? other above.reverse c = some (tag, s, m') ∧ m.AgreeFor tag m' := by
  obtain ⟨hk, hopen, hm⟩ := taggedSub?_eq_some_iff.1 ht
  have hrel := h.tags above c below tag s hcode (LineKind.tag?_eq_some_iff.2 hk) hopen
  rw [hm] at hrel
  generalize hm' : s.metadata? other = second at hrel
  cases hrel with
  | some hagree => exact ⟨_, taggedSub?_eq_some_iff.2 ⟨hk, hopen, hm'⟩, hagree⟩

/-- A line is fatal with one store exactly as with another one that agrees in what the lines
use. -/
theorem fatal (setting : ScanSetting) (h : SameUse lines setting.store store)
    {above below : List CodeLine} {c : CodeLine} {message : Text}
    (hcode : codeLines lines = above ++ c :: below)
    (hfatal : Fatal setting above.reverse c message) :
    Fatal { setting with store } above.reverse c message := by
  cases hfatal with
  | @package name error hk he =>
    have hmem : c ∈ codeLines lines := by simp [hcode]
    have hname : c.package? = some name := LineKind.package?_eq_some_iff.2 hk
    have hsame := h.packages c hmem name hname
    rw [he] at hsame
    refine .package hk ?_
    cases hother : store name with
    | ok index => simp [hother, Except.map] at hsame
    | error other =>
      rw [hother] at hsame
      rw [Except.error.inj hsame]
      exact hother
  | function hk hp => exact .function hk hp
  | secondAll ht hs hall =>
    obtain ⟨m', ht', -⟩ := h.metadata?_eq hcode ht
    exact .secondAll ht' hs hall
  | @guard tag s m declared error ht hfirst he =>
    obtain ⟨m', ht', hagree⟩ := h.metadata?_eq hcode ht
    have htargets := hagree.targets_eq s.name
    have he' : Guard.forTag setting.compiler s.name m' tag declared = .error error := by
      rw [Guard.forTag_eq_error_iff] at he ⊢
      rwa [← htargets]
    exact .guard ht' hfirst he'

/-- Stores that agree in what the lines use have the same first fatal line. -/
theorem firstFatal (setting : ScanSetting) (h : SameUse lines setting.store store)
    {above : List CodeLine} {c : CodeLine} {message : Text}
    (hfirst : FirstFatal setting lines above c message) :
    FirstFatal { setting with store } lines above c message := by
  obtain ⟨⟨below, hcode⟩, hfatal, hnone⟩ := hfirst
  refine ⟨⟨below, hcode⟩, h.fatal setting hcode hfatal, ?_⟩
  rintro before d after other rfl hother
  have hsplit : codeLines lines = before ++ d :: (after ++ c :: below) := by simp [hcode]
  exact hnone before d after other rfl (h.symm.fatal { setting with store } hsplit hother)

/-- Stores that agree in what the lines of a source use fail alike on it. -/
theorem fatal?_eq {setting : ScanSetting} {source : Text}
    (h : SameUse source.lines setting.store store) :
    fatal? { setting with store } source = fatal? setting source := by
  refine Option.ext fun d => ?_
  rw [fatal?_eq_some_iff, fatal?_eq_some_iff]
  constructor
  · rintro ⟨above, c, message, hfirst, rfl⟩
    exact ⟨above, c, message, h.symm.firstFatal { setting with store } hfirst, rfl⟩
  · rintro ⟨above, c, message, hfirst, rfl⟩
    exact ⟨above, c, message, h.firstFatal setting hfirst, rfl⟩

end SameUse

/-- Lines that say the same up to the one that stops a run make it fail alike. -/
theorem Scan.Stop.run_of_take_eq {setting : ScanSetting} {before after others : List Line}
    {line : Line} {last : Scan} {y : Yield} {f : ScanFailure}
    (hstop : Scan.Stop setting last (1 + before.length) line f)
    (hrun : Scan.run setting {} 1 before = .ok (last, y))
    (hbodies : (others.take (before.length + 1)).map Line.body =
      ((before ++ line :: after).take (before.length + 1)).map Line.body) :
    Scan.run setting {} 1 others = .error (f.after y) := by
  have htake : (before ++ line :: after).take (before.length + 1) = before ++ [line] := by
    rw [List.take_length_add_append]
    rfl
  rw [htake, List.map_append] at hbodies
  obtain ⟨first, second, hsplit, hfirst, hsecond⟩ := List.map_eq_append_iff.1 hbodies
  obtain ⟨line', rfl, hbody⟩ := List.map_eq_singleton_iff.1 hsecond
  obtain ⟨guards, hruns, -⟩ := Scan.Runs.of_run hrun
  obtain ⟨z, hruns', hdiagnostics, hevents⟩ := hruns.of_bodies_eq hfirst
  have hlength : first.length = before.length := by
    simpa using congrArg List.length hfirst
  have hsame : f.after z = f.after y := by
    rw [ScanFailure.after, hdiagnostics, hevents]
    rfl
  have hlines : others = first ++ line' :: others.drop (before.length + 1) := calc
    others = others.take (before.length + 1) ++ others.drop (before.length + 1) :=
      (List.take_append_drop ..).symm
    _ = first ++ line' :: others.drop (before.length + 1) := by
      rw [hsplit, List.append_assoc, List.singleton_append]
  rw [hlines, ← hsame]
  refine Scan.Stop.run_eq ?_ hruns'.run_eq _
  rw [hlength]
  exact hstop.of_body_eq hbody

/-- A source fails exactly if one of its lines in code is fatal, and then the first fatal line is
reported. Every source whose lines say the same up to this one fails alike, and the lines above it
alone succeed with the same diagnostics. They end their last sub, though, which a package or sub
declaration does too but a tag does not. Metadata that no tag uses makes no difference. -/
theorem process_fails_fast (setting : ScanSetting) (source : Text) :
    ((∃ f, process setting source = .error f) ↔
      ∃ above c below message, codeLines source.lines = above ++ c :: below ∧
        Fatal setting above.reverse c message) ∧
    (∀ f, process setting source = .error f →
      ∃ above c message, FirstFatal setting source.lines above c message ∧
        f.fatal = ⟨.fatal, setting.file, some c.number, message⟩ ∧
        (∀ other : Text, (other.lines.take c.number).map Line.body =
            (source.lines.take c.number).map Line.body → process setting other = .error f) ∧
        ∃ y, process setting ((source.lines.take (c.number - 1)).flatMap Line.text) = .ok y ∧
          y.diagnostics = f.diagnostics ++
            if c.tag?.isSome then
              (openSection? above.reverse).toList.flatMap (·.due setting)
            else []) ∧
    ∀ store, SameUse source.lines setting.store store →
      fatal? { setting with store } source = fatal? setting source := by
  refine ⟨⟨?_, ?_⟩, ?_, fun store => SameUse.fatal?_eq⟩
  · rintro ⟨f, hf⟩
    obtain ⟨_, _, _, _, _, _, message, -, -, -, -, hfirst, -⟩ :=
      Scan.exists_firstFatal_of_run (process_eq_error_iff.1 hf)
    obtain ⟨below, hcode⟩ := hfirst.split
    exact ⟨_, _, below, message, hcode, hfirst.fatal⟩
  · rintro ⟨above, c, below, message, hcode, hfatal⟩
    cases hrun : Scan.run setting {} 1 source.lines with
    | error f => exact ⟨f, process_eq_error_iff.2 hrun⟩
    | ok result => exact absurd hfatal (Scan.not_fatal_of_run hrun hcode message)
  · intro f hf
    obtain ⟨before, line, after, last, y, failure, message, hlines, hrun, hstop, rfl, hfirst,
      hfatal, hnotices⟩ := Scan.exists_firstFatal_of_run (process_eq_error_iff.1 hf)
    refine ⟨codeLines before, ⟨before.length + 1, line⟩, message, hfirst, hfatal, ?_, ?_⟩
    · intro other hbodies
      rw [hlines] at hbodies
      exact process_eq_error_iff.2 (hstop.run_of_take_eq hrun hbodies)
    · have hbefore : Text.lines ((source.lines.take before.length).flatMap Line.text) = before := by
        have hcut := areLines_lines source
        rw [hlines] at hcut ⊢
        rw [List.take_left]
        exact hcut.of_append.lines_flatMap_text
      refine ⟨y ++ { diagnostics := Scan.closingNotices setting.file last.sub }, ?_, ?_⟩
      · rw [Nat.add_sub_cancel, process, hbefore, hrun]
      · rw [Yield.diagnostics_append, hnotices]
        exact (List.append_assoc ..).symm

/-- A source whose tag has a variable of the wrong kind, in a sub that requires an argument. -/
def listSource : Text := "package Count;\nsub up \x7b\n  my @n = @_; # VALIDATE_ARG\n\x7d\n"

/-- Another store for the sample. It has one more function, of a version that is not supported, and
one more argument, whose schema is no schema. -/
def crowdedStore : MetadataStore := fun package =>
  if package = ("Count" : Text) then
    .ok [("down", { version := Double.zero false, args := [("floor", {})] }),
      ("up", {
        version := FunctionMetadata.supportedVersion
        args := [("n", { schema := some .null, required := true }),
          ("step", { schema := some (.array []) })] })]
  else .error (.unitNotFound package)

/-- The tag of the sample uses nothing of what the other store has more. -/
theorem sameUse_crowdedStore : SameUse listSource.lines countSetting.store crowdedStore where
  packages c hc name hname := by
    have hcount : ∀ c ∈ codeLines listSource.lines, ∀ name ∈ c.package?, name = "Count" := by
      decide +kernel
    rw [hcount c hc name hname]
    rfl
  tags above c below tag s hcode htag hopen := by
    have hthird : ∀ n < (codeLines listSource.lines).length,
        ((codeLines listSource.lines)[n]?.bind CodeLine.tag?).isSome → n = 2 := by decide +kernel
    have hc : (codeLines listSource.lines)[above.length]? = some c := by simp [hcode]
    have hnumber : above.length = 2 := by
      refine hthird _ (by simp [hcode]) ?_
      rw [hc, Option.bind_some, htag]
      rfl
    have habove : (codeLines listSource.lines).take 2 = above := by simp [hcode, ← hnumber]
    have htagIs : ((codeLines listSource.lines)[2]?.bind CodeLine.tag?).map
        (fun tag => (tag.scope, tag.argumentName)) = some (Tag.Scope.single, ("n" : Text)) := by
      decide +kernel
    have hopenIs : (openSection? ((codeLines listSource.lines).take 2).reverse).map
        (fun s => (s.package, s.name)) = some (some ("Count" : Text), ("up" : Text)) := by
      decide +kernel
    rw [← hnumber, hc, Option.bind_some, htag] at htagIs
    rw [habove, hopen] at hopenIs
    obtain ⟨hscope, hname⟩ := Prod.mk.inj (Option.some.inj htagIs)
    obtain ⟨hpackage, hsub⟩ := Prod.mk.inj (Option.some.inj hopenIs)
    rw [Section.metadata?, Section.metadata?, hpackage, hsub]
    refine .some ⟨rfl, rfl, fun _ => ?_, fun hall => ?_⟩
    · rw [hname]
      rfl
    · simp [hscope] at hall

/-- The sample fails at its tag, without the notice that the lines above it alone give, and what the
other store has more makes no difference. -/
theorem process_fails_fast_listSource :
    (∃ f, process countSetting listSource = .error f ∧ f.fatal.line = some 3 ∧ f.diagnostics = [] ∧
      ∃ above c message, FirstFatal countSetting listSource.lines above c message ∧
        f.fatal = ⟨.fatal, countSetting.file, some c.number, message⟩ ∧
        (∀ other : Text, (other.lines.take c.number).map Line.body =
            (listSource.lines.take c.number).map Line.body →
          process countSetting other = .error f) ∧
        ∃ y, process countSetting ((listSource.lines.take (c.number - 1)).flatMap Line.text) =
            .ok y ∧
          y.diagnostics = f.diagnostics ++
            if c.tag?.isSome then
              (openSection? above.reverse).toList.flatMap (·.due countSetting)
            else []) ∧
    SameUse listSource.lines countSetting.store crowdedStore ∧
      fatal? { countSetting with store := crowdedStore } listSource =
        fatal? countSetting listSource :=
  ⟨⟨_, rfl, rfl, rfl, (process_fails_fast countSetting listSource).2.1 _ rfl⟩,
    sameUse_crowdedStore, (process_fails_fast countSetting listSource).2.2 _ sameUse_crowdedStore⟩

end ArgGuard
