import ArgGuard.Proofs.MissingCheck
import ArgGuard.Proofs.Sections
import ArgGuard.Proofs.Splicing
import Mathlib.Data.List.Nodup

/-!
# Completeness of the report

The notices of a source that is processed name exactly the required arguments to which no tag of
their section refers, section by section. A required argument without a notice has its check in
the guard of some tag of the section.
-/

namespace ArgGuard

/-- Whether a diagnostic is a notice. -/
def Diagnostic.isNotice (d : Diagnostic) : Bool := d.severity = .notice

/-- Whether a line is a tag that refers to an argument. -/
def CodeLine.covers (c : CodeLine) (argument : Text) : Bool :=
  c.tag?.any fun tag => Guard.covers tag argument

namespace Section

/-- The notice about a required argument. -/
def notice (s : Section) (file argument : Text) : Diagnostic where
  severity := .notice
  file := file
  line := some s.number
  message :=
    "argument '" ++ argument ++ "' of sub '" ++ s.name ++ "' is required but not validated"

/-- The notices due for a section: its required arguments to which no tag refers. -/
def due (s : Section) (setting : ScanSetting) : List Diagnostic :=
  match s.metadata? setting.store with
  | none => []
  | some m =>
    (m.requiredArgs.filter fun argument => !s.lines.any (·.covers argument)).map
      (s.notice setting.file)

/-- Different arguments have different notices. -/
theorem notice_injective (s : Section) (file : Text) : Function.Injective (s.notice file) := by
  intro a b h
  have hmessage := congrArg Diagnostic.message h
  simpa [notice] using hmessage

/-- No notice is due twice for a section. -/
theorem nodup_due (s : Section) (setting : ScanSetting) : (s.due setting).Nodup := by
  unfold due
  split
  next => exact List.nodup_nil
  next m _ =>
    have hfilter := List.Nodup.filter (fun argument => !s.lines.any (·.covers argument))
      m.nodup_requiredArgs
    exact List.Nodup.map (s.notice_injective setting.file) hfilter

/-- The notices due for a section are about the line of its sub. -/
theorem line_of_mem_due {s : Section} {setting : ScanSetting} {d : Diagnostic}
    (h : d ∈ s.due setting) : d.line = some s.number := by
  unfold due at h
  split at h
  next => simp at h
  next =>
    obtain ⟨argument, -, rfl⟩ := List.mem_map.1 h
    rfl

end Section

/-- No notice is due twice in a source. -/
theorem nodup_flatMap_due (setting : ScanSetting) (lines : List Line) :
    ((sections lines).flatMap (·.due setting)).Nodup := by
  refine List.nodup_flatMap.2 ⟨fun s _ => s.nodup_due setting, ?_⟩
  refine (pairwise_sections lines).imp fun {s t} hlt d hs ht => ?_
  have hline := Section.line_of_mem_due hs
  rw [Section.line_of_mem_due ht] at hline
  have hsame := Option.some.inj hline
  omega

section Guards

variable {setting : ScanSetting} {lines : List Line} {guards : Nat → Option Guard}
  {above below : List CodeLine} {s : Section} {m : FunctionMetadata} {c : CodeLine}

/-- A tag in a section has the guard that it asks for in the sub of the section. -/
theorem AreGuards.of_mem_lines (h : AreGuards setting lines guards)
    (hcode : codeLines lines = above ++ below) (hopen : openSection? above.reverse = some s)
    (hm : s.metadata? setting.store = some m) (hc : c ∈ s.lines) {tag : Tag}
    (ht : c.tag? = some tag) :
    ∃ guard declared, guards c.number = some guard ∧
      Guard.forTag setting.compiler s.name m tag declared = .ok guard := by
  obtain ⟨before, after, s', hsplit, hopen', hpackage, hname⟩ :=
    exists_split_of_mem_lines hcode hopen hc
  have hm' : s'.metadata? setting.store = some m := by
    rw [← hm, Section.metadata?, Section.metadata?, hpackage, hname]
  obtain ⟨guard, hguard, hfor⟩ := h.of_tag before c after tag s' m hsplit
    (taggedSub?_eq_some_iff.2 ⟨LineKind.tag?_eq_some_iff.1 ht, hopen', hm'⟩)
  rw [hname] at hfor
  exact ⟨guard, _, hguard, hfor⟩

/-- A line of a section that has a guard is a tag. -/
theorem AreGuards.tag?_of_mem_lines (h : AreGuards setting lines guards)
    (hcode : codeLines lines = above ++ below) (hopen : openSection? above.reverse = some s)
    (hc : c ∈ s.lines) {guard : Guard} (hg : guards c.number = some guard) :
    ∃ tag, c.tag? = some tag := by
  obtain ⟨before, after, s', hsplit, -⟩ := exists_split_of_mem_lines hcode hopen hc
  cases htagged : taggedSub? setting.store before.reverse c with
  | none =>
    have hnone := h.of_other before c after hsplit htagged
    simp [hg] at hnone
  | some tagged =>
    obtain ⟨tag, s, m⟩ := tagged
    exact ⟨tag, LineKind.tag?_eq_some_iff.2 (taggedSub?_eq_some_iff.1 htagged).1⟩

/-- A guard checks a declared argument exactly if its tag refers to it. -/
theorem Guard.mem_validated_iff {compiler : SchemaCompiler} {function : Text} {tag : Tag}
    {declared : Bool} {guard : Guard}
    (h : Guard.forTag compiler function m tag declared = .ok guard) {argument : Text}
    (hargument : argument ∈ Dictionary.keys m.args) :
    argument ∈ guard.validated ↔ Guard.covers tag argument := by
  cases hs : tag.scope with
  | single =>
    rw [Guard.validated_of_single h hs]
    simp [Guard.covers, hs, eq_comm]
  | all =>
    rw [Guard.validated_of_all h hs]
    simp [Guard.covers, hs, hargument]

/-- The guards of a section check a declared argument exactly if some tag refers to it. -/
theorem AreGuards.mem_validated_iff (h : AreGuards setting lines guards)
    (hcode : codeLines lines = above ++ below) (hopen : openSection? above.reverse = some s)
    (hm : s.metadata? setting.store = some m) {argument : Text}
    (hargument : argument ∈ Dictionary.keys m.args) :
    argument ∈ (s.sub setting.store guards).validated ↔
      s.lines.any (·.covers argument) := by
  simp only [Section.sub, List.mem_flatMap, List.any_eq_true]
  constructor
  · rintro ⟨c, hc, hmem⟩
    cases hg : guards c.number with
    | none => simp [hg] at hmem
    | some guard =>
      obtain ⟨tag, ht⟩ := h.tag?_of_mem_lines hcode hopen hc hg
      obtain ⟨guard', declared, hguard, hfor⟩ := h.of_mem_lines hcode hopen hm hc ht
      obtain rfl : guard = guard' := Option.some.inj (hg.symm.trans hguard)
      rw [hg, Option.map_some, Option.getD_some] at hmem
      refine ⟨c, hc, ?_⟩
      rw [CodeLine.covers, ht, Option.any_some]
      exact (Guard.mem_validated_iff hfor hargument).1 hmem
  · rintro ⟨c, hc, hcovers⟩
    cases ht : c.tag? with
    | none => simp [CodeLine.covers, ht] at hcovers
    | some tag =>
      rw [CodeLine.covers, ht, Option.any_some] at hcovers
      obtain ⟨guard, declared, hguard, hfor⟩ := h.of_mem_lines hcode hopen hm hc ht
      refine ⟨c, hc, ?_⟩
      rw [hguard, Option.map_some, Option.getD_some]
      exact (Guard.mem_validated_iff hfor hargument).2 hcovers

/-- Where a sub with metadata ends, the scan gives notices for the required arguments that are not
checked. -/
theorem Section.closingNotices_sub {s : Section} (hm : s.metadata? setting.store = some m) :
    Scan.closingNotices setting.file (some (s.sub setting.store guards)) =
      (m.requiredArgs.filter fun argument =>
        !(s.sub setting.store guards).validated.contains argument).map
          (s.notice setting.file) := by
  have hmetadata : (s.sub setting.store guards).metadata = some m := hm
  have hname : (s.sub setting.store guards).name = s.name := rfl
  have hline : (s.sub setting.store guards).line = s.number := rfl
  revert hmetadata hname hline
  generalize s.sub setting.store guards = sub
  obtain ⟨name, line, metadata, validated, sawAll, declared⟩ := sub
  rintro rfl rfl rfl
  rfl

/-- Where a section ends, the scan gives exactly the notices due for it. -/
theorem AreGuards.closingNotices_eq (h : AreGuards setting lines guards)
    (hcode : codeLines lines = above ++ below) :
    Scan.closingNotices setting.file
        ((openSection? above.reverse).map fun s => s.sub setting.store guards) =
      (openSection? above.reverse).toList.flatMap (·.due setting) := by
  cases hopen : openSection? above.reverse with
  | none => rfl
  | some s =>
    rw [Option.map_some, Option.toList_some, List.flatMap_singleton, Section.due]
    cases hm : s.metadata? setting.store with
    | none => simp [Scan.closingNotices, Section.sub, hm]
    | some m =>
      rw [Section.closingNotices_sub hm]
      refine congrArg (List.map _) (List.filter_congr fun argument hrequired => ?_)
      have hiff := h.mem_validated_iff hcode hopen hm
        (FunctionMetadata.mem_keys_of_mem_requiredArgs hrequired)
      rw [← List.contains_iff_mem, ← Bool.eq_iff_iff] at hiff
      rw [hiff]

end Guards

namespace Scan

variable {setting : ScanSetting} {guards : Nat → Option Guard} {scan next last : Scan}
  {number : Nat} {line : Line} {lines : List Line} {guard : Option Guard} {y : Yield}

/-- All that is reported where a sub ends is notices. -/
theorem filter_isNotice_closingNotices (file : Text) (sub : Option Sub) :
    (closingNotices file sub).filter Diagnostic.isNotice = closingNotices file sub := by
  refine List.filter_eq_self.2 fun d hd => ?_
  unfold closingNotices at hd
  split at hd
  next =>
    obtain ⟨argument, -, rfl⟩ := List.mem_map.1 hd
    rfl
  next => simp at hd

/-- Notices come only from lines that end a section. -/
theorem Advance.notices_eq (h : Advance setting scan number line guard next y) :
    y.diagnostics.filter Diagnostic.isNotice =
      if scan.region = .code ∧ CodeLine.endsSection ⟨number, line⟩ then
        closingNotices setting.file scan.sub
      else [] := by
  cases h with
  | quiet hquiet =>
    rw [if_neg]
    · rfl
    · rintro ⟨hr, hends⟩
      have hquietEnds := LineKind.endsSection_of_isQuiet (hquiet hr)
      exact Bool.false_ne_true (hquietEnds.symm.trans hends)
  | skipped hr hk hs =>
    have hends : CodeLine.endsSection ⟨number, line⟩ = false := congrArg LineKind.endsSection hk
    rw [hends, if_neg (by simp)]
    rfl
  | guarded hr hk hs hm hg =>
    have hends : CodeLine.endsSection ⟨number, line⟩ = false := congrArg LineKind.endsSection hk
    rw [hends, if_neg (by simp)]
    rfl
  | codeEnd hr hk =>
    rw [if_pos ⟨hr, congrArg LineKind.endsSection hk⟩]
    exact filter_isNotice_closingNotices ..
  | package hr hk hi =>
    rw [if_pos ⟨hr, congrArg LineKind.endsSection hk⟩]
    exact filter_isNotice_closingNotices ..
  | function hr hk hp =>
    rw [if_pos ⟨hr, congrArg LineKind.endsSection hk⟩]
    exact filter_isNotice_closingNotices ..

/-- A run has given the notices due for the sections that have ended. -/
theorem Runs.notices_eq {whole : List Line} (h : Runs setting guards {} 1 lines last y)
    (hguards : AreGuards setting whole guards) {below : List CodeLine}
    (hcode : codeLines whole = codeLines lines ++ below) :
    y.diagnostics.filter Diagnostic.isNotice =
      (closedSections (codeLines lines).reverse).flatMap (·.due setting) := by
  induction lines using List.reverseRecOn generalizing last y below with
  | nil =>
    cases h
    rfl
  | append_singleton lines line ih =>
    -- The last line adds the notices for the open section if it ends one.
    obtain ⟨middle, y₁, y₂, hruns, hlast, rfl⟩ := h.concat_inv
    have hagrees := hruns.agrees
    rw [Nat.add_comm] at hlast
    rw [codeLines_concat, List.append_assoc] at hcode
    rw [Yield.diagnostics_append, List.filter_append, ih hruns hcode, hlast.notices_eq,
      hagrees.sub, hguards.closingNotices_eq hcode]
    by_cases hr : middle.region = .code
    · rw [hagrees.reverse_codeLines_concat hr, closedSections, List.flatMap_append]
      cases hends : CodeLine.endsSection ⟨lines.length + 1, line⟩ with
      | true => simp [hr]
      | false => simp
    · rw [hagrees.codeLines_concat_of_ne hr, if_neg (fun hc => hr hc.1), List.append_nil]

end Scan

/-- A required argument of a section whose notice is not due has its check in the guard of some
tag of the section. -/
theorem AreGuards.exists_missingCheck {setting : ScanSetting} {lines : List Line}
    {guards : Nat → Option Guard} (h : AreGuards setting lines guards) {s : Section}
    (hs : s ∈ sections lines) {m : FunctionMetadata} (hm : s.metadata? setting.store = some m)
    {argument : Text} (hrequired : argument ∈ m.requiredArgs)
    (hdue : s.notice setting.file argument ∉ s.due setting) :
    ∃ c ∈ s.lines, ∃ tag guard, c.tag? = some tag ∧ Guard.covers tag argument ∧
      guards c.number = some guard ∧ Guard.missingCheck m tag argument <:+: guard.code := by
  obtain ⟨above, below, hcode, hopen⟩ := openSection?_of_mem_sections hs
  have hcovers : s.lines.any (·.covers argument) := by
    by_contra hno
    refine hdue ?_
    rw [Section.due, hm]
    refine List.mem_map.2 ⟨argument, List.mem_filter.2 ⟨hrequired, ?_⟩, rfl⟩
    rw [Bool.not_eq_true] at hno
    rw [hno, Bool.not_false]
  obtain ⟨c, hc, hcovered⟩ := List.any_eq_true.1 hcovers
  obtain ⟨tag, ht, htag⟩ := (Option.any_eq_true _ _).1 hcovered
  obtain ⟨guard, declared, hguard, hfor⟩ := h.of_mem_lines hcode hopen hm hc ht
  exact ⟨c, hc, tag, guard, ht, htag, hguard, Guard.missingCheck_infix hfor hrequired htag⟩

/-- The report on a source that is processed is exact. Section by section its notices name the
required arguments to which no tag of the section refers, each once. Every other required
argument has its check in the code in front of a tag of the section. -/
theorem process_reports {setting : ScanSetting} {source : Text} {z : Yield}
    (h : process setting source = .ok z) :
    z.diagnostics.filter Diagnostic.isNotice = (sections source.lines).flatMap (·.due setting) ∧
    (z.diagnostics.filter Diagnostic.isNotice).Nodup ∧
    ∃ guards, AreGuards setting source.lines guards ∧
      z.text.lines = (source.lines.zipIdx 1).map (fun (line, n) => line.withGuard (guards n)) ∧
      ∀ s ∈ sections source.lines, ∀ m, s.metadata? setting.store = some m →
        ∀ argument ∈ m.requiredArgs, s.notice setting.file argument ∉ z.diagnostics →
          ∃ c ∈ s.lines, ∃ tag guard, c.tag? = some tag ∧ Guard.covers tag argument ∧
            guards c.number = some guard ∧ Guard.missingCheck m tag argument <:+: guard.code := by
  obtain ⟨guards, last, y, hruns, hguards, rfl⟩ := runs_of_process h
  have hcode : codeLines source.lines = codeLines source.lines ++ [] := (List.append_nil _).symm
  have hnotices : (y.diagnostics ++ Scan.closingNotices setting.file last.sub).filter
      Diagnostic.isNotice = (sections source.lines).flatMap (·.due setting) := by
    rw [List.filter_append, hruns.notices_eq hguards hcode, Scan.filter_isNotice_closingNotices,
      hruns.agrees.sub, hguards.closingNotices_eq hcode, sections_eq, List.flatMap_append]
  rw [Yield.diagnostics_append]
  refine ⟨hnotices, hnotices ▸ nodup_flatMap_due setting source.lines, guards, hguards, ?_, ?_⟩
  · rw [Yield.text_append, List.append_nil]
    exact hruns.lines_text (areLines_lines source)
  · intro s hs m hm argument hrequired hmissing
    refine hguards.exists_missingCheck hs hm hrequired fun hdue => hmissing ?_
    have hmem : s.notice setting.file argument ∈
        (sections source.lines).flatMap (·.due setting) := List.mem_flatMap.2 ⟨s, hs, hdue⟩
    rw [← hnotices] at hmem
    exact (List.mem_filter.1 hmem).1

/-- In the sample one of two subs checks its required argument, and the other one gets a
notice. -/
theorem process_reports_countSource :
    ∃ z, process countSetting countSource = .ok z ∧ z.diagnostics.length = 1 ∧
      z.diagnostics.filter Diagnostic.isNotice =
        (sections countSource.lines).flatMap (·.due countSetting) ∧
      (z.diagnostics.filter Diagnostic.isNotice).Nodup ∧
      ∃ guards, AreGuards countSetting countSource.lines guards ∧
        z.text.lines =
          (countSource.lines.zipIdx 1).map (fun (line, n) => line.withGuard (guards n)) ∧
        ∀ s ∈ sections countSource.lines, ∀ m, s.metadata? countSetting.store = some m →
          ∀ argument ∈ m.requiredArgs, s.notice countSetting.file argument ∉ z.diagnostics →
            ∃ c ∈ s.lines, ∃ tag guard, c.tag? = some tag ∧ Guard.covers tag argument ∧
              guards c.number = some guard ∧ Guard.missingCheck m tag argument <:+: guard.code :=
  ⟨_, rfl, rfl, process_reports rfl⟩

end ArgGuard
