import ArgGuard.Proofs.Advance

/-!
# The scan agrees with the reading by position

What a scan carries is read off the lines above: its region, the nearest package declaration,
and the open section with the guards of its lines. Every line keeps this agreement, so a run
that succeeds gives each line the guard that the reading by position asks for.
-/

namespace ArgGuard

/-- The sub of a section, with what the guards of the lines read so far have done. -/
def Section.sub (s : Section) (store : MetadataStore) (guards : Nat → Option Guard) : Sub where
  name := s.name
  line := s.number
  metadata := s.metadata? store
  validated := s.lines.flatMap fun c => ((guards c.number).map Guard.validated).getD []
  sawAll := s.lines.any fun c =>
    (guards c.number).isSome && c.tag?.any fun tag => tag.scope = .all
  declared := s.hasCode guards

/-- A line without a guard does nothing to the sub of its section. -/
theorem Section.sub_extend_of_none {s : Section} {store : MetadataStore}
    {guards : Nat → Option Guard} {c : CodeLine} (h : guards c.number = none) :
    (s.extend c).sub store guards = s.sub store guards := by
  simp [Section.sub, Section.extend, Section.hasCode, Section.metadata?, h]

/-- A tag with a guard does to the sub of its section what it does to the sub of a scan. -/
theorem Section.sub_extend_of_some {s : Section} {store : MetadataStore}
    {guards : Nat → Option Guard} {c : CodeLine} {tag : Tag} {guard : Guard}
    (ht : c.tag? = some tag) (hg : guards c.number = some guard) :
    (s.extend c).sub store guards = Scan.subAfter (s.sub store guards) tag guard := by
  simp [Section.sub, Section.extend, Section.hasCode, Section.metadata?, Scan.subAfter, ht, hg]

/-- The code lines of lines and a further one in code, nearest first. -/
theorem reverse_codeLines_concat {lines : List Line} {line : Line}
    (h : Region.behindAll .code lines = .code) :
    (codeLines (lines ++ [line])).reverse =
      ⟨lines.length + 1, line⟩ :: (codeLines lines).reverse := by
  rw [codeLines_concat, if_pos h, List.reverse_append]
  rfl

/-- A code line stands behind lines that leave it in code. -/
theorem exists_lines_of_codeLines_eq {lines : List Line} {above below : List CodeLine}
    {c : CodeLine} (h : codeLines lines = above ++ c :: below) :
    ∃ before after, lines = before ++ c.line :: after ∧ codeLines before = above ∧
      Region.behindAll .code before = .code ∧ c.number = before.length + 1 := by
  induction lines using List.reverseRecOn generalizing below with
  | nil => simp [codeLines, codeLinesFrom] at h
  | append_singleton lines line ih =>
    rw [codeLines_concat] at h
    by_cases hr : Region.behindAll .code lines = .code
    · rw [if_pos hr] at h
      rcases List.eq_nil_or_concat below with rfl | ⟨below, last, rfl⟩
      · -- The code line is the last line.
        obtain ⟨habove, hc⟩ := List.append_inj' h rfl
        obtain rfl := List.singleton_inj.1 hc
        exact ⟨lines, [], rfl, habove, hr, rfl⟩
      · rw [List.concat_eq_append, ← List.cons_append, ← List.append_assoc] at h
        obtain ⟨before, after, rfl, hcode⟩ := ih (List.append_inj' h rfl).1
        exact ⟨before, after ++ [line], by simp, hcode⟩
    · rw [if_neg hr, List.append_nil] at h
      obtain ⟨before, after, rfl, hcode⟩ := ih h
      exact ⟨before, after ++ [line], by simp, hcode⟩

/-- A line is found by its number. -/
theorem exists_lines_of_number {lines : List Line} {n : Nat} (hlow : 1 ≤ n)
    (hhigh : n < 1 + lines.length) :
    ∃ before line after, lines = before ++ line :: after ∧ n = before.length + 1 := by
  have hlt : n - 1 < lines.length := by omega
  refine ⟨lines.take (n - 1), lines[n - 1], lines.drop (n - 1 + 1), ?_, ?_⟩
  · rw [← List.drop_eq_getElem_cons hlt, List.take_append_drop]
  · rw [List.length_take]
    omega

namespace Scan

/-- A scan carries what is read off the lines above. -/
structure Agrees (setting : ScanSetting) (guards : Nat → Option Guard) (lines : List Line)
    (scan : Scan) : Prop where
  /-- It is in the region behind the lines. -/
  region : scan.region = Region.behindAll .code lines
  /-- Its package is the one that was declared last. -/
  package : scan.package.map Package.name = nearestPackage? (codeLines lines).reverse
  /-- The functions of its package are those that the store has. -/
  index : ∀ p, scan.package = some p → setting.store p.name = .ok p.index
  /-- Its sub is the one of the open section. -/
  sub : scan.sub =
    (openSection? (codeLines lines).reverse).map fun s => s.sub setting.store guards

variable {setting : ScanSetting} {guards : Nat → Option Guard} {lines : List Line} {line : Line}
  {scan next last : Scan} {y : Yield}

/-- The code lines above the line behind all others, from a scan that is in code. -/
theorem Agrees.reverse_codeLines_concat (h : Agrees setting guards lines scan)
    (hr : scan.region = .code) :
    (codeLines (lines ++ [line])).reverse =
      ⟨lines.length + 1, line⟩ :: (codeLines lines).reverse :=
  ArgGuard.reverse_codeLines_concat (h.region ▸ hr)

/-- A line in code that declares no package leaves the package that was declared last. -/
theorem Agrees.package_concat (h : Agrees setting guards lines scan) (hr : scan.region = .code)
    (hno : (LineKind.ofLine line.body).package? = none) :
    scan.package.map Package.name = nearestPackage? (codeLines (lines ++ [line])).reverse := by
  have hline : CodeLine.package? ⟨lines.length + 1, line⟩ = none := hno
  rw [h.reverse_codeLines_concat hr, nearestPackage?_cons hline, h.package]

/-- Outside of code the code lines stay what they are. -/
theorem Agrees.codeLines_concat_of_ne (h : Agrees setting guards lines scan)
    (hr : scan.region ≠ .code) : codeLines (lines ++ [line]) = codeLines lines := by
  rw [codeLines_concat, if_neg (h.region ▸ hr), List.append_nil]

/-- The package that a scan is in decides about the metadata of a sub that starts. -/
theorem Agrees.metadata?_eq (h : Agrees setting guards lines scan) {p : Package}
    (hp : scan.package = some p) (name : Text) (number : Nat) (own : List CodeLine) :
    Section.metadata? ⟨nearestPackage? (codeLines lines).reverse, name, number, own⟩
      setting.store = p.index.get? name := by
  rw [← h.package, hp]
  simp [Section.metadata?, h.index p hp, Except.toOption]

/-- A line without effect on package and sub keeps the agreement. -/
theorem Agrees.concat_of_none (h : Agrees setting guards lines scan)
    (hg : guards (lines.length + 1) = none)
    (hc : scan.region = .code → CodeLine.endsSection ⟨lines.length + 1, line⟩ = false)
    (hregion : next.region = scan.region.behind line) (hpackage : next.package = scan.package)
    (hsub : next.sub = scan.sub) : Agrees setting guards (lines ++ [line]) next := by
  have hbehind : next.region = Region.behindAll .code (lines ++ [line]) := by
    rw [hregion, h.region, Region.behindAll_concat]
  by_cases hr : scan.region = .code
  · have hends := hc hr
    refine ⟨hbehind, ?_, ?_, ?_⟩
    · rw [hpackage]
      exact h.package_concat hr (LineKind.package?_of_endsSection hends)
    · rw [hpackage]
      exact h.index
    · rw [hsub, h.reverse_codeLines_concat hr, openSection?_cons hends, h.sub, Option.map_map]
      congr 1
      funext s
      exact (Section.sub_extend_of_none hg).symm
  · have hsame : codeLines (lines ++ [line]) = codeLines lines := h.codeLines_concat_of_ne hr
    exact ⟨hbehind, by rw [hpackage, hsame, h.package], hpackage ▸ h.index,
      by rw [hsub, hsame, h.sub]⟩

/-- Every line keeps the agreement. -/
theorem Agrees.concat (h : Agrees setting guards lines scan)
    (ha : Advance setting scan (lines.length + 1) line (guards (lines.length + 1)) next y) :
    Agrees setting guards (lines ++ [line]) next := by
  have hregion : next.region = Region.behindAll .code (lines ++ [line]) := by
    rw [ha.region_eq, h.region, Region.behindAll_concat]
  -- The guard is an index of the advance, so the cases need it as a variable.
  generalize hguard : guards (lines.length + 1) = guard at ha
  cases ha with
  | quiet hquiet =>
    refine h.concat_of_none hguard (fun hr => ?_) rfl rfl rfl
    exact LineKind.endsSection_of_isQuiet (hquiet hr)
  | skipped hr hk hs =>
    refine h.concat_of_none hguard (fun _ => congrArg LineKind.endsSection hk) ?_ rfl rfl
    simp [Region.behind, hr, hk]
  | codeEnd hr hk =>
    refine ⟨hregion, ?_, h.index, ?_⟩
    · exact h.package_concat hr (congrArg LineKind.package? hk)
    · rw [h.reverse_codeLines_concat hr, openSection?]
      simp [CodeLine.kind, hk]
  | @package name index hr hk hi =>
    refine ⟨hregion, ?_, ?_, ?_⟩
    · rw [h.reverse_codeLines_concat hr]
      simp [nearestPackage?, CodeLine.package?, CodeLine.kind, hk, LineKind.package?]
    · rintro p hp
      obtain rfl := Option.some.inj hp
      exact hi
    · rw [h.reverse_codeLines_concat hr, openSection?]
      simp [CodeLine.kind, hk]
  | @function name package hr hk hp =>
    refine ⟨hregion, ?_, h.index, ?_⟩
    · exact h.package_concat hr (congrArg LineKind.package? hk)
    · rw [h.reverse_codeLines_concat hr, openSection?]
      simp only [CodeLine.kind, hk, Option.map_some, Option.some.injEq]
      rw [Section.sub, h.metadata?_eq hp]
      rfl
  | @guarded tag sub m guard hr hk hs hm hg =>
    have hends : CodeLine.endsSection ⟨lines.length + 1, line⟩ = false :=
      congrArg LineKind.endsSection hk
    have htag : CodeLine.tag? ⟨lines.length + 1, line⟩ = some tag := congrArg LineKind.tag? hk
    refine ⟨hregion, ?_, h.index, ?_⟩
    · exact h.package_concat hr (congrArg LineKind.package? hk)
    · obtain ⟨s, hopen, rfl⟩ := Option.map_eq_some_iff.1 (h.sub ▸ hs)
      rw [h.reverse_codeLines_concat hr, openSection?_cons hends, hopen]
      simp only [Option.map_some, Option.some.injEq]
      exact (Section.sub_extend_of_some htag hguard).symm

/-- A run from the start of a source ends in agreement with the reading by position. -/
theorem Runs.agrees (h : Runs setting guards {} 1 lines last y) :
    Agrees setting guards lines last := by
  induction lines using List.reverseRecOn generalizing last y with
  | nil =>
    cases h
    exact ⟨rfl, rfl, by simp, rfl⟩
  | append_singleton lines line ih =>
    obtain ⟨middle, y₁, y₂, hruns, hlast, -⟩ := h.concat_inv
    rw [Nat.add_comm] at hlast
    exact (ih hruns).concat hlast

/-- At every line of a run the scan agrees with the reading of the lines above. -/
theorem Runs.at_line {before after : List Line}
    (h : Runs setting guards {} 1 (before ++ line :: after) last y) :
    ∃ scan next y', Agrees setting guards before scan ∧
      Advance setting scan (before.length + 1) line (guards (before.length + 1)) next y' := by
  obtain ⟨scan, _, _, hbefore, hrest, -⟩ := h.append_inv
  rw [Nat.add_comm] at hrest
  cases hrest with
  | cons hline _ => exact ⟨scan, _, _, hbefore.agrees, hline⟩

/-- A tag in a scan gets what it asks for in its sub, unless it is a second one for all
arguments. -/
theorem guardFor_eq (compiler : SchemaCompiler) (sub : Sub) (m : FunctionMetadata) (tag : Tag) :
    guardFor compiler sub m tag =
      if tag.scope = .all ∧ sub.sawAll then .error (.duplicateAll sub.name)
      else Guard.forTag compiler sub.name m tag sub.declared := by
  unfold guardFor Guard.forTag
  cases tag.scope <;> simp

/-- A guard in a scan is the guard that the tag asks for in its sub. -/
theorem forTag_of_guardFor {compiler : SchemaCompiler} {sub : Sub} {m : FunctionMetadata}
    {tag : Tag} {guard : Guard} (h : guardFor compiler sub m tag = .ok guard) :
    Guard.forTag compiler sub.name m tag sub.declared = .ok guard := by
  rw [guardFor_eq] at h
  split at h
  next => simp at h
  next => exact h

/-- A run that succeeds gives the lines of a source their guards. -/
theorem Runs.areGuards (h : Runs setting guards {} 1 lines last y)
    (hrange : ∀ n, guards n ≠ none → 1 ≤ n ∧ n < 1 + lines.length) :
    AreGuards setting lines guards where
  in_code n hn := by
    obtain ⟨hlow, hhigh⟩ := hrange n hn
    obtain ⟨before, line, after, rfl, rfl⟩ := exists_lines_of_number hlow hhigh
    obtain ⟨scan, next, y', hagrees, hline⟩ := h.at_line
    obtain ⟨guard, hguard⟩ := Option.ne_none_iff_exists'.1 hn
    rw [hguard] at hline
    cases hline with
    | guarded hr hk hs hm hg =>
      refine ⟨⟨before.length + 1, line⟩, ?_, rfl⟩
      rw [codeLines, codeLinesFrom_append, codeLinesFrom, ← hagrees.region, hr, Nat.add_comm 1]
      simp
  of_other above c below hcode hnone := by
    obtain ⟨before, after, rfl, rfl, -, hnumber⟩ := exists_lines_of_codeLines_eq hcode
    obtain ⟨scan, next, y', hagrees, hline⟩ := h.at_line
    rw [← hnumber] at hline
    generalize guards c.number = guard at hline
    cases hline with
    | guarded hr hk hs hm hg =>
      obtain ⟨s, hopen, rfl⟩ := Option.map_eq_some_iff.1 (hagrees.sub ▸ hs)
      rw [taggedSub?_eq_some_iff.2 ⟨hk, hopen, hm⟩] at hnone
      simp at hnone
    | _ => rfl
  of_tag above c below tag s m hcode htagged := by
    obtain ⟨before, after, rfl, rfl, hregion, hnumber⟩ := exists_lines_of_codeLines_eq hcode
    obtain ⟨scan, next, y', hagrees, hline⟩ := h.at_line
    obtain ⟨htag, hopen, hm⟩ := taggedSub?_eq_some_iff.1 htagged
    have hsub : scan.sub = some (s.sub setting.store guards) := by
      rw [hagrees.sub, hopen, Option.map_some]
    have hcode : scan.region = .code := hagrees.region.trans hregion
    rw [← hnumber] at hline
    generalize hguard : guards c.number = guard at hline
    have hkind : LineKind.ofLine c.line.body = .tag tag := htag
    cases hline with
    | quiet hquiet => simpa [hkind, LineKind.isQuiet] using hquiet hcode
    | codeEnd hr hk => simp [hkind] at hk
    | package hr hk => simp [hkind] at hk
    | function hr hk => simp [hkind] at hk
    | skipped hr hk hs =>
      have hm' : (s.sub setting.store guards).metadata = some m := hm
      simp [hsub, skipReason?, hm'] at hs
    | @guarded tag' sub m' guard hr hk hs hm' hg =>
      obtain rfl : tag = tag' := by simpa [hkind] using hk
      obtain rfl : s.sub setting.store guards = sub := by simpa [hsub] using hs
      obtain rfl : m = m' := Option.some.inj (hm.symm.trans hm')
      exact ⟨guard, rfl, forTag_of_guardFor hg⟩

end Scan

end ArgGuard
