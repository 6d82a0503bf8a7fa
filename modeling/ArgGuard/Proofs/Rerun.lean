import ArgGuard.Proofs.Splicing

/-!
# Processing twice

What processing puts into a source is never taken for a tag, nor for any other line that counts.
A second run walks through the text of the first one line by line in the same regions, packages
and subs. Only tags whose guard has no code are tags once more, and they get the same guard
again, so the text stays and no notice or warning is lost.
-/

namespace ArgGuard

/-- A guard without code leaves its line as it is. -/
theorem Line.withGuard_of_code_eq_nil {line : Line} {guard : Guard} (h : guard.code = []) :
    line.withGuard (some guard) = line := by
  unfold Line.withGuard
  cases ht : Tag.ofLine? line.body with
  | none => rfl
  | some tag =>
    have hbody := Tag.lead_append_comment ht
    simp [h, hbody]

/-- Of a guard what a second run sees: the tag is still there only if there was no code. -/
def Guard.again? (guard : Option Guard) : Option Guard := guard.filter fun g => g.code.isEmpty

/-- A guard without code is seen again. -/
theorem Guard.again?_of_code_eq_nil {guard : Guard} (h : guard.code = []) :
    Guard.again? (some guard) = some guard := by
  rw [Guard.again?, Option.filter_some, h]
  rfl

/-- A guard with code is not seen again. -/
theorem Guard.again?_of_code_ne_nil {guard : Guard} (h : guard.code ≠ []) :
    Guard.again? (some guard) = none := by
  rw [Guard.again?, Option.filter_some, if_neg (by simpa using h)]

/-- A guard that is given again leaves the line as it is. -/
theorem Line.withGuard_again (line : Line) (guard : Option Guard) :
    (line.withGuard guard).withGuard (Guard.again? guard) = line.withGuard guard := by
  cases guard with
  | none => rfl
  | some g =>
    by_cases hcode : g.code = []
    · rw [Guard.again?_of_code_eq_nil hcode, Line.withGuard_of_code_eq_nil hcode,
        Line.withGuard_of_code_eq_nil hcode]
    · rw [Guard.again?_of_code_ne_nil hcode, Line.withGuard_none]

namespace Scan

/-- A sub in a second run, for which tags have done no more than in the first one. -/
structure SubTrails (second first : Sub) : Prop where
  /-- It is the same sub. -/
  name : second.name = first.name
  /-- It is declared on the same line. -/
  line : second.line = first.line
  /-- It has the same metadata. -/
  metadata : second.metadata = first.metadata
  /-- No further argument is checked. -/
  validated : second.validated ⊆ first.validated
  /-- No further tag for all arguments was met. -/
  sawAll : second.sawAll → first.sawAll

/-- A second run at the same line, where tags have done no more than in the first one. -/
structure Trails (second first : Scan) : Prop where
  /-- It is in the same region. -/
  region : second.region = first.region
  /-- It is in the same package. -/
  package : second.package = first.package
  /-- It is in the same sub. -/
  sub : Option.Rel SubTrails second.sub first.sub

variable {setting : ScanSetting} {guards : Nat → Option Guard} {first second next last : Scan}
  {number : Nat} {line : Line} {lines : List Line} {guard : Option Guard} {y : Yield}

/-- Where less is checked, no notice is missing. -/
theorem Trails.closingNotices_sublist (h : Trails second first) (file : Text) :
    (closingNotices file first.sub).Sublist (closingNotices file second.sub) := by
  obtain ⟨region, package, sub⟩ := first
  obtain ⟨region', package', sub'⟩ := second
  cases h.sub with
  | none => exact List.Sublist.refl _
  | @some s' s hsub =>
    obtain ⟨name, number, metadata, validated, sawAll, declared⟩ := s
    obtain ⟨name', number', metadata', validated', sawAll', declared'⟩ := s'
    obtain ⟨rfl, rfl, rfl, hvalidated, -⟩ := hsub
    cases metadata' with
    | none => exact List.Sublist.refl _
    | some m =>
      refine List.Sublist.map _ (List.monotone_filter_right _ fun argument hargument => ?_)
      rw [Bool.not_eq_true', ← Bool.not_eq_true, List.contains_iff_mem] at hargument ⊢
      exact fun hmem => hargument (hvalidated hmem)

/-- A tag that has no effect has none in the second run, for the same reason. -/
theorem Trails.skipReason?_eq (h : Trails second first) (tag : Tag) :
    skipReason? second.sub tag = skipReason? first.sub tag := by
  obtain ⟨region, package, sub⟩ := first
  obtain ⟨region', package', sub'⟩ := second
  cases h.sub with
  | none => rfl
  | some hsub => simp only [skipReason?, hsub.metadata, hsub.name]

/-- A guard without code is given again. -/
theorem SubTrails.guardFor_eq {second first : Sub} (h : SubTrails second first)
    {compiler : SchemaCompiler} {m : FunctionMetadata} {tag : Tag} {g : Guard}
    (hg : guardFor compiler first m tag = .ok g) (hcode : g.code = []) :
    guardFor compiler second m tag = .ok g := by
  obtain ⟨g', hfor, hvalidated, hempty⟩ :=
    Guard.forTag_redeclare (forTag_of_guardFor hg) second.declared
  have hsame : g' = g := by
    obtain ⟨code, validated⟩ := g
    obtain ⟨code', validated'⟩ := g'
    simp only at hcode hvalidated hempty
    rw [hcode, hvalidated, hempty.2 hcode]
  rw [hsame, ← h.name] at hfor
  rw [Scan.guardFor_eq] at hg ⊢
  split at hg
  next => simp at hg
  next hfirst =>
    have hsecond : ¬ (tag.scope = .all ∧ second.sawAll) :=
      fun hall => hfirst ⟨hall.1, h.sawAll hall.2⟩
    rw [if_neg hsecond]
    exact hfor

/-- A tag whose guard is given again leaves no gap between the runs. -/
theorem SubTrails.subAfter {second first : Sub} (h : SubTrails second first) (tag : Tag)
    (g : Guard) : SubTrails (subAfter second tag g) (subAfter first tag g) where
  name := h.name
  line := h.line
  metadata := h.metadata
  validated := List.append_subset.2
    ⟨List.Subset.trans h.validated (List.subset_append_left _ _), List.subset_append_right _ _⟩
  sawAll hall := by
    simp only [Scan.subAfter, Bool.or_eq_true] at hall ⊢
    exact hall.imp_left h.sawAll

/-- A tag that is no tag any more leaves a second run behind. -/
theorem SubTrails.subAfter_right {second first : Sub} (h : SubTrails second first) (tag : Tag)
    (g : Guard) : SubTrails second (Scan.subAfter first tag g) where
  name := h.name
  line := h.line
  metadata := h.metadata
  validated := List.Subset.trans h.validated (List.subset_append_left _ _)
  sawAll hall := by
    simp only [Scan.subAfter, Bool.or_eq_true]
    exact .inl (h.sawAll hall)

/-- A line with code in front of its tag is no line that counts. -/
theorem Advance.ofLine_withGuard {g : Guard}
    (h : Advance setting first number line (some g) next y) (hcode : g.code ≠ []) :
    LineKind.ofLine (line.withGuard (some g)).body = .other := by
  cases h with
  | guarded hr hk hs hm hg =>
    rw [Line.withGuard_some (LineKind.ofLine?_of_ofLine_eq_tag hk)]
    exact LineKind.ofLine_code_before_tag hk
      (Guard.code_ends_of_forTag (forTag_of_guardFor hg) hcode)

/-- A second run follows a line of the first one, and reports no less. -/
theorem Advance.again (h : Advance setting first number line guard next y)
    (ht : Trails second first) :
    ∃ next' y', Advance setting second number (line.withGuard guard) (Guard.again? guard) next' y' ∧
      Trails next' next ∧ y.diagnostics.Sublist y'.diagnostics := by
  have hregion := ht.region
  have hnotices := ht.closingNotices_sublist setting.file
  have hother (g : Guard) (hg : guard = some g) (hcode : g.code ≠ []) :
      LineKind.ofLine (line.withGuard (some g)).body = .other := by
    rw [hg] at h
    exact h.ofLine_withGuard hcode
  cases h with
  | quiet hquiet =>
    refine ⟨_, _, .quiet fun hr => hquiet (hregion ▸ hr), ⟨?_, ht.package, ht.sub⟩, ?_⟩
    · simp only [hregion, Line.withGuard_none]
    · exact List.Sublist.refl _
  | codeEnd hr hk =>
    exact ⟨_, _, .codeEnd (hregion.trans hr) hk, ⟨rfl, ht.package, .none⟩, hnotices⟩
  | package hr hk hi =>
    exact ⟨_, _, .package (hregion.trans hr) hk hi, ⟨hregion, rfl, .none⟩, hnotices⟩
  | function hr hk hp =>
    refine ⟨_, _, .function (hregion.trans hr) hk (ht.package.trans hp), ⟨hregion, ht.package, ?_⟩,
      hnotices⟩
    exact .some ⟨rfl, rfl, rfl, List.Subset.refl _, id⟩
  | skipped hr hk hs =>
    exact ⟨_, _, .skipped (hregion.trans hr) hk ((ht.skipReason?_eq _).trans hs), ht,
      List.Sublist.refl _⟩
  | @guarded tag sub m g hr hk hs hm hg =>
    obtain ⟨sub', hs', hsub⟩ : ∃ sub', second.sub = some sub' ∧ SubTrails sub' sub := by
      have hrel := ht.sub
      rw [hs] at hrel
      generalize second.sub = o at hrel
      cases hrel with
      | some hsub => exact ⟨_, rfl, hsub⟩
    by_cases hcode : g.code = []
    · -- Nothing was put in front of the tag, and it asks for the same guard once more.
      rw [Line.withGuard_of_code_eq_nil hcode, Guard.again?_of_code_eq_nil hcode]
      refine ⟨_, _, .guarded (hregion.trans hr) hk hs' (hsub.metadata.trans hm)
        (hsub.guardFor_eq hg hcode), ⟨hregion, ht.package, ?_⟩, List.Sublist.refl _⟩
      exact .some (hsub.subAfter tag g)
    · have hline := hother g rfl hcode
      rw [Guard.again?_of_code_ne_nil hcode]
      refine ⟨_, _, .quiet fun _ => ?_, ⟨?_, ht.package, ?_⟩, List.nil_sublist _⟩
      · rw [hline, LineKind.isQuiet]
      · simp [hregion, hr, Region.behind, hline]
      · rw [hs']
        exact .some (hsub.subAfter_right tag g)

/-- A second run follows the whole first one, and reports no less. -/
theorem Runs.again (h : Runs setting guards first number lines last y) (ht : Trails second first) :
    ∃ last' y', Runs setting (fun n => Guard.again? (guards n)) second number
        ((lines.zipIdx number).map fun (line, n) => line.withGuard (guards n)) last' y' ∧
      Trails last' last ∧ y'.text = y.text ∧ y.diagnostics.Sublist y'.diagnostics := by
  induction h generalizing second with
  | nil => exact ⟨second, {}, .nil .., ht, rfl, List.Sublist.refl _⟩
  | cons hline hrest ih =>
    obtain ⟨next', y', hline', hnext, hdiagnostics⟩ := hline.again ht
    obtain ⟨last', ys', hrest', hlast, htext, hrestDiagnostics⟩ := ih hnext
    refine ⟨last', _, .cons hline' hrest', hlast, ?_, hdiagnostics.append hrestDiagnostics⟩
    rw [Yield.text_append, Yield.text_append, htext, hline'.text_eq, hline.text_eq,
      Line.withGuard_again]

/-- In the text of a run, a line with code in front of its tag is no line that counts. -/
theorem Runs.ofLine_of_code_ne_nil (h : Runs setting guards first number lines last y) {n : Nat}
    {new : Line} {g : Guard}
    (hnew : ((lines.zipIdx number).map fun (line, n) => line.withGuard (guards n))[n]? = some new)
    (hg : guards (number + n) = some g) (hcode : g.code ≠ []) :
    LineKind.ofLine new.body = .other := by
  induction h generalizing n with
  | nil => simp at hnew
  | @cons _ _ _ number line _ _ _ hline hrest ih =>
    rw [List.zipIdx_cons, List.map_cons] at hnew
    cases n with
    | zero =>
      have hsame : line.withGuard (guards number) = new := by simpa using hnew
      rw [Nat.add_zero] at hg
      rw [hg] at hline hsame
      rw [← hsame]
      exact hline.ofLine_withGuard hcode
    | succ n =>
      rw [List.getElem?_cons_succ] at hnew
      exact ih hnew (by rwa [Nat.add_right_comm, Nat.add_assoc])

end Scan

/-- Processing a processed source once more succeeds, leaves its text alone, and reports at
least as much. What counts as a tag once more is exactly a tag whose guard has no code; a line
with code in front of its tag is no line that counts. -/
theorem process_again {setting : ScanSetting} {source : Text} {y : Yield}
    (h : process setting source = .ok y) :
    ∃ guards, AreGuards setting source.lines guards ∧
      (∃ z, process setting y.text = .ok z ∧ z.text = y.text ∧
        z.tags = (List.range' 1 source.lines.length).countP
          (fun n => (guards n).any fun g => g.code.isEmpty) ∧
        y.diagnostics.Sublist z.diagnostics) ∧
      ∀ n line g, y.text.lines[n]? = some line → guards (1 + n) = some g → g.code ≠ [] →
        LineKind.ofLine line.body = .other := by
  obtain ⟨guards, last, y, hruns, hguards, rfl⟩ := runs_of_process h
  have hlines := hruns.lines_text (areLines_lines source)
  obtain ⟨last', y', hagain, hlast, htext, hdiagnostics⟩ :=
    hruns.again ⟨rfl, rfl, .none⟩
  have hcount := hagain.tags_eq
  rw [← hlines] at hagain
  rw [Yield.text_append, List.append_nil]
  refine ⟨guards, hguards, ⟨_, process_of_runs hagain, ?_, ?_, ?_⟩, ?_⟩
  · rw [Yield.text_append, List.append_nil, htext]
  · rw [Yield.tags_append, Nat.add_zero, hcount, List.length_map, List.length_zipIdx]
    refine List.countP_congr fun n _ => ?_
    simp [Guard.again?]
  · exact hdiagnostics.append (hlast.closingNotices_sublist setting.file)
  · intro n line g hline hg hcode
    rw [hlines] at hline
    exact hruns.ofLine_of_code_ne_nil hline hg hcode

/-- The text of the sample is processed once more: its tag has got code, so none is counted. -/
theorem process_again_countSource :
    ∃ y, process countSetting countSource = .ok y ∧
      ∃ guards, AreGuards countSetting countSource.lines guards ∧
        (∃ z, process countSetting y.text = .ok z ∧ z.text = y.text ∧
          z.tags = (List.range' 1 countSource.lines.length).countP
            (fun n => (guards n).any fun g => g.code.isEmpty) ∧
          y.diagnostics.Sublist z.diagnostics) ∧
        ∀ n line g, y.text.lines[n]? = some line → guards (1 + n) = some g → g.code ≠ [] →
          LineKind.ofLine line.body = .other :=
  ⟨_, rfl, process_again rfl⟩

end ArgGuard
