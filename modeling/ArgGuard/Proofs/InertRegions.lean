import ArgGuard.Proofs.Boundary

/-!
# Documentation and data are inert

Behind a text that ends in code, a documentation block may hold anything: with it or without it
the source is processed in the same way, except that the lines behind the block move down. What
stands behind the line that ends the code has no effect at all and is kept as it is.
-/

namespace ArgGuard

/-- Lines of a documentation block: the first one opens it, and of the others only the last one
closes it. -/
inductive IsDocBlock : List Line → Prop
  /-- Lines between the one that opens the block and the one that closes it. -/
  | intro {first last : Line} {inner : List Line} (hopens : LineKind.ofLine first.body = .docOpen)
      (hinner : ∀ l ∈ inner, LineKind.closesDoc l.body = false)
      (hcloses : LineKind.closesDoc last.body = true) : IsDocBlock (first :: inner ++ [last])

/-- The number of a line after some lines are put in behind the given one. -/
def pushedDown (behind count n : Nat) : Nat := if behind < n then n + count else n

namespace Scan

variable {setting : ScanSetting} {scan : Scan} {number : Nat} {lines : List Line}

/-- Lines each of which leaves the scan as it is are kept, and nothing else happens. -/
theorem run_of_inert (h : ∀ line ∈ lines, ∀ n, step setting scan n line =
      .ok (scan, { text := line.text })) :
    run setting scan number lines = .ok (scan, { text := lines.flatMap Line.text }) := by
  induction lines generalizing number with
  | nil => rfl
  | cons line rest ih =>
    have hrest : ∀ l ∈ rest, ∀ n, step setting scan n l = .ok (scan, { text := l.text }) := by
      intro l hl
      exact h l (List.mem_cons_of_mem _ hl)
    rw [run, h line List.mem_cons_self]
    simp only [ih hrest]
    rfl

/-- Behind the end of the code, lines are kept, and nothing else happens. -/
theorem run_data (hr : scan.region = .data) :
    run setting scan number lines = .ok (scan, { text := lines.flatMap Line.text }) := by
  apply run_of_inert
  intro line _ n
  simp [step, hr]

/-- Within a documentation block, lines that do not close it are kept, and nothing else
happens. -/
theorem run_doc (hr : scan.region = .doc)
    (hlines : ∀ l ∈ lines, LineKind.closesDoc l.body = false) :
    run setting scan number lines = .ok (scan, { text := lines.flatMap Line.text }) := by
  apply run_of_inert
  intro line hline n
  simp [step, hr, hlines line hline]

/-- A documentation block leaves the scan where it was, and yields nothing but its lines. -/
theorem run_docBlock (number : Nat) (hr : scan.region = .code) (hlines : IsDocBlock lines) :
    ∃ events, run setting scan number lines =
      .ok (scan, { text := lines.flatMap Line.text, events }) := by
  obtain ⟨hopens, hinner, hcloses⟩ := hlines
  rename_i first last inner
  have hfirst : step setting scan number first =
      .ok ({ scan with region := .doc },
        { text := first.text, events := [.docOpened number] }) := by
    simp [step, hr, hopens]
  have hmiddle : run setting { scan with region := .doc } (number + 1) inner =
      .ok ({ scan with region := .doc }, { text := inner.flatMap Line.text }) :=
    run_doc rfl hinner
  have hback : ({ scan with region := .code } : Scan) = scan := by rw [← hr]
  have hlast (n : Nat) : step setting { scan with region := .doc } n last =
      .ok (scan, { text := last.text, events := [.docClosed n] }) := by
    simp [step, hcloses, hback]
  refine ⟨[.docOpened number] ++ ([] ++ ([.docClosed (number + 1 + inner.length)] ++ [])), ?_⟩
  rw [List.cons_append, run, hfirst]
  simp only [run_append, hmiddle, run, hlast]
  congr 2
  change Yield.append _ (Yield.append _ (Yield.append _ _)) = _
  simp [Yield.append]

/-- Behind a text that ends in code and a documentation block, lines are scanned as behind the
text alone, further down. -/
theorem run_behind_docBlock {a : Text} {y : Yield} (d b : Text)
    (hrun : run setting {} 1 a.lines = .ok (scan, y)) :
    run setting scan (1 + a.lines.length + d.lines.length) b.lines =
      renumberResult (pushedDown a.lines.length d.lines.length)
        (run setting scan (1 + a.lines.length) b.lines) := by
  have hkept : ∀ n ≤ a.lines.length, pushedDown a.lines.length d.lines.length n = n := by
    intro n hn
    rw [pushedDown, if_neg (by omega)]
  have hmoved : ∀ i < b.lines.length,
      pushedDown a.lines.length d.lines.length (1 + a.lines.length + i) =
        1 + a.lines.length + d.lines.length + i := by
    intro i _
    rw [pushedDown, if_pos (by omega)]
    omega
  -- The scan of the text above knows of no line below, so the new numbers leave it as it is.
  have hsame := renumberResult_run setting _ a.lines hkept
  rw [hrun] at hsame
  have hscan : scan.renumber (pushedDown a.lines.length d.lines.length) = scan :=
    (Prod.mk.inj (Except.ok.inj hsame)).1
  have hrest := run_renumber setting scan _ (1 + a.lines.length) _ b.lines hmoved
  rwa [hscan] at hrest

end Scan

/-- Lines that are only kept add their text to what the lines before them yield. -/
theorem Yield.append_text (y : Yield) (text : Text) :
    y ++ { text } = { y with text := y.text ++ text } := by
  change Yield.append y { text } = _
  simp [Yield.append]

/-- A guard leaves the terminator of its line. -/
theorem Line.ending_withGuard (line : Line) (guard : Option Guard) :
    (line.withGuard guard).ending = line.ending := by
  unfold Line.withGuard
  split <;> rfl

/-- Lines that all have their terminators yield as many lines, and leave none open. -/
theorem Scan.Runs.terminated_text {setting : ScanSetting} {guards : Nat → Option Guard}
    {scan last : Scan} {number : Nat} {s : Text} {y : Yield}
    (h : Runs setting guards scan number s.lines last y) (hs : s.Terminated) :
    y.text.Terminated ∧ y.text.lines.length = s.lines.length := by
  have hlines := h.lines_text (areLines_lines s)
  constructor
  · apply Text.terminated_of_ending_ne_missing
    intro l hl
    rw [hlines] at hl
    obtain ⟨⟨line, n⟩, hmem, rfl⟩ := List.mem_map.1 hl
    rw [Line.ending_withGuard]
    refine (areLines_lines s).ending_ne_missing ?_ (List.fst_mem_of_mem_zipIdx hmem)
    rwa [Text.flatMap_text_lines]
  · rw [hlines, List.length_map, List.length_zipIdx]

/-- The results for a source before and after a block of lines is put in behind a line. The lines
behind it are pushed down and the block stands in the text; nothing else differs. -/
inductive WithBlock (behind : Nat) (block : List Line) :
    Except ScanFailure Yield → Except ScanFailure Yield → Prop
  /-- Both fail in the same way. -/
  | failure {f g : ScanFailure}
      (hfatal : g.fatal = f.fatal.renumber (pushedDown behind block.length))
      (hdiagnostics : g.diagnostics =
        f.diagnostics.map (Diagnostic.renumber (pushedDown behind block.length))) :
      WithBlock behind block (.error f) (.error g)
  /-- Both succeed in the same way. -/
  | success {z w : Yield} (htags : w.tags = z.tags)
      (hdiagnostics : w.diagnostics =
        z.diagnostics.map (Diagnostic.renumber (pushedDown behind block.length)))
      (htext : w.text.lines = z.text.lines.take behind ++ block ++ z.text.lines.drop behind) :
      WithBlock behind block (.ok z) (.ok w)

section Inert

variable {setting : ScanSetting} {a : Text}

/-- With a documentation block behind a text that ends in code, a source is processed as without
it. -/
theorem process_docBlock (ha : a.Terminated)
    (hcode : ∀ last y, Scan.run setting {} 1 a.lines = .ok (last, y) → last.region = .code)
    {d : Text} (hd : d.Terminated) (hblock : IsDocBlock d.lines) (b : Text) :
    WithBlock a.lines.length d.lines (process setting (a ++ b))
      (process setting (a ++ d ++ b)) := by
  have hplain := Scan.process_append_eq setting ha b
  have hwith := Scan.process_append_eq setting (ha.append hd) b
  rw [Text.lines_append ha] at hwith
  have hkept : ∀ n ≤ a.lines.length, pushedDown a.lines.length d.lines.length n = n := by
    intro n hn
    rw [pushedDown, if_neg (by omega)]
  have hsame := Scan.renumberResult_run setting _ a.lines hkept
  cases hrun : Scan.run setting {} 1 a.lines with
  | error failure =>
    have hfail := Scan.run_append_of_error hrun d.lines
    simp only [hrun, hfail] at hplain hwith hsame
    have hfailure : failure.renumber (pushedDown a.lines.length d.lines.length) = failure :=
      Except.error.inj hsame
    rw [hplain, hwith]
    apply WithBlock.failure
    · exact congrArg ScanFailure.fatal hfailure.symm
    · exact congrArg ScanFailure.diagnostics hfailure.symm
  | ok result =>
    obtain ⟨scan, ya⟩ := result
    obtain ⟨events, hdoc⟩ := Scan.run_docBlock (1 + a.lines.length) (hcode scan ya hrun) hblock
    have habove := Scan.run_append_of_ok hrun d.lines
    rw [hdoc] at habove
    have hbehind := Scan.run_behind_docBlock d b hrun
    have hnumber : 1 + (a.lines ++ d.lines).length = 1 + a.lines.length + d.lines.length := by
      rw [List.length_append, Nat.add_assoc]
    rw [hrun] at hsame
    have hya : ya.renumber (pushedDown a.lines.length d.lines.length) = ya :=
      (Prod.mk.inj (Except.ok.inj hsame)).2
    have hreported : ya.diagnostics.map
        (Diagnostic.renumber (pushedDown a.lines.length d.lines.length)) = ya.diagnostics :=
      congrArg Yield.diagnostics hya
    simp only [hrun] at hplain
    simp only [habove, Scan.resultAfter, hnumber, hbehind] at hwith
    rw [hplain, hwith]
    cases hrunb : Scan.run setting scan (1 + a.lines.length) b.lines with
    | error failure =>
      apply WithBlock.failure
      · rfl
      · simp [ScanFailure.after, ScanFailure.renumber, hreported]
    | ok result =>
      obtain ⟨last, yb⟩ := result
      obtain ⟨guards, hruns, -⟩ := Scan.Runs.of_run hrun
      obtain ⟨hterminated, hlength⟩ := hruns.terminated_text ha
      apply WithBlock.success
      · simp [Yield.renumber]
      · simp [Yield.renumber, hreported, Scan.renumber, Scan.closingNotices_renumber]
      · have htext : d.lines.flatMap Line.text = d := Text.flatMap_text_lines d
        simp only [Yield.text_append, Yield.renumber, List.append_nil, htext, List.append_assoc]
        rw [Text.lines_append hterminated, Text.lines_append hterminated, Text.lines_append hd,
          ← hlength, List.take_left, List.drop_left]

/-- Behind the line that ends the code, any text is kept, and it has no other effect. -/
theorem process_data (ha : a.Terminated)
    (hcode : ∀ last y, Scan.run setting {} 1 a.lines = .ok (last, y) → last.region = .code)
    {m : Text} {line : Line} (hm : m.Terminated) (hline : m.lines = [line])
    (hends : LineKind.ofLine line.body = .endOfCode) (t : Text) :
    process setting (a ++ m ++ t) =
      (process setting (a ++ m)).map fun z => { z with text := z.text ++ t } := by
  have hwith := Scan.process_append_eq setting (ha.append hm) t
  have hplain := Scan.process_append_eq setting ha m
  rw [Text.lines_append ha] at hwith
  rw [hwith, hplain]
  cases hrun : Scan.run setting {} 1 a.lines with
  | error failure =>
    simp only [Scan.run_append_of_error hrun m.lines]
    rfl
  | ok result =>
    obtain ⟨scan, ya⟩ := result
    have hregion := hcode scan ya hrun
    have hend : Scan.run setting scan (1 + a.lines.length) m.lines =
        .ok ({ scan with region := .data, sub := none },
          { text := line.text, diagnostics := Scan.closingNotices setting.file scan.sub }) := by
      simp [hline, Scan.run, Scan.step, hregion, hends, Yield.append_empty]
    have habove := Scan.run_append_of_ok hrun m.lines
    rw [hend] at habove
    have hnone : Scan.closingNotices setting.file none = [] := rfl
    simp only [habove, hend, Scan.resultAfter, Scan.run_data, hnone,
      Text.flatMap_text_lines, Yield.append_text, List.append_nil, Except.map]

/-- Documentation and data are inert behind a text that ends in code. With a documentation block
or without it a source is processed in the same way, except that the lines behind the block are
pushed down. Behind the line that ends the code any text is kept, and it has no other effect. -/
theorem process_inert (ha : a.Terminated)
    (hcode : ∀ last y, Scan.run setting {} 1 a.lines = .ok (last, y) → last.region = .code) :
    (∀ d b : Text, d.Terminated → IsDocBlock d.lines →
      WithBlock a.lines.length d.lines (process setting (a ++ b)) (process setting (a ++ d ++ b))) ∧
    (∀ m t : Text, ∀ line, m.Terminated → m.lines = [line] →
      LineKind.ofLine line.body = .endOfCode →
      process setting (a ++ m ++ t) =
        (process setting (a ++ m)).map fun z => { z with text := z.text ++ t }) := by
  constructor
  · intro d b hd hblock
    exact process_docBlock ha hcode hd hblock b
  · intro m t line hm hline hends
    exact process_data ha hcode hm hline hends t

end Inert

/-- A documentation block that shows a sub and a mark for the end of the code. -/
def manualBlock : Text := "=pod\nsub up \x7b\n__END__\n=cut\n"

/-- The documentation block of the sample stands in an open sub. Without it a tag follows, whose
guard is the same with it; behind the end of the code another sub stands. -/
theorem process_inert_bareSource :
    WithBlock 3 manualBlock.lines
      (process countSetting (bareSource ++ ("my $n; # VALIDATE_ARG\n" : Text)))
      (process countSetting (bareSource ++ manualBlock ++ ("my $n; # VALIDATE_ARG\n" : Text))) ∧
    process countSetting (bareSource ++ ("__END__\n" : Text) ++ ("sub up \x7b" : Text)) =
      (process countSetting (bareSource ++ ("__END__\n" : Text))).map fun z =>
        { z with text := z.text ++ ("sub up \x7b" : Text) } := by
  have hterminated : bareSource.Terminated := .inr rfl
  have hinert := process_inert hterminated region_bareSource
  have hinner : ∀ l ∈ ([⟨"sub up \x7b", .lineFeed⟩, ⟨"__END__", .lineFeed⟩] : List Line),
      LineKind.closesDoc l.body = false := by decide
  have hblock : IsDocBlock manualBlock.lines :=
    @IsDocBlock.intro ⟨"=pod", .lineFeed⟩ ⟨"=cut", .lineFeed⟩ _ rfl hinner rfl
  constructor
  · exact hinert.1 manualBlock _ (.inr rfl) hblock
  · exact hinert.2 _ _ ⟨"__END__", .lineFeed⟩ (.inr rfl) rfl rfl

end ArgGuard
