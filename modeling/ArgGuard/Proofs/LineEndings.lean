import ArgGuard.Proofs.FailFast
import ArgGuard.Proofs.InertRegions

/-!
# Line endings are kept and tell nothing

A scan looks at the bodies of lines only. So a source may end its lines in any way: it fails alike,
or it is processed to the same bodies with the same reports, and each line of the result ends as
the line of the source does.
-/

namespace ArgGuard

variable {bodies : List Text} {endings first second : List LineEnding} {setting : ScanSetting}

/-- A way to end lines with the given bodies: every line has a terminator, except perhaps a last
one that is not empty. -/
inductive EndsLines : List Text → List LineEnding → Prop
  /-- There are no lines. -/
  | nil : EndsLines [] []
  /-- The last line ends with the text. -/
  | missing {body : Text} (h : body ≠ []) : EndsLines [body] [.missing]
  /-- A line has a terminator, and others follow. -/
  | cons {body : Text} {ending : LineEnding} {bodies : List Text} {endings : List LineEnding}
      (h : ending ≠ .missing) (hrest : EndsLines bodies endings) :
      EndsLines (body :: bodies) (ending :: endings)

/-- The lines with the given bodies and endings. -/
def endedLines (bodies : List Text) (endings : List LineEnding) : List Line :=
  List.zipWith Line.mk bodies endings

/-- The text of the lines with the given bodies and endings. -/
def endedText (bodies : List Text) (endings : List LineEnding) : Text :=
  (endedLines bodies endings).flatMap Line.text

namespace EndsLines

/-- Every line has its ending. -/
theorem length_eq (h : EndsLines bodies endings) : endings.length = bodies.length := by
  induction h with
  | nil => rfl
  | missing => rfl
  | cons _ _ ih => rw [List.length_cons, List.length_cons, ih]

/-- The bodies are those of the lines. -/
theorem map_body (h : EndsLines bodies endings) :
    (endedLines bodies endings).map Line.body = bodies := by
  induction h with
  | nil => rfl
  | missing => rfl
  | cons _ _ ih => exact congrArg (_ :: ·) ih

/-- Bodies that can stand in front of a line feed may be ended in any such way. -/
theorem areLines (h : EndsLines bodies endings) (hb : ∀ body ∈ bodies, body.IsLine) :
    AreLines (endedLines bodies endings) := by
  induction h with
  | nil => trivial
  | missing hne => exact ⟨(hb _ List.mem_cons_self).1, by simp, fun _ => ⟨hne, rfl⟩, trivial⟩
  | cons hm _ ih =>
    obtain ⟨⟨hn, hr⟩, hrest⟩ := List.forall_mem_cons.1 hb
    exact ⟨hn, fun _ => hr, fun he => absurd he hm, ih hrest⟩

/-- The text of such lines is cut into them. -/
theorem lines_endedText (h : EndsLines bodies endings) (hb : ∀ body ∈ bodies, body.IsLine) :
    (endedText bodies endings).lines = endedLines bodies endings :=
  (h.areLines hb).lines_flatMap_text

end EndsLines

/-- The body of a line that gets a guard or none. -/
def bodyWithGuard (body : Text) (guard : Option Guard) : Text :=
  (Line.withGuard ⟨body, .missing⟩ guard).body

/-- How a line ends does not matter for where its guard comes. -/
theorem Line.withGuard_eq (body : Text) (ending : LineEnding) (guard : Option Guard) :
    Line.withGuard ⟨body, ending⟩ guard = ⟨bodyWithGuard body guard, ending⟩ := by
  cases guard with
  | none => rfl
  | some guard => cases ht : Tag.ofLine? body <;> simp [bodyWithGuard, Line.withGuard, ht]

/-- Guards come into the bodies of lines, whatever the endings are. -/
theorem map_withGuard_endedLines (guards : Nat → Option Guard) (bodies : List Text)
    (endings : List LineEnding) (number : Nat) :
    (((endedLines bodies endings).zipIdx number).map fun (line, n) => line.withGuard (guards n)) =
      endedLines ((bodies.zipIdx number).map fun (body, n) => bodyWithGuard body (guards n))
        endings := by
  induction bodies generalizing endings number with
  | nil => rfl
  | cons body rest ih =>
    cases endings with
    | nil => simp [endedLines]
    | cons ending endings =>
      have hrest := ih endings (number + 1)
      simp only [endedLines, List.zipWith_cons_cons, List.zipIdx_cons, List.map_cons,
        Line.withGuard_eq] at hrest ⊢
      rw [hrest]

/-- The results for two sources with the same bodies of lines: the same failure, or texts with the
same bodies again, each ended as in the source, and the same reports. -/
inductive SameUpToEndings (first second : List LineEnding) :
    Except ScanFailure Yield → Except ScanFailure Yield → Prop
  /-- Both fail alike. -/
  | failed (failure : ScanFailure) : SameUpToEndings first second (.error failure) (.error failure)
  /-- Both are processed. -/
  | processed {y z : Yield} (bodies : List Text) (hlength : bodies.length = first.length)
      (hfirst : y.text.lines = endedLines bodies first)
      (hsecond : z.text.lines = endedLines bodies second) (htags : z.tags = y.tags)
      (hdiagnostics : z.diagnostics = y.diagnostics) (hevents : z.events = y.events) :
      SameUpToEndings first second (.ok y) (.ok z)

/-- The text of a run is that of its lines with their guards, each ended as before. -/
theorem Scan.Runs.lines_text_endedLines {guards : Nat → Option Guard} {scan last : Scan}
    {number : Nat} {y : Yield}
    (h : Runs setting guards scan number (endedLines bodies endings) last y)
    (he : EndsLines bodies endings) (hb : ∀ body ∈ bodies, body.IsLine) :
    y.text.lines =
      endedLines ((bodies.zipIdx number).map fun (body, n) => bodyWithGuard body (guards n))
        endings := by
  rw [h.lines_text (he.areLines hb), map_withGuard_endedLines]

/-- However the lines of a source end, it fails alike, or it is processed to the same bodies of
lines with the same reports and the same count of tags, and each line ends as in the source. -/
theorem process_endings (setting : ScanSetting) (bodies : List Text)
    (hb : ∀ body ∈ bodies, body.IsLine) (first second : List LineEnding)
    (hf : EndsLines bodies first) (hs : EndsLines bodies second) :
    SameUpToEndings first second (process setting (endedText bodies first))
      (process setting (endedText bodies second)) := by
  have hbodies : (endedLines bodies second).map Line.body =
      (endedLines bodies first).map Line.body := hs.map_body.trans hf.map_body.symm
  rw [process, process, hf.lines_endedText hb, hs.lines_endedText hb]
  cases hrun : Scan.run setting {} 1 (endedLines bodies first) with
  | error failure =>
    obtain ⟨before, line, after, last, y, f, hlines, hbefore, hstop, rfl⟩ :=
      Scan.exists_stop_of_run hrun
    have hother : Scan.run setting {} 1 (endedLines bodies second) = .error (f.after y) :=
      hstop.run_of_take_eq hbefore (by rw [List.map_take, List.map_take, hbodies, hlines])
    rw [hother]
    exact .failed _
  | ok result =>
    obtain ⟨last, y⟩ := result
    obtain ⟨guards, hruns, -⟩ := Scan.Runs.of_run hrun
    obtain ⟨z, hother, hdiagnostics, hevents⟩ := hruns.of_bodies_eq hbodies
    have htags : z.tags = y.tags := by
      rw [hother.tags_eq, hruns.tags_eq, endedLines, endedLines, List.length_zipWith,
        List.length_zipWith, hf.length_eq, hs.length_eq]
    rw [hother.run_eq]
    refine .processed ((bodies.zipIdx 1).map fun (body, n) => bodyWithGuard body (guards n)) ?_
      ?_ ?_ (congrArg (· + 0) htags) (congrArg (· ++ _) hdiagnostics) (congrArg (· ++ _) hevents)
    · rw [List.length_map, List.length_zipIdx, hf.length_eq]
    · rw [Yield.text_append, List.append_nil]
      exact hruns.lines_text_endedLines hf hb
    · rw [Yield.text_append, List.append_nil]
      exact hother.lines_text_endedLines hs hb

/-- The bodies of a source with a tag in a sub with metadata, and data behind the code. -/
def countBodies : List Text :=
  ["package Count;", "sub up \x7b", "  my $n = $_[1]; # VALIDATE_ARG", "\x7d", "__END__ ", "\r."]

/-- Two ways to end these lines. -/
def mixedEndings : List LineEnding :=
  [.carriageReturn, .lineFeed, .carriageReturn, .lineFeed, .carriageReturn, .missing]

/-- The sample is processed to the same bodies, with one guard, whether its lines end in line feeds
or in a mixture of all endings. -/
theorem process_endings_countBodies :
    let plain := List.replicate 6 LineEnding.lineFeed
    (∀ body ∈ countBodies, body.IsLine) ∧ EndsLines countBodies plain ∧
      EndsLines countBodies mixedEndings ∧
      (process countSetting (endedText countBodies plain)).toOption.map Yield.tags = some 1 ∧
      SameUpToEndings plain mixedEndings (process countSetting (endedText countBodies plain))
        (process countSetting (endedText countBodies mixedEndings)) := by
  intro plain
  have hb : ∀ body ∈ countBodies, body.IsLine := by decide
  have hplain : EndsLines countBodies plain := by
    iterate 6 refine .cons (by decide) ?_
    exact .nil
  have hmixed : EndsLines countBodies mixedEndings := by
    iterate 5 refine .cons (by decide) ?_
    exact .missing (by decide)
  exact ⟨hb, hplain, hmixed, rfl, process_endings countSetting countBodies hb _ _ hplain hmixed⟩

end ArgGuard
