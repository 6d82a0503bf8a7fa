import ArgGuard.Proofs.Agreement
import ArgGuard.Proofs.GuardText
import ArgGuard.Proofs.Lines

/-!
# Splicing

A source that is processed keeps its lines: their number, their order and their terminators.
A line changes only if it is a tag in a sub with metadata, and then the guard that the tag asks
for comes in front of the tag.
-/

namespace ArgGuard

namespace Scan

variable {setting : ScanSetting} {guards : Nat → Option Guard} {scan next last : Scan}
  {number : Nat} {line : Line} {lines : List Line} {guard : Option Guard} {y : Yield}

/-- A guard in front of a tag changes neither the end of the line nor the number of lines. -/
theorem Advance.replaces (h : Advance setting scan number line guard next y)
    (hn : '\n' ∉ line.body) : (line.withGuard guard).Replaces line := by
  cases h with
  | @guarded tag sub m guard hr hk hs hm hg =>
    have ht := LineKind.ofLine?_of_ofLine_eq_tag hk
    have hbody := Tag.lead_append_comment ht
    obtain ⟨hcut, hdecl, -⟩ := Tag.ofLine?_eq_some ht
    obtain ⟨rest, hcomment, -, -⟩ := Text.cutAtLast?_eq_some_iff.1 hcut
    have hname := Identifier.not_mem_of_isBareword (Tag.declaration?_eq_some hdecl).2.2
    have hcode := Guard.not_mem_code_of_forTag hname (forTag_of_guardFor hg)
    have hparts : '\n' ∉ tag.lead ∧ '\n' ∉ tag.comment := by simpa [← hbody] using hn
    rw [Line.withGuard_some ht]
    refine ⟨rfl, ?_, ?_⟩
    · -- The tag starts with its mark, so the last character is one of the tag.
      rw [← hbody, hcomment, List.getLast?_append_cons, List.getLast?_append_cons]
    · simp [hparts.1, hcode, hparts.2]
  | _ => exact ⟨rfl, rfl, hn⟩

/-- The lines of a run are replaced one by one. -/
theorem Runs.replaces (h : Runs setting guards scan number lines last y) (hlines : AreLines lines) :
    List.Forall₂ (fun o n => Line.Replaces n o) lines
      ((lines.zipIdx number).map fun (line, n) => line.withGuard (guards n)) := by
  induction h with
  | nil => exact .nil
  | cons hline hrest ih =>
    obtain ⟨hn, -, -, hrest'⟩ := hlines
    rw [List.zipIdx_cons, List.map_cons]
    exact .cons (hline.replaces hn) (ih hrest')

/-- The text of a run is cut into the lines of the source with their guards. -/
theorem Runs.lines_text (h : Runs setting guards scan number lines last y)
    (hlines : AreLines lines) :
    y.text.lines = (lines.zipIdx number).map fun (line, n) => line.withGuard (guards n) := by
  have hnew := AreLines.of_replaces (h.replaces hlines) hlines
  have hcut := hnew.lines_flatMap_text
  rwa [List.flatMap_map, ← h.text_eq] at hcut

end Scan

/-- A source that is processed is a run over its lines, with the guards that the reading by
position asks for, and the notices for the sub that is left open. -/
theorem runs_of_process {setting : ScanSetting} {source : Text} {z : Yield}
    (h : process setting source = .ok z) :
    ∃ guards last y, Scan.Runs setting guards {} 1 source.lines last y ∧
      AreGuards setting source.lines guards ∧
      z = y ++ { diagnostics := Scan.closingNotices setting.file last.sub } := by
  rw [process] at h
  cases hrun : Scan.run setting {} 1 source.lines with
  | error failure => simp [hrun] at h
  | ok result =>
    obtain ⟨last, y⟩ := result
    obtain ⟨guards, hruns, hrange⟩ := Scan.Runs.of_run hrun
    refine ⟨guards, last, y, hruns, hruns.areGuards hrange, ?_⟩
    simpa [hrun, eq_comm] using h

/-- A run over the lines of a source processes it. -/
theorem process_of_runs {setting : ScanSetting} {source : Text} {guards : Nat → Option Guard}
    {last : Scan} {y : Yield} (h : Scan.Runs setting guards {} 1 source.lines last y) :
    process setting source =
      .ok (y ++ { diagnostics := Scan.closingNotices setting.file last.sub }) := by
  rw [process, h.run_eq]

/-- A source that is processed keeps all its lines, and exactly the tags in subs with metadata
get guards, those that the reading by position asks for. The count of tags is the number of
these lines. -/
theorem process_splices {setting : ScanSetting} {source : Text} {z : Yield}
    (h : process setting source = .ok z) :
    ∃! guards, AreGuards setting source.lines guards ∧
      z.text.lines = (source.lines.zipIdx 1).map (fun (line, n) => line.withGuard (guards n)) ∧
      z.tags = (List.range' 1 source.lines.length).countP fun n => (guards n).isSome := by
  obtain ⟨guards, last, y, hruns, hguards, rfl⟩ := runs_of_process h
  refine ⟨guards, ⟨hguards, ?_, ?_⟩, fun others ho => ho.1.unique hguards⟩
  · rw [Yield.text_append, List.append_nil]
    exact hruns.lines_text (areLines_lines source)
  · rw [Yield.tags_append, Nat.add_zero]
    exact hruns.tags_eq

/-- A setting with one package and one function in it, which requires a count. The compiler
answers with more than one line. -/
def countSetting : ScanSetting where
  file := "Count.pm"
  store package :=
    if package = ("Count" : Text) then
      .ok [("up", {
        version := FunctionMetadata.supportedVersion
        args := [("n", { schema := some .null, required := true })] })]
    else .error (.unitNotFound package)
  compiler _ := .ok "$arg_err = $n;\r\n$arg_err ||= '';\n"

/-- A source with two subs for the function. In the first one the count is bound to a variable
with a tag. -/
def countSource : Text :=
  "package Count;\nsub up \x7b\n  my $n = $_[1]; # VALIDATE_ARG\r\n\x7d\nsub up \x7b \x7d"

/-- The tag of the sample gets its guard, and all other lines stay. -/
theorem process_splices_countSource :
    ∃ z, process countSetting countSource = .ok z ∧ z.tags = 1 ∧
      ∃! guards, AreGuards countSetting countSource.lines guards ∧
        z.text.lines =
          (countSource.lines.zipIdx 1).map (fun (line, n) => line.withGuard (guards n)) ∧
        z.tags = (List.range' 1 countSource.lines.length).countP fun n => (guards n).isSome :=
  ⟨_, rfl, rfl, process_splices rfl⟩

end ArgGuard
