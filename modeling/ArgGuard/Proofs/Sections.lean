import ArgGuard.Proofs.Reading

/-!
# Sections

The sections of a source are the ones that have ended, followed by the one that is open at its
end. Each of them is open at some place, has its own line number, and its lines are read in the
same package and sub.
-/

namespace ArgGuard

/-- The sections that have ended, given the code lines above, nearest first. -/
def closedSections : List CodeLine → List Section
  | [] => []
  | c :: above => closedSections above ++ if c.endsSection then (openSection? above).toList else []

/-- A section with more lines, as far as they belong to it. -/
def Section.extendAll (s : Section) (below : List CodeLine) : Section :=
  { s with lines := s.lines ++ below.takeWhile (!·.endsSection) }

/-- A line that declares no sub starts no section. -/
theorem sectionsFrom_cons {c : CodeLine} {above below : List CodeLine}
    (h : ∀ name, c.kind ≠ .function name) :
    sectionsFrom above (c :: below) = sectionsFrom (c :: above) below := by
  rw [sectionsFrom]
  cases hk : c.kind with
  | function name => exact absurd hk (h name)
  | _ => rfl

/-- Reading on from some line: the sections that have ended there, the open one with the lines
that still belong to it, and the later ones. -/
theorem sectionsFrom_eq (above below : List CodeLine) :
    closedSections above ++ ((openSection? above).map (·.extendAll below)).toList ++
        sectionsFrom above below =
      closedSections (below.reverse ++ above) ++
        (openSection? (below.reverse ++ above)).toList := by
  induction below generalizing above with
  | nil =>
    have hsame : (fun s : Section => s.extendAll []) = id := by
      funext s
      simp [Section.extendAll]
    simp [sectionsFrom, hsame]
  | cons c below ih =>
    have hmove : (c :: below).reverse ++ above = below.reverse ++ c :: above := by simp
    rw [hmove, ← ih (c :: above)]
    cases hends : c.endsSection with
    | false =>
      have hkind (name : Text) : c.kind ≠ .function name := by
        intro hk
        simp [CodeLine.endsSection, LineKind.endsSection, hk] at hends
      rw [sectionsFrom_cons hkind, openSection?_cons hends, Option.map_map]
      have hextend : (fun s : Section => s.extendAll (c :: below)) =
          (fun s => s.extendAll below) ∘ fun s => s.extend c := by
        funext s
        simp [Section.extendAll, Section.extend, hends]
      simp [closedSections, hends, hextend]
    | true =>
      have hclosed : (fun s : Section => s.extendAll (c :: below)) = id := by
        funext s
        simp [Section.extendAll, hends]
      rw [hclosed]
      cases hk : c.kind with
      | function name =>
        simp [closedSections, hends, sectionsFrom, openSection?, hk, Section.extendAll]
      | package name => simp [closedSections, hends, sectionsFrom, openSection?, hk]
      | endOfCode => simp [closedSections, hends, sectionsFrom, openSection?, hk]
      | _ => simp [CodeLine.endsSection, LineKind.endsSection, hk] at hends

/-- The sections of a source are those that have ended and the one that is still open. -/
theorem sections_eq (lines : List Line) :
    sections lines = closedSections (codeLines lines).reverse ++
      (openSection? (codeLines lines).reverse).toList := by
  have h := sectionsFrom_eq [] (codeLines lines)
  simpa [closedSections, openSection?, sections] using h

/-- A section that has ended was open above. -/
theorem openSection?_of_mem_closedSections {above : List CodeLine} {s : Section}
    (h : s ∈ closedSections above) :
    ∃ nearer farther, above = nearer ++ farther ∧ openSection? farther = some s := by
  induction above with
  | nil => simp [closedSections] at h
  | cons c above ih =>
    rw [closedSections] at h
    rcases List.mem_append.1 h with h | h
    · obtain ⟨nearer, farther, rfl, hopen⟩ := ih h
      exact ⟨c :: nearer, farther, rfl, hopen⟩
    · split at h
      next => exact ⟨[c], above, rfl, Option.mem_toList.1 h⟩
      next => simp at h

/-- Every section of a source is open at some place. -/
theorem openSection?_of_mem_sections {lines : List Line} {s : Section} (h : s ∈ sections lines) :
    ∃ above below, codeLines lines = above ++ below ∧ openSection? above.reverse = some s := by
  rw [sections_eq] at h
  rcases List.mem_append.1 h with h | h
  · obtain ⟨nearer, farther, heq, hopen⟩ := openSection?_of_mem_closedSections h
    refine ⟨farther.reverse, nearer.reverse, ?_, by rwa [List.reverse_reverse]⟩
    rw [← List.reverse_append, ← heq, List.reverse_reverse]
  · exact ⟨codeLines lines, [], (List.append_nil _).symm, Option.mem_toList.1 h⟩

/-- At each line of an open section the source is split so that the section is open above. -/
theorem exists_split_of_mem_lines {lines : List Line} {above below : List CodeLine}
    (hcode : codeLines lines = above ++ below) {s : Section}
    (hopen : openSection? above.reverse = some s) {c : CodeLine} (hc : c ∈ s.lines) :
    ∃ before after s', codeLines lines = before ++ c :: after ∧
      openSection? before.reverse = some s' ∧ s'.package = s.package ∧ s'.name = s.name := by
  obtain ⟨nearer, farther, s', habove, hopen', hsame⟩ := exists_of_mem_openSection? hopen hc
  refine ⟨farther.reverse, nearer.reverse ++ below, s', ?_, ?_, hsame⟩
  · rw [hcode, ← List.reverse_reverse above, habove]
    simp
  · rw [List.reverse_reverse]
    exact hopen'

/-- Code lines have different numbers, in order. -/
theorem pairwise_codeLinesFrom (region : Region) (number : Nat) (lines : List Line) :
    (codeLinesFrom region number lines).Pairwise fun c d => c.number < d.number := by
  induction lines generalizing region number with
  | nil => exact .nil
  | cons line rest ih =>
    rw [codeLinesFrom]
    refine List.pairwise_append.2 ⟨?_, ih _ _, ?_⟩
    · split
      next => exact List.pairwise_singleton _ _
      next => exact .nil
    · intro c hc d hd
      have hlow := (number_of_mem_codeLinesFrom hd).1
      split at hc
      next =>
        obtain rfl := List.mem_singleton.1 hc
        exact hlow
      next => simp at hc

/-- A section has the number of a code line. -/
theorem exists_of_mem_sectionsFrom {above below : List CodeLine} {s : Section}
    (h : s ∈ sectionsFrom above below) : ∃ c ∈ below, c.number = s.number := by
  induction below generalizing above with
  | nil => simp [sectionsFrom] at h
  | cons c below ih =>
    have hlater (hs : s ∈ sectionsFrom (c :: above) below) :
        ∃ d ∈ c :: below, d.number = s.number := by
      obtain ⟨d, hd, hnumber⟩ := ih hs
      exact ⟨d, List.mem_cons_of_mem _ hd, hnumber⟩
    rw [sectionsFrom] at h
    split at h
    next =>
      rcases List.mem_cons.1 h with rfl | h
      · exact ⟨c, List.mem_cons_self, rfl⟩
      · exact hlater h
    next => exact hlater h

/-- Sections have different numbers, in order. -/
theorem pairwise_sectionsFrom {above below : List CodeLine}
    (h : below.Pairwise fun c d => c.number < d.number) :
    (sectionsFrom above below).Pairwise fun s t => s.number < t.number := by
  induction below generalizing above with
  | nil => exact .nil
  | cons c below ih =>
    obtain ⟨hfirst, hrest⟩ := List.pairwise_cons.1 h
    rw [sectionsFrom]
    split
    next =>
      refine List.pairwise_cons.2 ⟨fun s hs => ?_, ih hrest⟩
      obtain ⟨d, hd, hnumber⟩ := exists_of_mem_sectionsFrom hs
      rw [← hnumber]
      exact hfirst d hd
    next => exact ih hrest

/-- The sections of a source have different numbers, in order. -/
theorem pairwise_sections (lines : List Line) :
    (sections lines).Pairwise fun s t => s.number < t.number :=
  pairwise_sectionsFrom (pairwise_codeLinesFrom .code 1 lines)

end ArgGuard
