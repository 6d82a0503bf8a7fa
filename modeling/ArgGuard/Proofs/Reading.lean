import ArgGuard.Proofs.GuardForm
import ArgGuard.Scan
import Mathlib.Data.List.Induction

/-!
# Reading a source by position

Nothing is run here. A source is read by what stands above each line: the region in which the
line stands, the nearest package declaration, and the section of the nearest sub declaration.
The reading says which lines are tags in a sub with metadata and which guard each of them must
get, given the guards of its section above it.
-/

namespace ArgGuard

/-- The region behind a line that stands in a region. -/
def Region.behind (region : Region) (line : Line) : Region :=
  match region with
  | .data => .data
  | .doc => if LineKind.closesDoc line.body then .code else .doc
  | .code =>
    match LineKind.ofLine line.body with
    | .docOpen => .doc
    | .endOfCode => .data
    | _ => .code

/-- The region behind lines, the first of which stands in a region. -/
def Region.behindAll (region : Region) (lines : List Line) : Region :=
  lines.foldl Region.behind region

namespace LineKind

/-- The name in a package declaration. -/
def package? : LineKind → Option Text
  | package name => some name
  | _ => none

/-- The tag of a tag line. -/
def tag? : LineKind → Option Tag
  | tag t => some t
  | _ => none

/-- A package or sub declaration ends a section, and so does the end of the code. -/
def endsSection : LineKind → Bool
  | package _ | function _ | endOfCode => true
  | _ => false

/-- Lines to which a scan in code does not react, the marks around documentation apart. -/
def isQuiet : LineKind → Bool
  | docOpen | docClose | other => true
  | _ => false

/-- A package declaration is one that means its package. -/
theorem package?_eq_some_iff {kind : LineKind} {name : Text} :
    kind.package? = some name ↔ kind = package name := by
  cases kind <;> simp [package?]

/-- A tag line is one that means its tag. -/
theorem tag?_eq_some_iff {kind : LineKind} {t : Tag} : kind.tag? = some t ↔ kind = tag t := by
  cases kind <;> simp [tag?]

/-- Lines without reaction end no section. -/
theorem endsSection_of_isQuiet {kind : LineKind} (h : kind.isQuiet) : kind.endsSection = false := by
  cases kind <;> simp_all [isQuiet, endsSection]

/-- A line that ends no section declares no package. -/
theorem package?_of_endsSection {kind : LineKind} (h : kind.endsSection = false) :
    kind.package? = none := by
  cases kind <;> simp_all [endsSection, package?]

end LineKind

/-- A line that stands in code. -/
structure CodeLine where
  /-- Its number, counted from one. -/
  number : Nat
  /-- The line. -/
  line : Line

namespace CodeLine

/-- What the line means. -/
def kind (c : CodeLine) : LineKind := LineKind.ofLine c.line.body

/-- The name in a package declaration. -/
def package? (c : CodeLine) : Option Text := c.kind.package?

/-- The tag of a tag line. -/
def tag? (c : CodeLine) : Option Tag := c.kind.tag?

/-- Whether the line ends a section. -/
def endsSection (c : CodeLine) : Bool := c.kind.endsSection

end CodeLine

/-- Of lines with numbers from the given one on, those that stand in code. -/
def codeLinesFrom (region : Region) (number : Nat) : List Line → List CodeLine
  | [] => []
  | line :: rest =>
    (if region = .code then [⟨number, line⟩] else []) ++
      codeLinesFrom (region.behind line) (number + 1) rest

/-- The lines of a source that stand in code. -/
def codeLines (lines : List Line) : List CodeLine := codeLinesFrom .code 1 lines

/-- A sub declaration with the code lines that belong to it. -/
structure Section where
  /-- The nearest package declaration above it. -/
  package : Option Text
  /-- The sub. -/
  name : Text
  /-- The line of its declaration. -/
  number : Nat
  /-- The code lines behind the declaration, as far as they are read. -/
  lines : List CodeLine

/-- A section with one more line. -/
def Section.extend (s : Section) (c : CodeLine) : Section := { s with lines := s.lines ++ [c] }

/-- The nearest package declaration, given the code lines above, nearest first. -/
def nearestPackage? (above : List CodeLine) : Option Text := above.findSome? CodeLine.package?

/-- The section that is open, given the code lines above, nearest first. -/
def openSection? : List CodeLine → Option Section
  | [] => none
  | c :: above =>
    match c.kind with
    | .package _ | .endOfCode => none
    | .function name => some ⟨nearestPackage? above, name, c.number, []⟩
    | _ => (openSection? above).map fun s => s.extend c

/-- The sections of code lines, given those above, nearest first. -/
def sectionsFrom (above : List CodeLine) : List CodeLine → List Section
  | [] => []
  | c :: below =>
    match c.kind with
    | .function name =>
      ⟨nearestPackage? above, name, c.number, below.takeWhile (!·.endsSection)⟩ ::
        sectionsFrom (c :: above) below
    | _ => sectionsFrom (c :: above) below

/-- The sections of a source, each up to the line that ends it. -/
def sections (lines : List Line) : List Section := sectionsFrom [] (codeLines lines)

namespace Section

/-- The metadata of the sub, if its package has any for it. -/
def metadata? (s : Section) (store : MetadataStore) : Option FunctionMetadata := do
  let package ← s.package
  let index ← (store package).toOption
  index.get? s.name

/-- Whether some tag of the section got code. -/
def hasCode (s : Section) (guards : Nat → Option Guard) : Bool :=
  s.lines.any fun c => (guards c.number).any fun guard => !guard.code.isEmpty

end Section

/-- A tag in a sub with metadata, given the code lines above, nearest first. -/
def taggedSub? (store : MetadataStore) (above : List CodeLine) (c : CodeLine) :
    Option (Tag × Section × FunctionMetadata) := do
  let tag ← c.tag?
  let s ← openSection? above
  let m ← s.metadata? store
  return (tag, s, m)

/-- A tag in a sub with metadata is a tag line in an open section with metadata. -/
theorem taggedSub?_eq_some_iff {store : MetadataStore} {above : List CodeLine} {c : CodeLine}
    {tag : Tag} {s : Section} {m : FunctionMetadata} :
    taggedSub? store above c = some (tag, s, m) ↔
      c.kind = .tag tag ∧ openSection? above = some s ∧ s.metadata? store = some m := by
  simp only [taggedSub?, Option.bind_eq_bind, Option.bind_eq_some_iff, Option.pure_def,
    Option.some.injEq, Prod.mk.injEq, CodeLine.tag?, LineKind.tag?_eq_some_iff]
  constructor
  · rintro ⟨_, htag, _, hopen, _, hm, rfl, rfl, rfl⟩
    exact ⟨htag, hopen, hm⟩
  · rintro ⟨htag, hopen, hm⟩
    exact ⟨tag, htag, s, hopen, m, hm, rfl, rfl, rfl⟩

/-- The guards that the lines of a source get, by number: one for each tag in a sub with
metadata, as the tag asks for it, and none for any other line. -/
structure AreGuards (setting : ScanSetting) (lines : List Line) (guards : Nat → Option Guard) :
    Prop where
  /-- Outside of code there are no guards. -/
  in_code : ∀ n, guards n ≠ none → ∃ c ∈ codeLines lines, c.number = n
  /-- A line that is no tag in a sub with metadata has no guard. -/
  of_other : ∀ above c below, codeLines lines = above ++ c :: below →
    taggedSub? setting.store above.reverse c = none → guards c.number = none
  /-- A tag in a sub with metadata has the guard that it asks for. The error variable counts as
  declared when a tag above in the same sub got code. -/
  of_tag : ∀ above c below tag s m, codeLines lines = above ++ c :: below →
    taggedSub? setting.store above.reverse c = some (tag, s, m) →
      ∃ guard, guards c.number = some guard ∧
        Guard.forTag setting.compiler s.name m tag (s.hasCode guards) = .ok guard

/-- A line with a guard in front of its tag. -/
def Line.withGuard (line : Line) (guard : Option Guard) : Line :=
  match guard, Tag.ofLine? line.body with
  | some guard, some tag => { line with body := tag.lead ++ guard.code ++ tag.comment }
  | _, _ => line

/-- A line without a guard stays as it is. -/
@[simp] theorem Line.withGuard_none (line : Line) : line.withGuard none = line := rfl

/-- A tag line with a guard has the guard's code in front of its tag. -/
theorem Line.withGuard_some {line : Line} {tag : Tag} (h : Tag.ofLine? line.body = some tag)
    (guard : Guard) :
    line.withGuard (some guard) = { line with body := tag.lead ++ guard.code ++ tag.comment } := by
  simp [Line.withGuard, h]

/-- The region behind lines and a further one. -/
theorem Region.behindAll_concat (region : Region) (lines : List Line) (line : Line) :
    region.behindAll (lines ++ [line]) = (region.behindAll lines).behind line := by
  simp [Region.behindAll]

/-- The code lines among lines and further ones. -/
theorem codeLinesFrom_append (region : Region) (number : Nat) (first others : List Line) :
    codeLinesFrom region number (first ++ others) =
      codeLinesFrom region number first ++
        codeLinesFrom (region.behindAll first) (number + first.length) others := by
  induction first generalizing region number with
  | nil => rfl
  | cons line rest ih =>
    rw [List.cons_append, codeLinesFrom, codeLinesFrom, ih, List.append_assoc]
    simp only [Region.behindAll, List.foldl_cons, List.length_cons]
    rw [Nat.add_assoc number 1, Nat.add_comm 1]

/-- A further line is a code line if the lines before it leave it in code. -/
theorem codeLines_concat (lines : List Line) (line : Line) :
    codeLines (lines ++ [line]) =
      codeLines lines ++
        if Region.behindAll .code lines = .code then [⟨lines.length + 1, line⟩] else [] := by
  rw [codeLines, codeLinesFrom_append, Nat.add_comm 1]
  simp [codeLinesFrom, codeLines]

/-- Code lines have the numbers of lines. -/
theorem number_of_mem_codeLinesFrom {region : Region} {number : Nat} {lines : List Line}
    {c : CodeLine} (h : c ∈ codeLinesFrom region number lines) :
    number ≤ c.number ∧ c.number < number + lines.length := by
  induction lines generalizing region number with
  | nil => simp [codeLinesFrom] at h
  | cons line rest ih =>
    rw [codeLinesFrom, List.mem_append] at h
    rw [List.length_cons]
    rcases h with h | h
    · split at h
      next =>
        obtain rfl := List.mem_singleton.1 h
        simp only
        omega
      next => simp at h
    · have hrest := ih h
      omega

/-- A line that declares no package leaves the nearest one. -/
theorem nearestPackage?_cons {c : CodeLine} {above : List CodeLine} (h : c.package? = none) :
    nearestPackage? (c :: above) = nearestPackage? above := by
  simp [nearestPackage?, h]

/-- A line that ends no section belongs to the open one. -/
theorem openSection?_cons {c : CodeLine} {above : List CodeLine} (h : c.endsSection = false) :
    openSection? (c :: above) = (openSection? above).map fun s => s.extend c := by
  rw [openSection?]
  unfold CodeLine.endsSection at h
  cases hk : c.kind with
  | package name => simp [hk, LineKind.endsSection] at h
  | function name => simp [hk, LineKind.endsSection] at h
  | endOfCode => simp [hk, LineKind.endsSection] at h
  | _ => rfl

/-- A line that ends a section leaves none open, or a new one without lines. -/
theorem lines_eq_nil_of_openSection? {c : CodeLine} {above : List CodeLine} {s : Section}
    (hc : c.endsSection = true) (h : openSection? (c :: above) = some s) : s.lines = [] := by
  rw [openSection?] at h
  unfold CodeLine.endsSection at hc
  cases hk : c.kind with
  | function name =>
    rw [hk] at h
    rw [← Option.some.inj h]
  | package name => simp [hk] at h
  | endOfCode => simp [hk] at h
  | _ => simp [hk, LineKind.endsSection] at hc

/-- At each line of an open section, the section was open before with the lines in front of it. -/
theorem openSection?_of_lines_eq {above : List CodeLine} {s : Section}
    (h : openSection? above = some s) {before after : List CodeLine} {c : CodeLine}
    (hlines : s.lines = before ++ c :: after) :
    ∃ nearer farther, above = nearer ++ c :: farther ∧
      openSection? farther = some { s with lines := before } := by
  induction above generalizing s after with
  | nil => simp [openSection?] at h
  | cons first above ih =>
    cases hends : first.endsSection with
    | true => simp [lines_eq_nil_of_openSection? hends h] at hlines
    | false =>
      rw [openSection?_cons hends] at h
      obtain ⟨s', hs', rfl⟩ := Option.map_eq_some_iff.1 h
      have hparts : s'.lines ++ [first] = before ++ c :: after := hlines
      rcases List.eq_nil_or_concat after with rfl | ⟨after, last, rfl⟩
      · -- The line is the nearest one.
        obtain ⟨hbefore, hc⟩ := List.append_inj' hparts rfl
        obtain rfl := List.singleton_inj.1 hc
        exact ⟨[], above, rfl, by rw [hs', ← hbefore]; rfl⟩
      · rw [List.concat_eq_append, ← List.cons_append, ← List.append_assoc] at hparts
        obtain ⟨nearer, farther, rfl, hopen⟩ := ih hs' (List.append_inj' hparts rfl).1
        exact ⟨first :: nearer, farther, rfl, hopen⟩

/-- At each line of an open section, the section was open before. -/
theorem exists_of_mem_openSection? {above : List CodeLine} {s : Section}
    (h : openSection? above = some s) {c : CodeLine} (hc : c ∈ s.lines) :
    ∃ nearer farther s', above = nearer ++ c :: farther ∧ openSection? farther = some s' ∧
      s'.package = s.package ∧ s'.name = s.name := by
  obtain ⟨before, after, hlines⟩ := List.append_of_mem hc
  obtain ⟨nearer, farther, habove, hopen⟩ := openSection?_of_lines_eq h hlines
  exact ⟨nearer, farther, _, habove, hopen, rfl, rfl⟩

/-- The lines of an open section are among the lines above. -/
theorem mem_of_openSection? {above : List CodeLine} {s : Section}
    (h : openSection? above = some s) {c : CodeLine} (hc : c ∈ s.lines) : c ∈ above := by
  obtain ⟨nearer, farther, s', rfl, -⟩ := exists_of_mem_openSection? h hc
  simp

/-- The reading by position leaves no choice of guards. -/
theorem AreGuards.unique {setting : ScanSetting} {lines : List Line}
    {guards others : Nat → Option Guard} (h : AreGuards setting lines guards)
    (ho : AreGuards setting lines others) : guards = others := by
  -- The lines above decide which guard a line gets, so the induction is on them.
  have habove (above below : List CodeLine) (hcode : codeLines lines = above ++ below) :
      ∀ c ∈ above, guards c.number = others c.number := by
    induction above using List.reverseRecOn generalizing below with
    | nil => simp
    | append_singleton above c ih =>
      rw [List.append_assoc, List.singleton_append] at hcode
      have hbefore := ih (c :: below) hcode
      intro c' hc'
      rcases List.mem_append.1 hc' with hc' | hc'
      · exact hbefore c' hc'
      · obtain rfl := List.mem_singleton.1 hc'
        cases htagged : taggedSub? setting.store above.reverse c' with
        | none =>
          rw [h.of_other above c' below hcode htagged, ho.of_other above c' below hcode htagged]
        | some tagged =>
          obtain ⟨tag, s, m⟩ := tagged
          obtain ⟨g, hg, hfor⟩ := h.of_tag above c' below tag s m hcode htagged
          obtain ⟨g', hg', hfor'⟩ := ho.of_tag above c' below tag s m hcode htagged
          have hopen := (taggedSub?_eq_some_iff.1 htagged).2.1
          have hsame : s.hasCode guards = s.hasCode others := by
            rw [Bool.eq_iff_iff, Section.hasCode, Section.hasCode, List.any_eq_true,
              List.any_eq_true]
            refine exists_congr fun d => and_congr_right fun hd => ?_
            rw [hbefore d (List.mem_reverse.1 (mem_of_openSection? hopen hd))]
          rw [hsame, hfor'] at hfor
          rw [hg, hg', Except.ok.inj hfor]
  funext n
  by_cases hn : ∃ c ∈ codeLines lines, c.number = n
  · obtain ⟨c, hc, rfl⟩ := hn
    exact habove (codeLines lines) [] (List.append_nil _).symm c hc
  · have hnone : guards n = none := by
      by_contra hne
      exact hn (h.in_code n hne)
    have hnone' : others n = none := by
      by_contra hne
      exact hn (ho.in_code n hne)
    rw [hnone, hnone']

end ArgGuard
