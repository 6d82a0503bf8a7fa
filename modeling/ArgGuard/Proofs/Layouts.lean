import ArgGuard.Metadata.Store
import ArgGuard.Proofs.RecordReadings

/-!
# The two layouts of metadata

The metadata of a package is the same, whether its text is kept in a file of its own or as the only
member of an object in a file for all packages. A file of its own is read straight, and the member
of an object as a value, so the two layouts agree as the two ways of reading do.
-/

namespace ArgGuard

open Json

namespace Json

/-- A text is one JSON value, given by its outline, with white space around it. -/
def Writes (text : Text) (o : Outline) : Prop :=
  ∃ rest, Outline.InFront text o rest ∧ skipSpace rest = []

/-- A text that is one value is read as its outline is. -/
theorem Writes.readText_eq {α : Type} {text : Text} {o : Outline} (h : Writes text o)
    (read : Outline → Except Fault α) : readText read text = read o := by
  obtain ⟨rest, hfront, hrest⟩ := h
  unfold readText
  rw [(Outline.inFront_iff.1 hfront).1]
  simp only [hrest]
  cases read o <;> rfl

/-- White space is skipped up to something else. -/
theorem skipSpace_of_all {space : Text} (hspace : space.all isSpace) {c : Char}
    (hc : isSpace c = false) (rest : Text) : skipSpace (space ++ c :: rest) = c :: rest :=
  Text.dropWhile_eq_iff.2 ⟨space, hspace, rfl, Text.stopsAt_cons hc rest⟩

/-- Nothing but white space is skipped altogether. -/
theorem skipSpace_eq_nil_iff {s : Text} : skipSpace s = [] ↔ s.all isSpace := by
  rw [skipSpace, Text.dropWhile_eq_iff]
  constructor
  · rintro ⟨space, hspace, rfl, -⟩
    rwa [List.append_nil]
  · exact fun h => ⟨s, h, (List.append_nil s).symm, Text.stopsAt_nil⟩

/-- An object with one member as it is written, around the text of the member's value. -/
structure OnlyMember (name value : Text) where
  /-- White space before the brace. -/
  before : Text
  /-- White space behind the brace. -/
  inside : Text
  /-- The name as it stands between its quotes. -/
  spelled : Text
  /-- White space before the colon. -/
  named : Text
  /-- White space behind the object. -/
  behind : Text
  /-- Before the brace is white space only. -/
  before_space : before.all isSpace
  /-- Behind the brace is white space only. -/
  inside_space : inside.all isSpace
  /-- Between the quotes the name is written. -/
  spells : string? (spelled ++ ['"']) = .ok (.ok name, [])
  /-- Before the colon is white space only. -/
  named_space : named.all isSpace
  /-- Behind the object is white space only. -/
  behind_space : behind.all isSpace

namespace OnlyMember

variable {name value : Text}

/-- The text of an object with one member. -/
def text (m : OnlyMember name value) : Text :=
  m.before ++ '\x7b' :: (m.inside ++ '"' :: (m.spelled ++ ['"'] ++ (m.named ++ ':' ::
    (value ++ '\x7d' :: m.behind))))

/-- An object with one member is one value, if the member's is. -/
theorem writes (m : OnlyMember name value) {o : Outline} (h : Writes value o) :
    Writes m.text (.object [(.ok name, o)] .closed) := by
  obtain ⟨rest, hfront, hrest⟩ := h
  have hends : EndsNumber ('\x7d' :: m.behind) := by
    intro c hc
    obtain rfl : '\x7d' = c := by simpa using hc
    decide
  have hvalue := hfront.append hends
  have hclose : skipSpace (rest ++ '\x7d' :: m.behind) = '\x7d' :: m.behind := by
    exact skipSpace_of_all (skipSpace_eq_nil_iff.1 hrest) (by decide) _
  have hmember := Outline.MembersInFront.last rfl (string?_append m.spells)
    (skipSpace_of_all m.named_space (by decide) _) hvalue hclose
  have hopen (s : Text) : Front.ofText (m.before ++ '\x7b' :: s) = .openObject s := by
    rw [Front.ofText, skipSpace_of_all m.before_space (by decide)]
    rfl
  refine ⟨m.behind, .object (hopen _) ?_, skipSpace_eq_nil_iff.2 m.behind_space⟩
  rw [skipSpace_of_all m.inside_space (by decide)]
  exact hmember

end OnlyMember

end Json

/-- Naming a failure changes no success. -/
theorem mapError_eq_ok_iff {ε ε' α : Type} {x : Except ε α} {f : ε → ε'} {a : α} :
    x.mapError f = .ok a ↔ x = .ok a := by
  cases x <;> simp [Except.mapError]

namespace Metadata.Layout

variable {package text : Text} {o : Outline} {index : MetadataIndex}
  {read : Text → Except FileError Text}

/-- A directory tells the metadata of a package where its file is read straight. -/
theorem directory_store_eq_ok_iff {dir : Text}
    (hread : read ((directory dir).pathOf package) = .ok text) (h : Writes text o) :
    (directory dir).store read package = .ok index ↔
      readDictionary FunctionMetadata.read Outline.nestingLimit o = .ok index := by
  simp only [store, hread, Layout.index, MetadataIndex.ofText, h.readText_eq, mapError_eq_ok_iff]

/-- The members of an object with one member are its name and its value. -/
theorem membersOfText_eq_ok_iff (member : OnlyMember package text) (h : Writes text o)
    {packages : Dictionary Text Value} :
    membersOfText member.text = .ok packages ↔
      ∃ v, o.value (Outline.nestingLimit - 1) = .ok v ∧ packages = [(package, v)] := by
  rw [membersOfText, (member.writes h).readText_eq, readDictionary_eq_ok_iff]
  constructor
  · rintro ⟨inner, _, entries, hinner, ho, hentries, rfl⟩
    obtain rfl : inner = Outline.nestingLimit - 1 := by omega
    obtain ⟨rfl, -⟩ := Outline.object.inj ho
    obtain ⟨⟨name, v⟩, rest, ⟨hname, hv⟩, hrest, rfl⟩ := List.forall₂_cons_left_iff.1 hentries
    obtain rfl := List.forall₂_nil_left_iff.1 hrest
    obtain rfl : package = name := Except.ok.inj hname
    exact ⟨v, hv, rfl⟩
  · rintro ⟨v, hv, rfl⟩
    exact ⟨Outline.nestingLimit - 1, _, [(package, v)], rfl, rfl, .cons ⟨rfl, hv⟩ .nil, rfl⟩

/-- A file with one package tells the metadata of that package where its value is read. -/
theorem file_store_eq_ok_iff {path : Text} (member : OnlyMember package text)
    (hread : read path = .ok member.text) (h : Writes text o) :
    (file path).store read package = .ok index ↔
      ∃ v, o.value (Outline.nestingLimit - 1) = .ok v ∧ MetadataIndex.ofValue v = .ok index := by
  simp only [store, pathOf, hread, Layout.index, bind_eq_ok_iff, mapError_eq_ok_iff,
    membersOfText_eq_ok_iff member h]
  constructor
  · rintro ⟨_, ⟨v, hv, rfl⟩, hindex⟩
    simp only [Dictionary.get?_cons, if_true, mapError_eq_ok_iff] at hindex
    exact ⟨v, hv, hindex⟩
  · rintro ⟨v, hv, hindex⟩
    refine ⟨_, ⟨v, hv, rfl⟩, ?_⟩
    simp only [Dictionary.get?_cons, if_true, mapError_eq_ok_iff]
    exact hindex

/-- The two layouts of metadata agree. -/
theorem stores_agree {dir path : Text} {readDirectory readFile : Text → Except FileError Text}
    (h : Writes text o) (hdirectory : readDirectory ((directory dir).pathOf package) = .ok text)
    (member : OnlyMember package text) (hfile : readFile path = .ok member.text) :
    (∀ straight kept, (directory dir).store readDirectory package = .ok straight →
        (file path).store readFile package = .ok kept → straight = kept) ∧
      (o.Distinct → ∀ kept, (file path).store readFile package = .ok kept →
        (directory dir).store readDirectory package = .ok kept) := by
  constructor
  · intro straight kept hstraight hkept
    obtain ⟨v, hv, hkept⟩ := (file_store_eq_ok_iff member hfile h).1 hkept
    exact MetadataIndex.readAlike.same hv ((directory_store_eq_ok_iff hdirectory h).1 hstraight)
      hkept
  · intro hdistinct kept hkept
    obtain ⟨v, hv, hkept⟩ := (file_store_eq_ok_iff member hfile h).1 hkept
    exact (directory_store_eq_ok_iff hdirectory h).2
      (MetadataIndex.readAlike.straight hv (by decide) hdistinct hkept)

/-- The metadata of a package with one function of one argument. -/
def squareText : Text :=
  "\x7b\"area\": \x7b\"v\": 1.1, \"args\": \x7b\"side\": " ++
    "\x7b\"schema\": \"num\", \"req\": true\x7d\x7d\x7d\x7d"

/-- The outline of that metadata. -/
def squareOutline : Outline := (Outline.ofText squareText).1

/-- That metadata as the only member of an object. -/
def squareMember : OnlyMember "Square" squareText where
  before := []
  inside := " "
  spelled := "Sq\\u0075are"
  named := []
  behind := "\n"
  before_space := by decide
  inside_space := by decide
  spells := by decide +kernel
  named_space := by decide
  behind_space := by decide

/-- That metadata is one value. -/
theorem writes_squareText : Writes squareText squareOutline :=
  ⟨(Outline.ofText squareText).2, Outline.inFront_iff.2 ⟨(Prod.eta _).symm, by decide +kernel⟩,
    by decide +kernel⟩

/-- The two layouts tell the same about a package that both know. -/
theorem stores_agree_square :
    ∃ index, (directory "meta").store (fun _ => .ok squareText) "Square" = .ok index ∧
      (file "meta.json").store (fun _ => .ok squareMember.text) "Square" = .ok index := by
  have hsome : ((file "meta.json").store (fun _ => .ok squareMember.text)
      "Square").isOk = true := by decide +kernel
  obtain ⟨-, hstraight⟩ := @stores_agree _ _ squareOutline "meta" "meta.json"
    (fun _ => .ok squareText) (fun _ => .ok squareMember.text) writes_squareText rfl squareMember
    rfl
  generalize hstore : (file "meta.json").store (fun _ => .ok squareMember.text) "Square" = found
    at hsome hstraight
  cases found with
  | error e => simp [Except.isOk, Except.toBool] at hsome
  | ok kept => exact ⟨kept, hstraight (by decide +kernel) kept rfl, rfl⟩

/-- A field that is given twice is refused where the text is read straight only. -/
example :
    let text : Text := "\x7b\"f\": \x7b\"v\": 1, \"v\": 2\x7d\x7d"
    (MetadataIndex.ofText text).isOk = false ∧
      (Value.ofText text >>= MetadataIndex.ofValue).isOk = true := by
  decide +kernel

end Metadata.Layout

end ArgGuard
