import ArgGuard.Proofs.GuardText
import ArgGuard.Proofs.Spans
import ArgGuard.Proofs.TagLine

/-!
# The form of tag lines

A tag line is blanks, the word `my`, a variable, perhaps an initializer, a semicolon, and a
comment with the keyword and perhaps an argument name. Its initializer may hold semicolons, equals
signs, comments and even the text of another tag, and still a line can be cut into these parts in
one way only: the comment starts at the last `#`, blanks are cut as far as they go, and names as
far as their characters go. So reading a line finds these parts exactly if it has them.
-/

namespace ArgGuard

namespace Text

variable {s rest : Text}

/-- Blanks are skipped as far as they go. -/
theorem skipBlanks_eq_iff :
    skipBlanks s = rest ↔ ∃ blanks, blanks.all isBlank ∧ s = blanks ++ rest ∧
      StopsAt isBlank rest :=
  dropWhile_eq_iff

/-- At least one blank is skipped, and then blanks as far as they go. -/
theorem skipBlanks?_eq_some_iff :
    skipBlanks? s = some rest ↔ ∃ blanks, blanks ≠ [] ∧ blanks.all isBlank ∧
      s = blanks ++ rest ∧ StopsAt isBlank rest := by
  cases s with
  | nil =>
    simp only [skipBlanks?, reduceCtorEq, false_iff]
    rintro ⟨blanks, hne, -, hs, -⟩
    exact hne (List.append_eq_nil_iff.1 hs.symm).1
  | cons c s =>
    rw [skipBlanks?]
    by_cases hc : isBlank c
    · simp only [hc, if_true, Option.some.injEq, skipBlanks_eq_iff]
      constructor
      · rintro ⟨blanks, hblanks, rfl, hrest⟩
        have hall : (c :: blanks).all isBlank := by rw [List.all_cons, hc, hblanks, Bool.and_self]
        exact ⟨c :: blanks, List.cons_ne_nil _ _, hall, rfl, hrest⟩
      · rintro ⟨blanks, hne, hblanks, hs, hrest⟩
        obtain ⟨d, blanks, rfl⟩ := List.exists_cons_of_ne_nil hne
        obtain ⟨rfl, rfl⟩ := List.cons.inj hs
        exact ⟨blanks, (Bool.and_eq_true_iff.1 (List.all_cons ▸ hblanks)).2, rfl, hrest⟩
    · simp only [hc, if_false, Bool.false_eq_true, reduceCtorEq, false_iff]
      rintro ⟨blanks, hne, hblanks, hs, -⟩
      obtain ⟨d, blanks, rfl⟩ := List.exists_cons_of_ne_nil hne
      obtain ⟨rfl, -⟩ := List.cons.inj hs
      exact hc (Bool.and_eq_true_iff.1 (List.all_cons ▸ hblanks)).1

end Text

namespace Identifier

/-- An identifier is a start and word characters behind it. -/
theorem isBareword_cons {c : Char} {s : Text} :
    isBareword (c :: s) ↔ isStart c ∧ s.all Unicode.isWord := by
  simp [isBareword]

/-- The longest identifier in front of a text ends where no word character goes on. -/
theorem read?_eq_some_iff {s name rest : Text} :
    read? s = some (name, rest) ↔
      isBareword name ∧ s = name ++ rest ∧ Text.StopsAt Unicode.isWord rest := by
  cases s with
  | nil =>
    simp only [read?, reduceCtorEq, false_iff]
    rintro ⟨hname, hs, -⟩
    obtain ⟨rfl, -⟩ := List.append_eq_nil_iff.1 hs.symm
    simp [isBareword] at hname
  | cons c s =>
    rw [read?]
    by_cases hc : isStart c
    · simp only [hc, if_true, spanWord, Option.some.injEq, Prod.mk.injEq]
      constructor
      · rintro ⟨rfl, hrest⟩
        obtain ⟨word, hword, rfl, hstop⟩ := Text.dropWhile_eq_iff.1 hrest
        rw [Text.takeWhile_append_eq hword hstop]
        exact ⟨isBareword_cons.2 ⟨hc, hword⟩, rfl, hstop⟩
      · rintro ⟨hname, hs, hstop⟩
        cases name with
        | nil => simp [isBareword] at hname
        | cons d word =>
          rw [List.cons_append, List.cons.injEq] at hs
          obtain ⟨rfl, hs⟩ := hs
          have hword := (isBareword_cons.1 hname).2
          have htake : s.takeWhile Unicode.isWord = word :=
            hs ▸ Text.takeWhile_append_eq hword hstop
          exact ⟨by rw [htake], Text.dropWhile_eq_iff.2 ⟨word, hword, hs, hstop⟩⟩
    · simp only [hc, if_false, Bool.false_eq_true, reduceCtorEq, false_iff]
      rintro ⟨hname, hs, -⟩
      cases name with
      | nil => simp [isBareword] at hname
      | cons d word =>
        obtain ⟨rfl, -⟩ := List.cons.inj hs
        exact hc (isBareword_cons.1 hname).1

end Identifier

namespace Tag

/-- Blanks and nothing else. -/
abbrev Blanks := { s : Text // s.all Text.isBlank }

/-- At least one blank. -/
abbrev Gap := { s : Text // s ≠ [] ∧ s.all Text.isBlank }

/-- An identifier: an ASCII letter or an underscore, and word characters behind it. -/
abbrev Name := { s : Text // Identifier.isBareword s }

/-- An initializer of a declaration. -/
@[ext] structure Initializer where
  /-- The blanks in front of the equals sign. -/
  space : Blanks
  /-- What stands behind the equals sign. -/
  value : Text
  /-- It stays on its line. -/
  one_line : '\n' ∉ value

/-- The characters of an initializer. -/
def Initializer.text (i : Initializer) : Text := i.space ++ '=' :: i.value

/-- An argument named behind the keyword. -/
@[ext] structure Argument where
  /-- The blanks in front of it. -/
  gap : Gap
  /-- Its name. -/
  name : Name

/-- The characters of a named argument. -/
def Argument.text (a : Argument) : Text := a.gap ++ a.name

/-- The parts of a tag line. -/
@[ext] structure Form where
  /-- The blanks in front of the line. -/
  indent : Blanks
  /-- The blanks behind `my`. -/
  gap : Gap
  /-- The kind of the declared variable. -/
  sigil : Sigil
  /-- The declared variable's name. -/
  name : Name
  /-- The initializer, if there is one. -/
  initial : Option Initializer
  /-- The blanks behind the semicolon. -/
  space : Blanks
  /-- The blanks behind the `#` of the comment. -/
  inset : Blanks
  /-- What the keyword asks for. -/
  scope : Scope
  /-- The named argument, if there is one. -/
  argument : Option Argument
  /-- The blanks at the end of the line. -/
  ending : Blanks

namespace Form

/-- The code of a tag line, up to its comment. -/
def lead (f : Form) : Text :=
  f.indent ++ "my" ++ f.gap ++ f.sigil.char :: f.name ++ (f.initial.map Initializer.text).getD [] ++
    ';' :: f.space

/-- The comment of a tag line. -/
def comment (f : Form) : Text :=
  '#' :: f.inset ++ f.scope.keyword ++ (f.argument.map Argument.text).getD [] ++ f.ending

/-- The whole tag line. -/
def text (f : Form) : Text := f.lead ++ f.comment

/-- The tag that a line of this form holds. -/
def tag (f : Form) : Tag where
  scope := f.scope
  sigil := f.sigil
  name := f.name
  explicit := f.argument.map fun a => a.name
  lead := f.lead
  comment := f.comment

end Form

/-- A declaration is cut off in front of the last semicolon, if only blanks follow that. -/
theorem dropSemicolon?_eq_some_iff {s before : Text} :
    dropSemicolon? s = some before ↔ ∃ space : Blanks, s = before ++ ';' :: space := by
  have htrim : (Text.trimBlanksEnd s).reverse = s.reverse.dropWhile Text.isBlank := by
    simp [Text.trimBlanksEnd]
  have hcut : dropSemicolon? s = some before ↔
      s.reverse.dropWhile Text.isBlank = ';' :: before.reverse := by
    rw [dropSemicolon?, htrim]
    split
    next front hfront => rw [hfront, Option.some.injEq]; simp [List.reverse_eq_iff]
    next hno =>
      simp only [reduceCtorEq, false_iff]
      exact hno before.reverse
  rw [hcut, Text.dropWhile_eq_iff]
  constructor
  · rintro ⟨blanks, hblanks, hs, -⟩
    refine ⟨⟨blanks.reverse, by simpa using hblanks⟩, ?_⟩
    simpa using congrArg List.reverse hs
  · rintro ⟨⟨space, hspace⟩, rfl⟩
    exact ⟨space.reverse, by simpa using hspace, by simp, Text.stopsAt_cons rfl _⟩

/-- With blanks behind its last semicolon, a text is cut there in one way only. -/
theorem semicolon_injective {before other : Text} {space blanks : Blanks}
    (h : before ++ ';' :: (space : Text) = other ++ ';' :: (blanks : Text)) :
    before = other ∧ space = blanks := by
  have hbefore : dropSemicolon? (before ++ ';' :: (space : Text)) = some before :=
    dropSemicolon?_eq_some_iff.2 ⟨space, rfl⟩
  have hother : dropSemicolon? (before ++ ';' :: (space : Text)) = some other :=
    dropSemicolon?_eq_some_iff.2 ⟨blanks, h⟩
  obtain rfl := Option.some.inj (hbefore.symm.trans hother)
  exact ⟨rfl, Subtype.ext (List.cons.inj (List.append_cancel_left h)).2⟩

/-- An initializer is blanks, an equals sign, and anything that stays on its line. -/
theorem isInitializer_iff {s : Text} : isInitializer s ↔ ∃ i : Initializer, s = i.text := by
  unfold isInitializer
  constructor
  · intro h
    split at h
    next value hvalue =>
      obtain ⟨space, hspace, rfl, -⟩ := Text.skipBlanks_eq_iff.1 hvalue
      exact ⟨⟨⟨space, hspace⟩, value, by simpa using h⟩, rfl⟩
    next => simp at h
  · rintro ⟨⟨⟨space, hspace⟩, value, hvalue⟩, rfl⟩
    have hskip : Text.skipBlanks (space ++ '=' :: value) = '=' :: value :=
      Text.skipBlanks_eq_iff.2 ⟨space, hspace, rfl, Text.stopsAt_cons rfl _⟩
    simp [Initializer.text, hskip, hvalue]

/-- What may stand between a variable and the semicolon: nothing or an initializer. -/
theorem isEmpty_or_isInitializer_iff {s : Text} :
    (s.isEmpty || isInitializer s) ↔
      ∃ initial : Option Initializer, s = (initial.map Initializer.text).getD [] := by
  rw [Bool.or_eq_true, isInitializer_iff, List.isEmpty_iff]
  constructor
  · rintro (rfl | ⟨i, rfl⟩)
    · exact ⟨none, rfl⟩
    · exact ⟨some i, rfl⟩
  · rintro ⟨none | i, rfl⟩
    · exact .inl rfl
    · exact .inr ⟨i, rfl⟩

/-- No initializer goes on with a name, and a semicolon does not either. -/
theorem stopsAt_initial (initial : Option Initializer) (rest : Text) :
    Text.StopsAt Unicode.isWord ((initial.map Initializer.text).getD [] ++ ';' :: rest) := by
  cases initial with
  | none => exact Text.stopsAt_cons (by decide) _
  | some i =>
    obtain ⟨⟨space, hspace⟩, value, hvalue⟩ := i
    cases space with
    | nil => exact Text.stopsAt_cons (by decide) _
    | cons c space =>
      refine Text.stopsAt_cons ?_ _
      have hc : Text.isBlank c := (Bool.and_eq_true_iff.1 (List.all_cons ▸ hspace)).1
      simp only [Text.isBlank, Bool.or_eq_true, decide_eq_true_eq] at hc
      rcases hc with rfl | rfl <;> decide

/-- A sigil is the character of its kind. -/
theorem ofChar?_eq_some_iff {c : Char} {sigil : Sigil} :
    Sigil.ofChar? c = some sigil ↔ c = sigil.char := by
  constructor
  · intro h
    unfold Sigil.ofChar? at h
    grind [Sigil.char]
  · rintro rfl
    exact Sigil.ofChar?_char sigil

/-- A declaration is read exactly if it has the parts of one. -/
theorem declaration?_eq_some_iff {lead : Text} {sigil : Sigil} {name : Text} :
    declaration? lead = some (sigil, name) ↔
      Identifier.isBareword name ∧ ∃ (indent : Blanks) (gap : Gap) (initial : Option Initializer)
        (space : Blanks), lead = indent ++ "my" ++ gap ++ sigil.char :: name ++
          (initial.map Initializer.text).getD [] ++ ';' :: space := by
  simp only [declaration?, Option.bind_eq_bind, Option.bind_eq_some_iff]
  constructor
  · rintro ⟨afterMy, hmy, start, hstart, kind, hkind, ⟨word, rest⟩, hread, before, hbefore, hend⟩
    obtain ⟨hempty, rfl, rfl⟩ : (before.isEmpty || isInitializer before) ∧ kind = sigil ∧
        word = name := by
      split at hend <;> simp_all
    obtain ⟨initial, rfl⟩ := isEmpty_or_isInitializer_iff.1 hempty
    obtain ⟨space, rfl⟩ := dropSemicolon?_eq_some_iff.1 hbefore
    obtain ⟨hword, htail, -⟩ := Identifier.read?_eq_some_iff.1 hread
    obtain ⟨gap, hne, hgap, rfl, -⟩ := Text.skipBlanks?_eq_some_iff.1 hstart
    obtain ⟨indent, hindent, hlead, -⟩ := Text.skipBlanks_eq_iff.1
      (List.append_eq_of_isPrefixOf?_eq_some hmy).symm
    obtain ⟨c, hc, hsigil⟩ := hkind
    obtain rfl := ofChar?_eq_some_iff.1 hsigil
    refine ⟨hword, ⟨indent, hindent⟩, ⟨gap, hne, hgap⟩, initial, space, ?_⟩
    have hcons : start = kind.char :: start.tail := (List.cons_head?_tail hc).symm
    rw [hlead, hcons, htail]
    simp
  · rintro ⟨hname, ⟨indent, hindent⟩, ⟨gap, hne, hgap⟩, initial, space, rfl⟩
    generalize hbefore : (initial.map Initializer.text).getD [] = before
    have hsigil : Text.isBlank sigil.char = false := by cases sigil <;> decide
    have hstop := hbefore ▸ stopsAt_initial initial space
    have hmy : Text.skipBlanks (indent ++ "my" ++ gap ++ sigil.char :: name ++ before ++
        ';' :: space) = "my" ++ (gap ++ sigil.char :: (name ++ (before ++ ';' :: space))) :=
      Text.skipBlanks_eq_iff.2 ⟨indent, hindent, by simp, Text.stopsAt_cons (by decide) _⟩
    have hgap : Text.skipBlanks? (gap ++ sigil.char :: (name ++ (before ++ ';' :: space))) =
        some (sigil.char :: (name ++ (before ++ ';' :: space))) :=
      Text.skipBlanks?_eq_some_iff.2 ⟨gap, hne, hgap, rfl, Text.stopsAt_cons hsigil _⟩
    refine ⟨_, List.isPrefixOf?_eq_some_iff_append_eq.2 hmy.symm, _, hgap, sigil, ?_, (name, _),
      Identifier.read?_eq_some_iff.2 ⟨hname, rfl, hstop⟩, before,
      dropSemicolon?_eq_some_iff.2 ⟨space, rfl⟩, ?_⟩
    · exact ⟨sigil.char, rfl, Sigil.ofChar?_char sigil⟩
    · rw [if_pos (isEmpty_or_isInitializer_iff.2 ⟨initial, hbefore.symm⟩)]

/-- An identifier does not start with a blank. -/
theorem stopsAt_name (name : Name) (rest : Text) : Text.StopsAt Text.isBlank (name ++ rest) := by
  obtain ⟨name, hname⟩ := name
  cases name with
  | nil => simp [Identifier.isBareword] at hname
  | cons c name =>
    refine Text.stopsAt_cons ?_ _
    have hc := (Identifier.isBareword_cons.1 hname).1
    by_contra hblank
    simp only [Text.isBlank, Bool.not_eq_false, Bool.or_eq_true, decide_eq_true_eq] at hblank
    rcases hblank with rfl | rfl <;> simp [Identifier.isStart] at hc

/-- No name goes on with blanks. -/
theorem stopsAt_blanks (blanks : Blanks) : Text.StopsAt Unicode.isWord blanks := by
  intro c hc
  have hblank := List.all_eq_true.1 blanks.2 c (List.mem_of_mem_head? hc)
  simp only [Text.isBlank, Bool.or_eq_true, decide_eq_true_eq] at hblank
  rcases hblank with rfl | rfl <;> decide

/-- A named argument is not all blanks. -/
theorem not_all_isBlank_argument (a : Argument) (ending : Blanks) :
    ¬(a.text ++ ending).all Text.isBlank := by
  obtain ⟨c, rest, hcons⟩ : ∃ c rest, (a.name : Text) = c :: rest := by
    refine List.exists_cons_of_ne_nil fun hnil => ?_
    have hname := a.name.2
    rw [hnil] at hname
    simp [Identifier.isBareword] at hname
  have hc := stopsAt_name a.name [] c (by simp [hcons])
  simp [Argument.text, hcons, hc]

/-- Behind the keyword of a tag stands nothing but blanks, or one name between blanks. -/
theorem explicit?_eq_some_iff {s : Text} {explicit : Option Text} :
    explicit? s = some explicit ↔ ∃ (argument : Option Argument) (ending : Blanks),
      s = (argument.map Argument.text).getD [] ++ ending ∧
        argument.map (fun a => (a.name : Text)) = explicit := by
  unfold explicit?
  constructor
  · intro h
    split at h
    next hblank =>
      obtain rfl := Option.some.inj h
      exact ⟨none, ⟨s, hblank⟩, rfl, rfl⟩
    next =>
      simp only [Option.bind_eq_bind, Option.bind_eq_some_iff] at h
      obtain ⟨start, hstart, ⟨name, rest⟩, hread, hend⟩ := h
      obtain ⟨hrest, rfl⟩ : rest.all Text.isBlank ∧ some name = explicit := by
        split at hend <;> simp_all
      obtain ⟨gap, hne, hgap, rfl, -⟩ := Text.skipBlanks?_eq_some_iff.1 hstart
      obtain ⟨hname, rfl, -⟩ := Identifier.read?_eq_some_iff.1 hread
      exact ⟨some ⟨⟨gap, hne, hgap⟩, ⟨name, hname⟩⟩, ⟨rest, hrest⟩, by simp [Argument.text], rfl⟩
  · rintro ⟨argument, ending, rfl, rfl⟩
    cases argument with
    | none => exact if_pos ending.2
    | some a =>
      have hgap : Text.skipBlanks? (a.text ++ ending) = some ((a.name : Text) ++ ending) :=
        Text.skipBlanks?_eq_some_iff.2
          ⟨a.gap, a.gap.2.1, a.gap.2.2, by simp [Argument.text], stopsAt_name a.name ending⟩
      have hname : Identifier.read? ((a.name : Text) ++ ending) = some (↑a.name, ↑ending) :=
        Identifier.read?_eq_some_iff.2 ⟨a.name.2, rfl, stopsAt_blanks ending⟩
      have hending : (ending : Text).all Text.isBlank := ending.2
      simp only [Option.map_some, Option.getD_some, not_all_isBlank_argument, Bool.false_eq_true,
        if_false, hgap, hname, Option.bind_eq_bind, Option.bind_some, hending, if_true]

/-- Behind the keyword of a tag comes a blank, if anything. -/
theorem isBlank_of_head?_argument (argument : Option Argument) (ending : Blanks) {c : Char}
    (hc : c ∈ ((argument.map Argument.text).getD [] ++ (ending : Text)).head?) :
    Text.isBlank c := by
  cases argument with
  | none => exact List.all_eq_true.1 ending.2 c (List.mem_of_mem_head? hc)
  | some a =>
    obtain ⟨d, gap, hcons⟩ := List.exists_cons_of_ne_nil a.gap.2.1
    have hd := List.all_eq_true.1 a.gap.2.2 d (by simp [hcons])
    obtain rfl : d = c := by simpa [Argument.text, hcons] using hc
    exact hd

/-- The comment of a tag is read exactly if it has the parts of one. -/
theorem keyword?_eq_some_iff {comment : Text} {scope : Scope} {explicit : Option Text} :
    keyword? comment = some (scope, explicit) ↔
      ∃ (inset : Blanks) (argument : Option Argument) (ending : Blanks),
        comment = '#' :: inset ++ scope.keyword ++ (argument.map Argument.text).getD [] ++ ending ∧
          argument.map (fun a => (a.name : Text)) = explicit := by
  have hall : Scope.all.keyword = Scope.single.keyword ++ ['S'] := rfl
  constructor
  · intro h
    unfold keyword? at h
    split at h
    next afterHash =>
      simp only [Option.bind_eq_bind, Option.bind_eq_some_iff] at h
      obtain ⟨behind, hbehind, hend⟩ := h
      obtain ⟨inset, hinset, rfl, -⟩ := Text.skipBlanks_eq_iff.1
        (List.append_eq_of_isPrefixOf?_eq_some hbehind).symm
      split at hend
      next rest =>
        simp only [Option.pure_def, Option.bind_eq_some_iff, Option.some.injEq,
          Prod.mk.injEq] at hend
        obtain ⟨explicit', hexplicit, rfl, rfl⟩ := hend
        obtain ⟨argument, ending, rfl, hname⟩ := explicit?_eq_some_iff.1 hexplicit
        exact ⟨⟨inset, hinset⟩, argument, ending, by simp [hall], hname⟩
      next =>
        simp only [Option.pure_def, Option.bind_eq_some_iff, Option.some.injEq,
          Prod.mk.injEq] at hend
        obtain ⟨explicit', hexplicit, rfl, rfl⟩ := hend
        obtain ⟨argument, ending, rfl, hname⟩ := explicit?_eq_some_iff.1 hexplicit
        exact ⟨⟨inset, hinset⟩, argument, ending, by simp, hname⟩
    next => simp at h
  · rintro ⟨inset, argument, ending, rfl, hname⟩
    have hexplicit := explicit?_eq_some_iff.2 ⟨argument, ending, rfl, hname⟩
    have hfirst (c : Char) := isBlank_of_head?_argument argument ending (c := c)
    rw [List.append_assoc]
    generalize (argument.map Argument.text).getD [] ++ (ending : Text) = behind at *
    have hword : Text.skipBlanks (inset ++ scope.keyword ++ behind) = scope.keyword ++ behind := by
      refine Text.skipBlanks_eq_iff.2 ⟨inset, inset.2, List.append_assoc .., ?_⟩
      cases scope <;> exact Text.stopsAt_cons (by decide) _
    simp only [List.cons_append, keyword?, hword, Option.bind_eq_bind, Option.bind_eq_some_iff]
    cases scope with
    | all =>
      exact ⟨'S' :: behind, List.isPrefixOf?_eq_some_iff_append_eq.2 (by simp [hall]),
        by simp [hexplicit]⟩
    | single =>
      refine ⟨behind, List.isPrefixOf?_eq_some_iff_append_eq.2 rfl, ?_⟩
      split
      next rest => exact absurd (hfirst 'S' rfl) (by decide)
      next => simp [hexplicit]

namespace Form

variable {f g : Form}

/-- The characters of a comment behind its `#` hold no other one. -/
theorem not_mem_comment (f : Form) : ∃ rest, f.comment = '#' :: rest ∧ '#' ∉ rest := by
  refine ⟨_, rfl, ?_⟩
  have hblanks (blanks : Blanks) : '#' ∉ (blanks : Text) := fun h =>
    absurd (List.all_eq_true.1 blanks.2 _ h) (by decide)
  have hkeyword : '#' ∉ f.scope.keyword := by cases f.scope <;> decide
  have hargument : '#' ∉ (f.argument.map Argument.text).getD [] := by
    cases f.argument with
    | none => simp
    | some a =>
      have hgap : '#' ∉ (a.gap : Text) := fun h =>
        absurd (List.all_eq_true.1 a.gap.2.2 _ h) (by decide)
      have hname : '#' ∉ (a.name : Text) := fun h =>
        absurd (Identifier.of_mem_of_isBareword a.name.2 h) (by decide)
      simp [Argument.text, hgap, hname]
  simp [hblanks, hkeyword, hargument]

/-- A line of this form holds its tag. -/
theorem ofLine?_text (f : Form) : ofLine? f.text = some f.tag := by
  obtain ⟨rest, hcomment, hno⟩ := f.not_mem_comment
  have hcut : Text.cutAtLast? '#' f.text = some (f.lead, f.comment) :=
    Text.cutAtLast?_eq_some_iff.2 ⟨rest, hcomment, hno, rfl⟩
  have hlead : declaration? f.lead = some (f.sigil, ↑f.name) :=
    declaration?_eq_some_iff.2 ⟨f.name.2, f.indent, f.gap, f.initial, f.space, rfl⟩
  have hword : keyword? f.comment = some (f.scope, f.argument.map fun a => ↑a.name) :=
    keyword?_eq_some_iff.2 ⟨f.inset, f.argument, f.ending, rfl, rfl⟩
  simp only [ofLine?, hcut, hlead, hword, Option.bind_eq_bind, Option.bind_some]
  rfl

/-- A line that holds a tag is of this form. -/
theorem exists_of_ofLine? {line : Text} {t : Tag} (h : ofLine? line = some t) :
    ∃ f : Form, f.text = line ∧ f.tag = t := by
  obtain ⟨hcut, hdeclaration, hkeyword⟩ := ofLine?_eq_some h
  obtain ⟨hname, indent, gap, initial, space, hlead⟩ := declaration?_eq_some_iff.1 hdeclaration
  obtain ⟨inset, argument, ending, hcomment, hexplicit⟩ := keyword?_eq_some_iff.1 hkeyword
  let f : Form :=
    ⟨indent, gap, t.sigil, ⟨t.name, hname⟩, initial, space, inset, t.scope, argument, ending⟩
  have hf : f.lead = t.lead := hlead.symm
  have hg : f.comment = t.comment := hcomment.symm
  refine ⟨f, ?_, ?_⟩
  · rw [text, hf, hg, Text.append_of_cutAtLast? hcut]
  · change (⟨t.scope, t.sigil, t.name, argument.map fun a => ↑a.name, f.lead, f.comment⟩ : Tag) = t
    rw [hexplicit, hf, hg]

/-- An initializer is told by its characters, and so is that there is none. -/
theorem initial_injective {i j : Option Initializer}
    (h : (i.map Initializer.text).getD [] = (j.map Initializer.text).getD []) : i = j := by
  cases i with
  | none =>
    cases j with
    | none => rfl
    | some j => simp [Initializer.text] at h
  | some i =>
    cases j with
    | none => simp [Initializer.text] at h
    | some j =>
      obtain ⟨hspace, hvalue⟩ := Text.append_inj_of_stopsAt i.space.2 j.space.2
        (Text.stopsAt_cons rfl _) (Text.stopsAt_cons rfl _) h
      exact congrArg some (Initializer.ext (Subtype.ext hspace) (List.cons.inj hvalue).2)

/-- The code of tag lines with the same variable is cut in one way only. -/
theorem lead_injective (hsigil : f.sigil = g.sigil) (hname : f.name = g.name)
    (h : f.lead = g.lead) :
    f.indent = g.indent ∧ f.gap = g.gap ∧ f.initial = g.initial ∧ f.space = g.space := by
  have hchar (f : Form) : Text.isBlank f.sigil.char = false := by cases f.sigil <;> decide
  have hword (rest : Text) : Text.StopsAt Text.isBlank ("my" ++ rest) :=
    Text.stopsAt_cons rfl _
  simp only [lead, List.append_assoc, List.cons_append] at h
  obtain ⟨hindent, hmy⟩ := Text.append_inj_of_stopsAt f.indent.2 g.indent.2 (hword _) (hword _) h
  obtain ⟨hgap, hvariable⟩ := Text.append_inj_of_stopsAt f.gap.2.2 g.gap.2.2
    (Text.stopsAt_cons (hchar f) _) (Text.stopsAt_cons (hchar g) _)
    (List.append_cancel_left hmy)
  rw [hsigil, hname] at hvariable
  have hrest := List.append_cancel_left (List.cons.inj hvariable).2
  obtain ⟨hbefore, hspace⟩ := semicolon_injective hrest
  exact ⟨Subtype.ext hindent, Subtype.ext hgap, initial_injective hbefore, hspace⟩

/-- The comment of tag lines that ask for the same is cut in one way only. -/
theorem comment_injective (hscope : f.scope = g.scope)
    (hname : f.argument.map Argument.name = g.argument.map Argument.name)
    (h : f.comment = g.comment) :
    f.inset = g.inset ∧ f.argument = g.argument ∧ f.ending = g.ending := by
  have hkeyword (f : Form) (rest : Text) :
      Text.StopsAt Text.isBlank (f.scope.keyword ++ rest) := by
    cases f.scope <;> exact Text.stopsAt_cons rfl _
  simp only [comment, List.append_assoc, List.cons_append, List.cons.injEq, true_and] at h
  obtain ⟨hinset, hbehind⟩ := Text.append_inj_of_stopsAt f.inset.2 g.inset.2 (hkeyword f _)
    (hkeyword g _) h
  rw [hscope] at hbehind
  have hrest := List.append_cancel_left hbehind
  refine ⟨Subtype.ext hinset, ?_⟩
  cases hf : f.argument with
  | none =>
    cases hg : g.argument with
    | none => exact ⟨rfl, Subtype.ext (by simpa [hf, hg] using hrest)⟩
    | some b => simp [hf, hg] at hname
  | some a =>
    cases hg : g.argument with
    | none => simp [hf, hg] at hname
    | some b =>
      have hsame : a.name = b.name := by simpa [hf, hg] using hname
      simp only [hf, hg, Option.map_some, Option.getD_some, Argument.text,
        List.append_assoc] at hrest
      obtain ⟨hgap, hend⟩ := Text.append_inj_of_stopsAt a.gap.2.2 b.gap.2.2
        (stopsAt_name a.name _) (stopsAt_name b.name _) hrest
      rw [hsame] at hend
      exact ⟨congrArg some (Argument.ext (Subtype.ext hgap) hsame),
        Subtype.ext (List.append_cancel_left hend)⟩

/-- The parts of a tag line are told by the line. -/
theorem text_injective (h : f.text = g.text) : f = g := by
  have htag : f.tag = g.tag := Option.some.inj (by rw [← ofLine?_text, h, ofLine?_text])
  simp only [tag, Tag.mk.injEq] at htag
  obtain ⟨hscope, hsigil, hname, hexplicit, hlead, hcomment⟩ := htag
  have hnames : f.argument.map Argument.name = g.argument.map Argument.name := by
    have hinj : Function.Injective (fun name : Name => (name : Text)) := Subtype.val_injective
    refine Option.map_injective hinj ?_
    simpa [Function.comp_def] using hexplicit
  obtain ⟨hindent, hgap, hinitial, hspace⟩ := lead_injective hsigil (Subtype.ext hname) hlead
  obtain ⟨hinset, hargument, hending⟩ := comment_injective hscope hnames hcomment
  exact Form.ext hindent hgap hsigil (Subtype.ext hname) hinitial hspace hinset hscope hargument
    hending

end Form

/-- A line holds a tag exactly if it has the form of a tag line, and that form is told by the line:
the tag is made of its parts. They lose nothing of the line, the comment starts at the last `#` of
the line, and the code in front of it ends with a semicolon and blanks. -/
theorem ofLine?_forms (line : Text) :
    (∀ t, ofLine? line = some t ↔ ∃ f : Form, f.text = line ∧ f.tag = t) ∧
      (∀ f g : Form, f.text = line → g.text = line → f = g) ∧
      ∀ t, ofLine? line = some t → t.lead ++ t.comment = line ∧
        (∃ rest, t.comment = '#' :: rest ∧ '#' ∉ rest) ∧
        ∃ (before : Text) (blanks : Blanks), t.lead = before ++ ';' :: blanks := by
  refine ⟨fun t => ⟨Form.exists_of_ofLine?, ?_⟩, ?_, ?_⟩
  · rintro ⟨f, rfl, rfl⟩
    exact f.ofLine?_text
  · intro f g hf hg
    exact Form.text_injective (hf.trans hg.symm)
  · intro t h
    obtain ⟨f, rfl, rfl⟩ := Form.exists_of_ofLine? h
    exact ⟨rfl, f.not_mem_comment, _, f.space, rfl⟩

/-- What looks like a tag in front of the last `#` belongs to the initial value. -/
example : (ofLine? "my $x = '; # VALIDATE_ARG a'; # VALIDATE_ARGS").map comment =
    some ("# VALIDATE_ARGS" : Text) := by decide

end Tag

end ArgGuard
