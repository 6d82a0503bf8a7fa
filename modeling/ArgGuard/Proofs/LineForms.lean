import ArgGuard.Proofs.TagGrammar

/-!
# The forms of lines

Every kind of line that counts has a form: a mark at the start of the line, a declaration of a
package or a sub, or a declaration with a tag. A line is of a kind exactly if it has the form of
that kind. No line has two forms, except that the mark that closes documentation looks like one that
opens it. So the order in which the forms are tried does not matter beyond these two, and the name
in a declaration is told by the line.
-/

namespace ArgGuard

namespace LineKind

open Tag (Blanks Gap Name)

/-- A part of a package name behind a double colon. -/
abbrev Part := { s : Text // s ≠ [] ∧ s.all Unicode.isWord }

/-- The characters of further parts of a package name. -/
def partsText (parts : List Part) : Text := parts.flatMap fun part => ':' :: ':' :: part

/-- The name of a package: an identifier, and any number of further parts. -/
structure PackageName where
  /-- The first part. -/
  head : Name
  /-- The parts behind it. -/
  parts : List Part

/-- The characters of a package name. -/
def PackageName.text (n : PackageName) : Text := n.head ++ partsText n.parts

/-- The characters with which a version goes on. -/
def isVersionChar (c : Char) : Bool := Text.isDigit c || c = '.' || c = '_'

/-- A version number. -/
structure Version where
  /-- Whether it starts with a `v`. -/
  marked : Bool
  /-- Its first digit. -/
  first : Char
  /-- What is behind that. -/
  more : Text
  /-- It starts with a digit. -/
  isDigit_first : Text.isDigit first
  /-- It goes on with digits, dots and underscores. -/
  all_more : more.all isVersionChar

/-- The characters of a version. -/
def Version.text (v : Version) : Text := (if v.marked then ['v'] else []) ++ v.first :: v.more

/-- What may stand between a package name and the blanks behind it: a version behind blanks. -/
def versionText (version : Option (Gap × Version)) : Text :=
  (version.map fun (gap, v) => gap ++ v.text).getD []

/-- The forms of lines, each with the kind that it means. -/
inductive Form : LineKind → Text → Prop
  /-- The word `=cut`. -/
  | docClose {rest : Text} (h : Text.StopsAt Unicode.isWord rest) : Form docClose ("=cut" ++ rest)
  /-- An equals sign and a letter. -/
  | docOpen {c : Char} (h : c.isAlpha) (rest : Text) : Form docOpen ('=' :: c :: rest)
  /-- The mark of the end. -/
  | endMark (blanks : Blanks) : Form endOfCode ("__END__" ++ blanks)
  /-- The mark of data. -/
  | dataMark (blanks : Blanks) : Form endOfCode ("__DATA__" ++ blanks)
  /-- A package with its name, perhaps with a version, and a semicolon or a brace. -/
  | package (indent : Blanks) (gap : Gap) (name : PackageName) (version : Option (Gap × Version))
      (space : Blanks) {c : Char} (h : c = ';' ∨ c = '\x7b') (rest : Text) :
      Form (package name.text)
        (indent ++ "package" ++ gap ++ name.text ++ versionText version ++ space ++ c :: rest)
  /-- A sub with its name. -/
  | function (indent : Blanks) (gap : Gap) (name : Name) {rest : Text}
      (h : Text.StopsAt Unicode.isWord rest) :
      Form (function name) (indent ++ "sub" ++ gap ++ name ++ rest)
  /-- A declaration with a tag. -/
  | tag {line : Text} {t : Tag} (h : Tag.ofLine? line = some t) : Form (tag t) line

variable {line rest s name : Text} {kind : LineKind}

/-- Documentation is closed by lines of that form. -/
theorem closesDoc_iff : closesDoc line ↔ docClose.Form line := by
  constructor
  · intro h
    unfold closesDoc at h
    split at h
    next c rest hrest =>
      rw [← List.append_eq_of_isPrefixOf?_eq_some hrest]
      exact .docClose (Text.stopsAt_cons (by simpa using h) rest)
    next hrest =>
      rw [← List.append_eq_of_isPrefixOf?_eq_some hrest]
      exact .docClose Text.stopsAt_nil
    next => simp at h
  · intro h
    cases h with
    | @docClose rest h =>
      rw [closesDoc, List.isPrefixOf?_eq_some_iff_append_eq.2 rfl]
      cases rest with
      | nil => rfl
      | cons c rest => simpa using h c rfl

/-- Documentation is opened by lines of that form. -/
theorem opensDoc_iff : opensDoc line ↔ docOpen.Form line := by
  constructor
  · intro h
    unfold opensDoc at h
    split at h
    next c rest => exact .docOpen h rest
    next => simp at h
  · intro h
    cases h with
    | docOpen h => exact h

/-- The code is ended by lines of that form. -/
theorem endsCode_iff : endsCode line ↔ endOfCode.Form line := by
  have hmark (mark : Text) :
      ((List.isPrefixOf? mark line).map (·.all Text.isBlank)).getD false ↔
        ∃ blanks : Blanks, line = mark ++ blanks := by
    constructor
    · intro h
      cases hrest : List.isPrefixOf? mark line with
      | none => simp [hrest] at h
      | some rest =>
        have hline := List.append_eq_of_isPrefixOf?_eq_some hrest
        exact ⟨⟨rest, by simpa [hrest] using h⟩, hline.symm⟩
    · rintro ⟨blanks, rfl⟩
      rw [List.isPrefixOf?_eq_some_iff_append_eq.2 rfl]
      exact blanks.2
  simp only [endsCode, List.any_cons, List.any_nil, Bool.or_false, Bool.or_eq_true, hmark]
  constructor
  · rintro (⟨blanks, rfl⟩ | ⟨blanks, rfl⟩)
    · exact .endMark blanks
    · exact .dataMark blanks
  · intro h
    cases h with
    | endMark blanks => exact .inl ⟨blanks, rfl⟩
    | dataMark blanks => exact .inr ⟨blanks, rfl⟩

/-- A sub is declared by lines of that form. -/
theorem declaredFunction?_eq_some_iff :
    declaredFunction? line = some name ↔ (function name).Form line := by
  simp only [declaredFunction?, Option.bind_eq_bind, Option.bind_eq_some_iff, Option.pure_def,
    Option.some.injEq]
  constructor
  · rintro ⟨behind, hsub, start, hstart, ⟨word, rest⟩, hread, rfl⟩
    obtain ⟨hword, rfl, hrest⟩ := Identifier.read?_eq_some_iff.1 hread
    obtain ⟨gap, hne, hgap, rfl, -⟩ := Text.skipBlanks?_eq_some_iff.1 hstart
    obtain ⟨indent, hindent, rfl, -⟩ := Text.skipBlanks_eq_iff.1
      (List.append_eq_of_isPrefixOf?_eq_some hsub).symm
    have hform := Form.function ⟨indent, hindent⟩ ⟨gap, hne, hgap⟩ ⟨word, hword⟩ hrest
    simpa using hform
  · intro h
    cases h with
    | @function indent gap name rest hrest =>
      have hsub : Text.skipBlanks (indent ++ "sub" ++ gap ++ name ++ rest) =
          "sub" ++ (gap ++ (name ++ rest)) :=
        Text.skipBlanks_eq_iff.2 ⟨indent, indent.2, by simp, Text.stopsAt_cons (by decide) _⟩
      have hgap : Text.skipBlanks? (gap ++ (name ++ rest)) = some (name ++ rest) :=
        Text.skipBlanks?_eq_some_iff.2 ⟨gap, gap.2.1, gap.2.2, rfl, Tag.stopsAt_name name rest⟩
      exact ⟨_, List.isPrefixOf?_eq_some_iff_append_eq.2 hsub.symm, _, hgap, (name, rest),
        Identifier.read?_eq_some_iff.2 ⟨name.2, rfl, hrest⟩, rfl⟩

/-- A text with which no package name goes on: no word character, and no double colon with one
behind it. -/
def EndsName (s : Text) : Prop :=
  Text.StopsAt Unicode.isWord s ∧
    ∀ rest, s = ':' :: ':' :: rest → Text.StopsAt Unicode.isWord rest

/-- The parts that are read are parts, and nothing is lost. -/
theorem exists_of_moreParts_go {n : Nat} {parts after : Text}
    (h : moreParts.go n s = (parts, after)) :
    ∃ ps : List Part, parts = partsText ps ∧ s = partsText ps ++ after := by
  fun_induction moreParts.go n s generalizing parts after with
  | case1 n rest word behind hspan hempty =>
    obtain ⟨rfl, rfl⟩ := Prod.mk.inj h
    exact ⟨[], rfl, rfl⟩
  | case2 n rest word behind hspan hempty more final hmore ih =>
    obtain ⟨rfl, rfl⟩ := Prod.mk.inj h
    obtain ⟨ps, rfl, rfl⟩ := ih hmore
    obtain ⟨rfl, hbehind⟩ := Prod.mk.inj hspan
    refine
      ⟨⟨rest.takeWhile Unicode.isWord, by simpa using hempty, List.all_takeWhile⟩ :: ps, rfl, ?_⟩
    have hrest := List.takeWhile_append_dropWhile (p := Unicode.isWord) (l := rest)
    rw [hbehind] at hrest
    simpa [partsText] using hrest.symm
  | case3 =>
    obtain ⟨rfl, rfl⟩ := Prod.mk.inj h
    exact ⟨[], rfl, rfl⟩

/-- No word goes on with the parts of a package name. -/
theorem stopsAt_partsText (ps : List Part) : Text.StopsAt Unicode.isWord (partsText ps) := by
  cases ps with
  | nil => exact Text.stopsAt_nil
  | cons p ps => exact Text.stopsAt_cons (by decide) _

/-- Parts in front of a text with which no name goes on are read. -/
theorem moreParts_go_append (ps : List Part) (hs : EndsName s) {n : Nat}
    (hn : (partsText ps).length ≤ n) : moreParts.go n (partsText ps ++ s) = (partsText ps, s) := by
  induction ps generalizing n with
  | nil =>
    unfold moreParts.go
    split
    next n rest hrest =>
      obtain rfl : s = ':' :: ':' :: rest := hrest
      have hword : rest.takeWhile Unicode.isWord = [] :=
        Text.takeWhile_append_eq (a := []) rfl (hs.2 rest rfl)
      simp [Identifier.spanWord, hword, partsText]
    next => rfl
  | cons p ps ih =>
    have hcons : partsText (p :: ps) = ':' :: ':' :: (p ++ partsText ps) := rfl
    obtain ⟨n, rfl⟩ : ∃ k, n = k + 1 := Nat.exists_eq_succ_of_ne_zero (by
      rintro rfl
      simp [hcons] at hn)
    have hstop := (stopsAt_partsText ps).append hs.1
    have htake : (p ++ (partsText ps ++ s)).takeWhile Unicode.isWord = p :=
      Text.takeWhile_append_eq p.2.2 hstop
    have hdrop : (p ++ (partsText ps ++ s)).dropWhile Unicode.isWord = partsText ps ++ s :=
      Text.dropWhile_eq_iff.2 ⟨p, p.2.2, rfl, hstop⟩
    have hlength : (partsText ps).length ≤ n := by
      simp only [hcons, List.length_cons, List.length_append] at hn
      omega
    have hne : (p : Text).isEmpty = false := by simpa using p.2.1
    rw [hcons, List.cons_append, List.cons_append, List.append_assoc, moreParts.go]
    simp only [Identifier.spanWord, htake, hdrop, hne, Bool.false_eq_true, if_false, ih hlength]
    rfl

/-- The name that is read is a package name, and nothing is lost. -/
theorem exists_of_packageName? (h : packageName? s = some (name, rest)) :
    ∃ n : PackageName, name = n.text ∧ s = n.text ++ rest := by
  simp only [packageName?, Option.bind_eq_bind, Option.bind_eq_some_iff, Option.pure_def,
    Option.some.injEq, Prod.mk.injEq] at h
  obtain ⟨⟨head, behind⟩, hread, rfl, rfl⟩ := h
  obtain ⟨hhead, rfl, -⟩ := Identifier.read?_eq_some_iff.1 hread
  obtain ⟨ps, hparts, hbehind⟩ := exists_of_moreParts_go (s := behind) (n := behind.length) rfl
  have hmore : (moreParts behind).1 = partsText ps := hparts
  refine ⟨⟨⟨head, hhead⟩, ps⟩, by rw [hmore, PackageName.text], ?_⟩
  rw [PackageName.text, List.append_assoc]
  exact congrArg (head ++ ·) hbehind

/-- A package name in front of a text with which no name goes on is read. -/
theorem packageName?_append (n : PackageName) (hs : EndsName s) :
    packageName? (n.text ++ s) = some (n.text, s) := by
  have hread : Identifier.read? (n.head ++ (partsText n.parts ++ s)) =
      some (↑n.head, partsText n.parts ++ s) :=
    Identifier.read?_eq_some_iff.2 ⟨n.head.2, rfl, (stopsAt_partsText n.parts).append hs.1⟩
  have hparts : moreParts (partsText n.parts ++ s) = (partsText n.parts, s) :=
    moreParts_go_append n.parts hs (by simp)
  rw [PackageName.text, List.append_assoc]
  simp only [packageName?, hread, hparts, Option.bind_eq_bind, Option.bind_some]
  rfl

/-- What is left after a version number without a `v`. -/
def dropNumber? : Text → Option Text
  | c :: rest => if Text.isDigit c then some (rest.dropWhile isVersionChar) else none
  | [] => none

/-- A `v` in front of a version number is dropped with it. -/
theorem dropVersion?_cons (s : Text) : dropVersion? ('v' :: s) = dropNumber? s := by
  cases s <;> rfl

/-- A version number may stand without a `v`. -/
theorem dropVersion?_of_ne (h : ∀ t, s ≠ 'v' :: t) : dropVersion? s = dropNumber? s := by
  cases s with
  | nil => rfl
  | cons c s =>
    have hc : c ≠ 'v' := by
      rintro rfl
      exact h s rfl
    simp only [dropVersion?]
    rfl

/-- A version number is a digit and what it goes on with. -/
theorem dropNumber?_eq_some_iff :
    dropNumber? s = some rest ↔
      ∃ c more, Text.isDigit c ∧ more.all isVersionChar ∧ s = c :: more ++ rest ∧
        Text.StopsAt isVersionChar rest := by
  cases s with
  | nil => simp [dropNumber?]
  | cons c s =>
    rw [dropNumber?]
    by_cases hc : Text.isDigit c
    · simp only [hc, if_true, Option.some.injEq, Text.dropWhile_eq_iff, List.cons_append,
        List.cons.injEq]
      constructor
      · rintro ⟨more, hmore, hs, hrest⟩
        exact ⟨c, more, hc, hmore, ⟨rfl, hs⟩, hrest⟩
      · rintro ⟨d, more, -, hmore, ⟨-, hs⟩, hrest⟩
        exact ⟨more, hmore, hs, hrest⟩
    · simp only [hc, Bool.false_eq_true, if_false, reduceCtorEq, List.cons_append,
        List.cons.injEq, false_iff]
      rintro ⟨d, more, hd, -, ⟨rfl, -⟩, -⟩
      exact hc hd

/-- A version in front of a text with which it does not go on is dropped, and nothing else is. -/
theorem dropVersion?_eq_some_iff :
    dropVersion? s = some rest ↔
      ∃ v : Version, s = v.text ++ rest ∧ Text.StopsAt isVersionChar rest := by
  by_cases hmarked : ∃ t, s = 'v' :: t
  · obtain ⟨t, rfl⟩ := hmarked
    rw [dropVersion?_cons, dropNumber?_eq_some_iff]
    constructor
    · rintro ⟨c, more, hc, hmore, rfl, hrest⟩
      exact ⟨⟨true, c, more, hc, hmore⟩, rfl, hrest⟩
    · rintro ⟨⟨marked, c, more, hc, hmore⟩, hs, hrest⟩
      cases marked with
      | true => exact ⟨c, more, hc, hmore, (List.cons.inj hs).2, hrest⟩
      | false =>
        obtain rfl : 'v' = c := (List.cons.inj hs).1
        simp [Text.isDigit] at hc
  · have hno (t : Text) : s ≠ 'v' :: t := fun hs => hmarked ⟨t, hs⟩
    rw [dropVersion?_of_ne hno, dropNumber?_eq_some_iff]
    constructor
    · rintro ⟨c, more, hc, hmore, rfl, hrest⟩
      exact ⟨⟨false, c, more, hc, hmore⟩, rfl, hrest⟩
    · rintro ⟨⟨marked, c, more, hc, hmore⟩, rfl, hrest⟩
      cases marked with
      | true => exact absurd rfl (hno _)
      | false => exact ⟨c, more, hc, hmore, rfl, hrest⟩

/-- The opening of what is declared is no blank. -/
theorem isBlank_of_opening {c : Char} (h : c = ';' ∨ c = '\x7b') : Text.isBlank c = false := by
  rcases h with rfl | rfl <;> decide

/-- What is declared starts with a semicolon or a brace behind blanks. -/
theorem startsBody_iff :
    startsBody s ↔ ∃ (space : Blanks) (c : Char) (rest : Text),
      s = space ++ c :: rest ∧ (c = ';' ∨ c = '\x7b') := by
  unfold startsBody
  constructor
  · intro h
    split at h
    next c rest hrest =>
      obtain ⟨space, hspace, rfl, -⟩ := Text.skipBlanks_eq_iff.1 hrest
      exact ⟨⟨space, hspace⟩, c, rest, rfl, by simpa using h⟩
    next => simp at h
  · rintro ⟨space, c, rest, rfl, hc⟩
    have hskip : Text.skipBlanks (space ++ c :: rest) = c :: rest :=
      Text.skipBlanks_eq_iff.2 ⟨space, space.2, rfl, Text.stopsAt_cons (isBlank_of_opening hc) rest⟩
    simpa [hskip] using hc

/-- A version starts with no blank. -/
theorem Version.stopsAt_text (v : Version) (rest : Text) :
    Text.StopsAt Text.isBlank (v.text ++ rest) := by
  obtain ⟨marked, c, more, hc, hmore⟩ := v
  cases marked with
  | true => exact Text.stopsAt_cons (by decide) _
  | false =>
    refine Text.stopsAt_cons ?_ _
    by_contra hblank
    simp only [Text.isBlank, Bool.not_eq_false, Bool.or_eq_true, decide_eq_true_eq] at hblank
    rcases hblank with rfl | rfl <;> simp [Text.isDigit] at hc

/-- The characters of a kind that go on neither with blanks nor with an opening. -/
abbrev StopsAtBody (p : Char → Bool) : Prop :=
  p ' ' = false ∧ p '\t' = false ∧ p ';' = false ∧ p '\x7b' = false

/-- No such character is a blank. -/
theorem StopsAtBody.of_isBlank {p : Char → Bool} (hp : StopsAtBody p) {c : Char}
    (hc : Text.isBlank c) : p c = false := by
  simp only [Text.isBlank, Bool.or_eq_true, decide_eq_true_eq] at hc
  rcases hc with rfl | rfl
  · exact hp.1
  · exact hp.2.1

/-- What is declared does not go on with such characters. -/
theorem StopsAtBody.stopsAt {p : Char → Bool} (hp : StopsAtBody p) (space : Blanks) {c : Char}
    (hc : c = ';' ∨ c = '\x7b') (rest : Text) : Text.StopsAt p (space ++ c :: rest) := by
  obtain ⟨space, hspace⟩ := space
  cases space with
  | nil =>
    refine Text.stopsAt_cons ?_ rest
    rcases hc with rfl | rfl
    · exact hp.2.2.1
    · exact hp.2.2.2
  | cons d space =>
    exact Text.stopsAt_cons (hp.of_isBlank (List.all_eq_true.1 hspace d List.mem_cons_self)) _

/-- Between the name of a package and what is declared there may be a version. -/
theorem endsPackageHead_iff :
    endsPackageHead s ↔ ∃ (version : Option (Gap × Version)) (space : Blanks) (c : Char)
      (rest : Text), s = versionText version ++ space ++ c :: rest ∧ (c = ';' ∨ c = '\x7b') := by
  rw [endsPackageHead, Bool.or_eq_true, startsBody_iff]
  constructor
  · rintro (⟨space, c, rest, rfl, hc⟩ | h)
    · exact ⟨none, space, c, rest, rfl, hc⟩
    · cases hdrop : (Text.skipBlanks? s).bind dropVersion? with
      | none => simp [hdrop] at h
      | some behind =>
        obtain ⟨start, hstart, hbehind⟩ := Option.bind_eq_some_iff.1 hdrop
        obtain ⟨gap, hne, hgap, rfl, -⟩ := Text.skipBlanks?_eq_some_iff.1 hstart
        obtain ⟨v, rfl, -⟩ := dropVersion?_eq_some_iff.1 hbehind
        rw [hdrop, Option.map_some, Option.getD_some, startsBody_iff] at h
        obtain ⟨space, c, rest, rfl, hc⟩ := h
        exact ⟨some (⟨gap, hne, hgap⟩, v), space, c, rest, by simp [versionText], hc⟩
  · rintro ⟨_ | ⟨gap, v⟩, space, c, rest, rfl, hc⟩
    · exact .inl ⟨space, c, rest, rfl, hc⟩
    · have hstop : Text.StopsAt isVersionChar (space ++ c :: rest) :=
        StopsAtBody.stopsAt ⟨rfl, rfl, rfl, rfl⟩ space hc rest
      have hgap : Text.skipBlanks? (gap ++ (v.text ++ (space ++ c :: rest))) =
          some (v.text ++ (space ++ c :: rest)) :=
        Text.skipBlanks?_eq_some_iff.2 ⟨gap, gap.2.1, gap.2.2, rfl, v.stopsAt_text _⟩
      have hdrop : dropVersion? (v.text ++ (space ++ c :: rest)) = some (space ++ c :: rest) :=
        dropVersion?_eq_some_iff.2 ⟨v, rfl, hstop⟩
      have hs : versionText (some (gap, v)) ++ space ++ c :: rest =
          gap ++ (v.text ++ (space ++ c :: rest)) := by simp [versionText]
      rw [hs, hgap, Option.bind_some, hdrop, Option.map_some, Option.getD_some, startsBody_iff]
      exact .inr ⟨space, c, rest, rfl, hc⟩

/-- No package name goes on with a version or with what is declared. -/
theorem endsName_head (version : Option (Gap × Version)) (space : Blanks) {c : Char}
    (hc : c = ';' ∨ c = '\x7b') (rest : Text) :
    EndsName (versionText version ++ space ++ c :: rest) := by
  have hstop (p : Char → Bool) (hp : StopsAtBody p) :
      Text.StopsAt p (versionText version ++ space ++ c :: rest) := by
    cases version with
    | none => exact hp.stopsAt space hc rest
    | some number =>
      obtain ⟨⟨gap, hne, hgap⟩, v⟩ := number
      obtain ⟨d, gap, rfl⟩ := List.exists_cons_of_ne_nil hne
      exact Text.stopsAt_cons (hp.of_isBlank (List.all_eq_true.1 hgap d List.mem_cons_self)) _
  refine ⟨hstop _ (by decide), fun behind hbehind => ?_⟩
  have hcolon := hstop (· = ':') (by decide) ':' (by rw [hbehind]; rfl)
  simp at hcolon

/-- A package is declared by lines of that form. -/
theorem declaredPackage?_eq_some_iff :
    declaredPackage? line = some name ↔ (package name).Form line := by
  simp only [declaredPackage?, Option.bind_eq_bind, Option.bind_eq_some_iff]
  constructor
  · rintro ⟨behind, hpackage, start, hstart, ⟨word, after⟩, hread, hend⟩
    obtain ⟨hhead, rfl⟩ : endsPackageHead after ∧ word = name := by
      split at hend <;> simp_all
    obtain ⟨version, space, c, rest, rfl, hc⟩ := endsPackageHead_iff.1 hhead
    obtain ⟨n, rfl, rfl⟩ := exists_of_packageName? hread
    obtain ⟨gap, hne, hgap, rfl, -⟩ := Text.skipBlanks?_eq_some_iff.1 hstart
    obtain ⟨indent, hindent, rfl, -⟩ := Text.skipBlanks_eq_iff.1
      (List.append_eq_of_isPrefixOf?_eq_some hpackage).symm
    have hform := Form.package ⟨indent, hindent⟩ ⟨gap, hne, hgap⟩ n version space hc rest
    simpa using hform
  · intro h
    cases h with
    | @package indent gap n version space c hc rest =>
      have hends := endsName_head version space hc rest
      have hbody := endsPackageHead_iff.2 ⟨version, space, c, rest, rfl, hc⟩
      generalize hbehind : versionText version ++ space ++ c :: rest = behind at hends hbody
      have hpackage : Text.skipBlanks (indent ++ "package" ++ gap ++ n.text ++
          versionText version ++ space ++ c :: rest) = "package" ++ (gap ++ (n.text ++ behind)) :=
        Text.skipBlanks_eq_iff.2
          ⟨indent, indent.2, by simp [← hbehind], Text.stopsAt_cons (by decide) _⟩
      have hgap : Text.skipBlanks? (gap ++ (n.text ++ behind)) = some (n.text ++ behind) := by
        refine Text.skipBlanks?_eq_some_iff.2 ⟨gap, gap.2.1, gap.2.2, rfl, ?_⟩
        rw [PackageName.text, List.append_assoc]
        exact Tag.stopsAt_name n.head _
      refine ⟨_, List.isPrefixOf?_eq_some_iff_append_eq.2 hpackage.symm, _, hgap, (n.text, behind),
        packageName?_append n hends, ?_⟩
      rw [if_pos hbody]

/-- The first character behind the blanks of a line that counts. -/
def mark? : LineKind → Option Char
  | docOpen | docClose => some '='
  | endOfCode => some '_'
  | package _ => some 'p'
  | function _ => some 's'
  | tag _ => some 'm'
  | other => none

/-- A line has the mark of its form. -/
theorem head?_skipBlanks_of_form (h : kind.Form line) :
    (Text.skipBlanks line).head? = kind.mark? := by
  have hindent (indent : Blanks) {c : Char} {word : Text} (hc : Text.isBlank c = false) :
      (Text.skipBlanks (indent ++ c :: word)).head? = some c := by
    rw [Text.skipBlanks_eq_iff.2 ⟨indent, indent.2, rfl, Text.stopsAt_cons hc word⟩]
    rfl
  cases h with
  | docClose | docOpen | endMark | dataMark => rfl
  | package indent =>
    simp only [List.append_assoc]
    exact hindent indent rfl
  | function indent =>
    simp only [List.append_assoc]
    exact hindent indent rfl
  | tag h =>
    obtain ⟨f, rfl, rfl⟩ := Tag.Form.exists_of_ofLine? h
    simp only [Tag.Form.text, Tag.Form.lead, List.append_assoc]
    exact hindent f.indent rfl

/-- The mark that closes documentation looks like one that opens it. -/
theorem form_docOpen_of_docClose (h : docClose.Form line) : docOpen.Form line := by
  cases h with
  | docClose => exact .docOpen (by decide) _

/-- A line has one form, apart from the marks around documentation. -/
theorem form_unique {kind' : LineKind} (h : kind.Form line) (h' : kind'.Form line) :
    kind = kind' ∨ kind = docOpen ∧ kind' = docClose ∨ kind = docClose ∧ kind' = docOpen := by
  have hmark : kind.mark? = kind'.mark? :=
    (head?_skipBlanks_of_form h).symm.trans (head?_skipBlanks_of_form h')
  cases kind with
  | docOpen =>
    cases kind' with
    | docOpen => exact .inl rfl
    | docClose => exact .inr (.inl ⟨rfl, rfl⟩)
    | _ => simp [mark?] at hmark
  | docClose =>
    cases kind' with
    | docOpen => exact .inr (.inr ⟨rfl, rfl⟩)
    | docClose => exact .inl rfl
    | _ => simp [mark?] at hmark
  | endOfCode =>
    cases kind' with
    | endOfCode => exact .inl rfl
    | _ => simp [mark?] at hmark
  | package name =>
    cases kind' with
    | package name' =>
      have hname :=
        (declaredPackage?_eq_some_iff.2 h).symm.trans (declaredPackage?_eq_some_iff.2 h')
      exact .inl (congrArg package (Option.some.inj hname))
    | _ => simp [mark?] at hmark
  | function name =>
    cases kind' with
    | function name' =>
      have hname :=
        (declaredFunction?_eq_some_iff.2 h).symm.trans (declaredFunction?_eq_some_iff.2 h')
      exact .inl (congrArg function (Option.some.inj hname))
    | _ => simp [mark?] at hmark
  | tag t =>
    cases kind' with
    | tag t' =>
      cases h with
      | tag ht =>
        cases h' with
        | tag ht' => exact .inl (congrArg tag (Option.some.inj (ht.symm.trans ht')))
    | _ => simp [mark?] at hmark
  | other => cases h

/-- The tests that tell the kind of a line. -/
inductive Test where
  /-- For the mark that closes documentation. -/
  | docClose
  /-- For a mark that opens documentation. -/
  | docOpen
  /-- For the marks that end the code. -/
  | endOfCode
  /-- For a package declaration. -/
  | package
  /-- For a sub declaration. -/
  | function
  /-- For a declaration with a tag. -/
  | tag
  deriving DecidableEq, Repr

/-- The kind that a test finds in a line. -/
def Test.kind? (line : Text) : Test → Option LineKind
  | docClose => if closesDoc line then some .docClose else none
  | docOpen => if opensDoc line then some .docOpen else none
  | endOfCode => if endsCode line then some .endOfCode else none
  | package => (declaredPackage? line).map .package
  | function => (declaredFunction? line).map .function
  | tag => (Tag.ofLine? line).map .tag

/-- The kind of a line by tests in some order, of which the first that finds one decides. -/
def byTests (order : List Test) (line : Text) : LineKind :=
  (order.findSome? (Test.kind? line)).getD other

/-- An order in which every test comes, and documentation is tried for its end first. -/
structure IsTestOrder (order : List Test) : Prop where
  /-- No test is left out. -/
  complete : ∀ test, test ∈ order
  /-- The mark that closes documentation is told apart first. -/
  docClose_first : order.idxOf .docClose < order.idxOf .docOpen

/-- A test finds only kinds of which the line has the form. -/
theorem form_of_kind? {test : Test} (h : test.kind? line = some kind) : kind.Form line := by
  cases test with
  | docClose =>
    obtain ⟨hline, rfl⟩ : closesDoc line ∧ .docClose = kind := by simpa [Test.kind?] using h
    exact closesDoc_iff.1 hline
  | docOpen =>
    obtain ⟨hline, rfl⟩ : opensDoc line ∧ .docOpen = kind := by simpa [Test.kind?] using h
    exact opensDoc_iff.1 hline
  | endOfCode =>
    obtain ⟨hline, rfl⟩ : endsCode line ∧ .endOfCode = kind := by simpa [Test.kind?] using h
    exact endsCode_iff.1 hline
  | package =>
    obtain ⟨name, hline, rfl⟩ := Option.map_eq_some_iff.1 h
    exact declaredPackage?_eq_some_iff.1 hline
  | function =>
    obtain ⟨name, hline, rfl⟩ := Option.map_eq_some_iff.1 h
    exact declaredFunction?_eq_some_iff.1 hline
  | tag =>
    obtain ⟨t, hline, rfl⟩ := Option.map_eq_some_iff.1 h
    exact .tag hline

/-- For every form there is a test that finds it. -/
theorem exists_kind?_of_form (h : kind.Form line) : ∃ test : Test, test.kind? line = some kind := by
  cases kind with
  | docOpen => exact ⟨.docOpen, if_pos (opensDoc_iff.2 h)⟩
  | docClose => exact ⟨.docClose, if_pos (closesDoc_iff.2 h)⟩
  | endOfCode => exact ⟨.endOfCode, if_pos (endsCode_iff.2 h)⟩
  | package name =>
    exact ⟨.package, Option.map_eq_some_iff.2 ⟨name, declaredPackage?_eq_some_iff.2 h, rfl⟩⟩
  | function name =>
    exact ⟨.function, Option.map_eq_some_iff.2 ⟨name, declaredFunction?_eq_some_iff.2 h, rfl⟩⟩
  | tag t =>
    cases h with
    | tag ht => exact ⟨.tag, Option.map_eq_some_iff.2 ⟨t, ht, rfl⟩⟩
  | other => cases h

/-- What a line means by its form: the kind of its form, where the mark that closes documentation
is told from one that opens it, and nothing without a form. -/
inductive IsKind (line : Text) : LineKind → Prop
  /-- The line has a form. -/
  | form {kind : LineKind} (h : kind.Form line) (hdoc : kind = docOpen → ¬ docClose.Form line) :
      IsKind line kind
  /-- The line has no form. -/
  | other (h : ∀ kind : LineKind, ¬ kind.Form line) : IsKind line other

/-- A line means one kind. -/
theorem isKind_unique {kind' : LineKind} (h : IsKind line kind) (h' : IsKind line kind') :
    kind = kind' := by
  cases h with
  | form h hdoc =>
    cases h' with
    | form h' hdoc' =>
      obtain rfl | ⟨rfl, rfl⟩ | ⟨rfl, rfl⟩ := form_unique h h'
      · rfl
      · exact absurd h' (hdoc rfl)
      · exact absurd h (hdoc' rfl)
    | other hno => exact absurd h (hno kind)
  | other hno =>
    cases h' with
    | form h' => exact absurd h' (hno kind')
    | other => rfl

/-- Tests in any such order find what the line means. -/
theorem isKind_byTests {order : List Test} (ho : IsTestOrder order) (line : Text) :
    IsKind line (byTests order line) := by
  cases hfound : order.findSome? (Test.kind? line) with
  | none =>
    rw [byTests, hfound]
    refine .other fun kind hform => ?_
    obtain ⟨test, htest⟩ := exists_kind?_of_form hform
    rw [List.findSome?_eq_none_iff.1 hfound test (ho.complete test)] at htest
    simp at htest
  | some kind =>
    rw [byTests, hfound]
    obtain ⟨before, test, after, rfl, htest, hbefore⟩ := List.findSome?_eq_some_iff.1 hfound
    refine .form (form_of_kind? htest) ?_
    rintro rfl hclose
    -- Only the test for an opening mark finds one, and the other test came before it.
    have hopen : test = .docOpen := by cases test <;> simp_all [Test.kind?]
    subst hopen
    have hmem : Test.docClose ∈ before := by
      by_contra hno
      have hopen : Test.docOpen ∉ before := fun hmem => by simp [hbefore _ hmem] at htest
      have hfirst := ho.docClose_first
      rw [List.idxOf_append_of_notMem hno, List.idxOf_append_of_notMem hopen,
        List.idxOf_cons_self] at hfirst
      omega
    have hnone := hbefore _ hmem
    rw [Test.kind?, if_pos (closesDoc_iff.2 hclose)] at hnone
    simp at hnone

/-- An order of the tests. -/
def Test.all : List Test := [docClose, docOpen, endOfCode, package, function, tag]

/-- It leaves no test out and tries documentation for its end first. -/
theorem isTestOrder_all : IsTestOrder Test.all where
  complete test := by cases test <;> decide
  docClose_first := by decide

/-- The kind of a line is found by tests in that order. -/
theorem ofLine_eq_byTests (line : Text) : ofLine line = byTests Test.all line := by
  simp only [ofLine, byTests, Test.all, List.findSome?_cons, List.findSome?_nil, Test.kind?]
  cases closesDoc line
  · cases opensDoc line
    · cases endsCode line
      · cases declaredPackage? line
        · cases declaredFunction? line
          · cases Tag.ofLine? line <;> rfl
          · rfl
        · rfl
      · rfl
    · rfl
  · rfl

/-- A line is of a kind exactly if it has the form of that kind; one that closes documentation does
not open it, and a line without a form is of no kind that counts. No line has two forms, except that
what closes documentation looks like what opens it, so a declaration has one name. Tests in any
order in which the mark that closes documentation is tried before one that opens it find the same
kind. -/
theorem ofLine_eq_iff_isKind (line : Text) :
    (∀ kind, ofLine line = kind ↔ IsKind line kind) ∧
      (∀ kind kind' : LineKind, kind.Form line → kind'.Form line →
        kind = kind' ∨ kind = docOpen ∧ kind' = docClose ∨ kind = docClose ∧ kind' = docOpen) ∧
      (docClose.Form line → docOpen.Form line) ∧
      ∀ order, IsTestOrder order → byTests order line = ofLine line := by
  have hmeans : IsKind line (ofLine line) :=
    ofLine_eq_byTests line ▸ isKind_byTests isTestOrder_all line
  refine ⟨fun kind => ⟨?_, ?_⟩, fun _ _ => form_unique, form_docOpen_of_docClose, ?_⟩
  · rintro rfl
    exact hmeans
  · exact isKind_unique hmeans
  · exact fun order ho => isKind_unique (isKind_byTests ho line) hmeans

/-- A package declaration with a version, and the text of a sub declaration and a tag behind it. -/
def packageLine : Text := "  package Foo::Bar v1.2 \x7b sub new; # VALIDATE_ARG"

/-- An order of the tests in which documentation comes last. -/
def lateOrder : List Test := [.tag, .function, .package, .endOfCode, .docClose, .docOpen]

/-- The sample declares its package, in whatever order the tests come. -/
theorem ofLine_eq_iff_isKind_packageLine :
    (package "Foo::Bar").Form packageLine ∧ IsTestOrder lateOrder ∧
      ofLine packageLine = package "Foo::Bar" ∧
      byTests lateOrder packageLine = package "Foo::Bar" := by
  have hform : (package "Foo::Bar").Form packageLine :=
    declaredPackage?_eq_some_iff.1 (by decide +kernel)
  have horder : IsTestOrder lateOrder :=
    ⟨fun test => by cases test <;> decide, by decide⟩
  obtain ⟨hkind, -, -, htests⟩ := ofLine_eq_iff_isKind packageLine
  have hline := (hkind (package "Foo::Bar")).2 (.form hform (by simp))
  exact ⟨hform, horder, hline, (htests lateOrder horder).trans hline⟩

end LineKind

end ArgGuard
