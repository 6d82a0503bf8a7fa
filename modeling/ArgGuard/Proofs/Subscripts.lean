import ArgGuard.Proofs.ArgumentBlocks
import ArgGuard.Proofs.TagGrammar

/-!
# Subscripts

A guard on all arguments looks each of them up by a subscript, which is its name as a bare word or
as a string in double quotes. A string is read up to its closing quote, with every escape as the
character that it stands for. So the string of a text is read as this text wherever it stands, a
subscript is read as the name of its argument, and no two arguments are the same element.
-/

namespace ArgGuard

namespace Text

/-- The ASCII characters that are seen and are no letters or digits. -/
def isPunctuation (c : Char) : Bool := '!' ≤ c && c ≤ '~' && !c.isAlphanum

/-- The character that an escape stands for, told by what is behind its backslash: a line break, a
tab, or a punctuation character itself. -/
def unescaped? (c : Char) : Option Char :=
  if c = 'n' then some '\n'
  else if c = 'r' then some '\r'
  else if c = 't' then some '\t'
  else if isPunctuation c then some c
  else none

/-- The characters that a string has only as escapes, beside its closing quote and the backslash:
the two sigils that start an interpolation, the line breaks and the tab. -/
def isEscapedOnly (c : Char) : Bool :=
  c = '$' || c = '@' || c = '\n' || c = '\r' || c = '\t'

/-- Read the rest of a string in double quotes: its value, and what stands behind its closing quote.
A string in which something is left that must be escaped is not read. -/
def readString? : Text → Option (Text × Text)
  | [] => none
  | '"' :: behind => some ([], behind)
  | ['\\'] => none
  | '\\' :: c :: rest => do
    let first ← unescaped? c
    let (value, behind) ← readString? rest
    return (first :: value, behind)
  | c :: rest =>
    if isEscapedOnly c then none
    else (readString? rest).map fun (value, behind) => (c :: value, behind)

/-- Read a string in double quotes, with what stands behind it. -/
def readQuoted? : Text → Option (Text × Text)
  | '"' :: rest => readString? rest
  | _ => none

/-- A character that needs no backslash is read as itself. -/
theorem readString?_cons {c : Char} (hquote : c ≠ '"') (hslash : c ≠ '\\')
    (hplain : isEscapedOnly c = false) (s : Text) :
    readString? (c :: s) = (readString? s).map fun (value, behind) => (c :: value, behind) := by
  rw [readString?]
  · exact if_neg (Bool.eq_false_iff.1 hplain)
  · exact hquote
  · exact fun h _ => hslash h
  · exact fun _ _ h _ => hslash h

/-- An escape is read as the character that it stands for. -/
theorem readString?_escape {c d : Char} (h : unescaped? c = some d) (s : Text) :
    readString? ('\\' :: c :: s) =
      (readString? s).map fun (value, behind) => (d :: value, behind) := by
  rw [readString?, h]
  cases readString? s <;> rfl

/-- A character as it stands in a string is read as this character. -/
theorem readString?_quotedChar (c : Char) (s : Text) :
    readString? (quotedChar c ++ s) =
      (readString? s).map fun (value, behind) => (c :: value, behind) := by
  unfold quotedChar
  split
  next hself =>
    refine readString?_escape ?_ s
    rcases hself with rfl | rfl | rfl | rfl <;> decide
  next hself =>
    simp only [not_or] at hself
    obtain ⟨hquote, hslash, hscalar, harray⟩ := hself
    split
    next hfeed => exact readString?_escape (by subst hfeed; decide) s
    next hfeed =>
      split
      next hreturn => exact readString?_escape (by subst hreturn; decide) s
      next hreturn =>
        split
        next htab => exact readString?_escape (by subst htab; decide) s
        next htab =>
          have hplain : isEscapedOnly c = false := by
            simp [isEscapedOnly, hscalar, harray, hfeed, hreturn, htab]
          exact readString?_cons hquote hslash hplain s

/-- The string of a text is read as this text, whatever stands behind it. -/
theorem readQuoted?_quoted (t s : Text) : readQuoted? (quoted t ++ s) = some (t, s) := by
  have hrest : readString? (t.flatMap quotedChar ++ '"' :: s) = some (t, s) := by
    induction t with
    | nil => rfl
    | cons c rest ih =>
      rw [List.flatMap_cons, List.append_assoc, readString?_quotedChar, ih]
      rfl
  rw [quoted, List.append_assoc]
  exact hrest

end Text

namespace Guard

/-- Read a key, with what stands behind it: a string in double quotes, or a bare word. -/
def readKey? : Text → Option (Text × Text)
  | '"' :: rest => Text.readQuoted? ('"' :: rest)
  | s => Identifier.read? s

/-- Read an element of a variable, in braces behind its name or behind an arrow: its key, and what
stands behind the element. -/
def keyOf? (variableName term : Text) : Option (Text × Text) := do
  let behindName ← List.isPrefixOf? ('$' :: variableName) term
  let behindArrow := (List.isPrefixOf? "->" behindName).getD behindName
  let subscript ← List.isPrefixOf? ['\x7b'] behindArrow
  let (key, closing) ← readKey? subscript
  let behind ← List.isPrefixOf? ['\x7d'] closing
  return (key, behind)

variable {compiler : SchemaCompiler} {function : Text} {m : FunctionMetadata} {tag : Tag}
  {declared : Bool} {g : Guard}

/-- A subscript is read as the key that it is made for. -/
theorem readKey?_subscript (key s : Text) :
    readKey? ((if Identifier.isBareword key then key else Text.quoted key) ++ '\x7d' :: s) =
      some (key, '\x7d' :: s) := by
  split
  next hbare =>
    have hstop : Text.StopsAt Unicode.isWord ('\x7d' :: s) := Text.stopsAt_cons (by decide) s
    have hread := Identifier.read?_eq_some_iff.2 ⟨hbare, rfl, hstop⟩
    -- A bare word does not start with a quote, so it is not taken for a string.
    cases key with
    | nil => simp [Identifier.isBareword] at hbare
    | cons c rest =>
      have hquote : c ≠ '"' := by
        rintro rfl
        simp [Identifier.isBareword, Identifier.isStart] at hbare
      rw [List.cons_append, readKey?]
      · exact hread
      · exact fun _ h => hquote (List.cons.inj h).1
  next => exact Text.readQuoted?_quoted key _

/-- The expression for an argument inside a variable is read as the element with its name. -/
theorem keyOf?_elementTerm (packing : Packing) (name key s : Text) :
    keyOf? name (elementTerm packing name key ++ s) = some (key, s) := by
  let arrow : Text := if packing = .hashRef then "->" else ""
  let braced : Text :=
    '\x7b' :: (if Identifier.isBareword key then key else Text.quoted key) ++ '\x7d' :: s
  have hterm : elementTerm packing name key ++ s = ('$' :: name) ++ (arrow ++ braced) := by
    simp [elementTerm, arrow, braced]
  have harrow : (List.isPrefixOf? "->" (arrow ++ braced)).getD (arrow ++ braced) = braced := by
    by_cases hp : packing = .hashRef <;> simp [arrow, braced, hp, List.isPrefixOf?]
  rw [keyOf?, List.isPrefixOf?_eq_some_iff_append_eq.2 hterm.symm]
  simp only [Option.bind_eq_bind, Option.bind_some, harrow]
  simp [braced, List.isPrefixOf?, readKey?_subscript]

/-- The arguments inside a variable have the declared names, in declared order. -/
theorem map_name_elementTargets (m : FunctionMetadata) (variableName : Text) :
    (elementTargets m variableName).map Target.name = Dictionary.keys m.args := by
  simp [elementTargets, elementTarget, Dictionary.keys, Function.comp_def]

/-- The value of each argument inside a variable is the element with its name. -/
theorem keyOf?_of_mem_elementTargets {variableName : Text} {t : Target}
    (ht : t ∈ elementTargets m variableName) : keyOf? variableName t.data = some (t.name, []) := by
  obtain ⟨⟨argument, spec⟩, -, rfl⟩ := List.mem_map.1 ht
  have hread := keyOf?_elementTerm m.packing variableName argument []
  rwa [List.append_nil] at hread

/-- No two arguments inside a variable are the same element. -/
theorem pairwise_keyOf?_elementTargets (m : FunctionMetadata) (variableName : Text) :
    (elementTargets m variableName).Pairwise fun t u =>
      keyOf? variableName t.data ≠ keyOf? variableName u.data := by
  have hnames : ((elementTargets m variableName).map Target.name).Pairwise (· ≠ ·) := by
    rw [map_name_elementTargets]
    exact m.distinct
  refine (List.pairwise_map.1 hnames).imp_of_mem fun ht hu hne hsame => hne ?_
  rw [keyOf?_of_mem_elementTargets ht, keyOf?_of_mem_elementTargets hu] at hsame
  exact (Prod.mk.inj (Option.some.inj hsame)).1

/-- The string of a text is read as this text, and the expression for an argument inside a variable
as the element with its name, whatever stands behind them. So a guard on all arguments looks each of
them up under its own name, and no two of them are the same element. -/
theorem elements_by_name :
    (∀ t s : Text, Text.readQuoted? (Text.quoted t ++ s) = some (t, s)) ∧
    (∀ (packing : Packing) (name key s : Text),
      keyOf? name (elementTerm packing name key ++ s) = some (key, s)) ∧
    ∀ (compiler : SchemaCompiler) (function : Text) (m : FunctionMetadata) (tag : Tag)
      (declared : Bool) (g : Guard), all compiler function m tag declared = .ok g →
      (∃ own, checks compiler (elementTargets m tag.name) = .ok own ∧
        g = ⟨render (.ofMetadata m) (opened declared own), Dictionary.keys m.args⟩) ∧
      (∀ t ∈ elementTargets m tag.name, keyOf? tag.name t.data = some (t.name, [])) ∧
      (elementTargets m tag.name).Pairwise fun t u =>
        keyOf? tag.name t.data ≠ keyOf? tag.name u.data := by
  refine ⟨Text.readQuoted?_quoted, keyOf?_elementTerm, fun compiler function m tag declared g hg =>
    ⟨?_, fun t => keyOf?_of_mem_elementTargets, pairwise_keyOf?_elementTargets m tag.name⟩⟩
  rw [← forTag_all] at hg
  obtain ⟨ts, own, hts, hown, rfl⟩ := forTag_eq_ok_iff.1 hg
  obtain rfl := eq_elementTargets hts
  exact ⟨own, hown, by rw [map_name_elementTargets]⟩

/-- A function with two arguments whose names differ in an escape only, and one with a plain name.
-/
def namesakeFunction : FunctionMetadata where
  version := FunctionMetadata.supportedVersion
  args := [("a\n", { required := true }), ("a\\n", { required := true }),
    ("n", { required := true })]

/-- The guard of the function looks at three elements. -/
theorem elements_by_name_namesakeFunction :
    ∃ g, all Schema.compile "up" namesakeFunction countedTag false = .ok g ∧
      (∀ t ∈ elementTargets namesakeFunction countedTag.name,
        keyOf? countedTag.name t.data = some (t.name, [])) ∧
      (elementTargets namesakeFunction countedTag.name).map Target.data =
        ["$h\x7b\"a\\n\"\x7d", "$h\x7b\"a\\\\n\"\x7d", "$h\x7bn\x7d"] := by
  have hcode : ((all Schema.compile "up" namesakeFunction countedTag false).toOption.map
      fun g => g.code.isEmpty) = some false := by decide +kernel
  obtain ⟨g, hg, -⟩ := exists_eq_ok_of_map_toOption hcode
  have helements := elements_by_name.2.2 Schema.compile "up" namesakeFunction countedTag false g hg
  exact ⟨g, hg, helements.2.1, by decide +kernel⟩

end Guard

end ArgGuard
