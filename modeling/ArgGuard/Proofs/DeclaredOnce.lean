import ArgGuard.Proofs.Sections
import ArgGuard.Proofs.Splicing
import ArgGuard.Proofs.Steady
import Mathlib.Algebra.GroupWithZero.Nat
import Mathlib.Data.List.Infix

/-!
# The error variable is declared once

The guards in a sub share one error variable. The first of them that has code declares it before
anything else, and no other text of a guard looks like this declaration, whatever the metadata
holds. Guards without code declare nothing, and a sub does not see the declarations of others.
-/

namespace ArgGuard

/-- How often a word occurs in a text. -/
def Text.occurrences (word s : Text) : Nat := s.tails.countP (word.isPrefixOf ·)

/-- The declaration of the error variable. -/
def Guard.declaration : Text := "my $arg_err;"

/-- Codes that declare the error variable once and in front of everything else, unless all of them
are empty. -/
structure DeclareOnce (codes : List Text) : Prop where
  /-- The first code that is not empty starts with the declaration. -/
  first : ∀ code, codes.find? (· ≠ []) = some code → Guard.declaration ++ [' '] <+: code
  /-- There is no other declaration. -/
  count : (codes.map (Text.occurrences Guard.declaration)).sum =
    if ∀ code ∈ codes, code = [] then 0 else 1

/-- The codes that lines of a section got, in order. -/
def Section.codes (s : Section) (guards : Nat → Option Guard) : List Text :=
  s.lines.filterMap fun c => (guards c.number).map Guard.code

namespace Text

/-- A word occurs behind a character as often as there, and perhaps at this character. -/
theorem occurrences_cons (word : Text) (c : Char) (s : Text) :
    occurrences word (c :: s) =
      occurrences word s + if word.isPrefixOf (c :: s) then 1 else 0 := by
  rw [occurrences, List.tails, List.countP_cons]
  rfl

/-- A word does not occur where its first character does not. -/
theorem occurrences_append_of_not_mem {c : Char} {word front : Text} (h : c ∉ front) (s : Text) :
    occurrences (c :: word) (front ++ s) = occurrences (c :: word) s := by
  induction front with
  | nil => rfl
  | cons d rest ih =>
    simp only [List.mem_cons, not_or] at h
    have hno : (c :: word).isPrefixOf (d :: (rest ++ s)) = false := by
      simp [List.isPrefixOf, h.1]
    rw [List.cons_append, occurrences_cons, hno, ih h.2]
    rfl

end Text

namespace Watch

/-- The declaration does not occur in a text that a watcher reads. -/
theorem occurrences_of_read {w next : Watch} {s : Text} (h : w.read s = some next) :
    Text.occurrences Guard.declaration s = 0 := by
  refine List.countP_eq_zero.2 fun tail htail hprefix => not_infix_of_read h ?_
  have hinfix : Guard.declaration <:+: s :=
    (List.isPrefixOf_iff_prefix.1 hprefix).isInfix.trans ((List.mem_tails _ _).1 htail).isInfix
  have hmiddle : ("y $a" : Text) <:+: Guard.declaration := ⟨['m'], "rg_err;", rfl⟩
  exact hmiddle.trans hinfix

/-- The declaration does not occur in a steady text. -/
theorem Steady.occurrences {s : Text} (h : Steady s) :
    Text.occurrences Guard.declaration s = 0 := by
  obtain ⟨next, -, hread⟩ := h start List.mem_cons_self
  exact occurrences_of_read hread

/-- The declaration occurs once in front of a steady text. -/
theorem Steady.occurrences_declaration {s : Text} (h : Steady s) :
    Text.occurrences Guard.declaration (Guard.declaration ++ [' '] ++ s) = 1 := by
  have hfront : 'm' ∉ ("y $arg_err; " : Text) := by decide
  have hfound : Guard.declaration.isPrefixOf ('m' :: (("y $arg_err; " : Text) ++ s)) :=
    List.isPrefixOf_iff_prefix.2 ⟨[' '] ++ s, rfl⟩
  have hbehind : Text.occurrences Guard.declaration (("y $arg_err; " : Text) ++ s) = 0 :=
    (Text.occurrences_append_of_not_mem hfront s).trans h.occurrences
  calc Text.occurrences Guard.declaration ('m' :: (("y $arg_err; " : Text) ++ s))
      = Text.occurrences Guard.declaration (("y $arg_err; " : Text) ++ s) + 1 := by
        rw [Text.occurrences_cons, if_pos hfound]
    _ = 1 := by rw [hbehind]

end Watch

namespace Guard

variable {function : Text} {m : FunctionMetadata} {tag : Tag} {declared : Bool} {g : Guard}

/-- The code of a guard is steady, with the declaration in front of it where it is still missing
and there is any code. -/
theorem exists_steady_of_forTag (h : forTag Schema.compile function m tag declared = .ok g)
    (hname : Identifier.isBareword tag.name) :
    ∃ body, Watch.Steady body ∧ g.code =
      if declared ∨ body = [] then body else declaration ++ [' '] ++ body := by
  obtain ⟨ts, own, hts, hown, rfl⟩ := forTag_eq_ok_iff.1 h
  have hterms := steady_of_targets hname hts
  have hlines := expression_of_targets hname hts
  obtain ⟨-, rfl⟩ := checks_compile
    (fun t ht => (hlines t ht).1.not_mem rfl List.not_mem_nil) hown
  refine ⟨render (.ofMetadata m) ((ts.flatMap Target.commands).map Command.statement), ?_, ?_⟩
  · refine .flatMap fun statement hstatement => ?_
    obtain ⟨command, hcommand, rfl⟩ := List.mem_map.1 hstatement
    obtain ⟨t, ht, hcommand⟩ := List.mem_flatMap.1 hcommand
    obtain ⟨hdata, hmissing⟩ := hterms t ht
    exact (settled_commands hdata hmissing command hcommand).append_space.steady
  · generalize (ts.flatMap Target.commands).map Command.statement = own
    by_cases hopen : declared ∨ own = []
    · rw [if_pos (by rwa [render_eq_nil_iff])]
      simp [opened, hopen]
    · rw [if_neg (by rwa [render_eq_nil_iff])]
      simp [opened, hopen]
      rfl

end Guard

namespace DeclareOnce

variable {codes : List Text} {code : Text}

/-- No codes declare nothing. -/
theorem nil : DeclareOnce [] := ⟨by simp, rfl⟩

/-- Among codes that are empty there is no first one that is not. -/
theorem find?_eq_none_iff : codes.find? (· ≠ []) = none ↔ ∀ code ∈ codes, code = [] := by
  simp [List.find?_eq_none]

/-- Code without a declaration behind codes of which some is not empty. -/
theorem concat_steady (h : DeclareOnce codes) (hsome : ¬ ∀ code ∈ codes, code = [])
    (hcode : Watch.Steady code) : DeclareOnce (codes ++ [code]) := by
  have hfirst (other : Text) (hother : (codes ++ [code]).find? (· ≠ []) = some other) :
      codes.find? (· ≠ []) = some other := by
    rw [List.find?_append] at hother
    cases hfound : codes.find? (· ≠ []) with
    | none => exact absurd (find?_eq_none_iff.1 hfound) hsome
    | some found => rwa [hfound, Option.some_or] at hother
  have hall : ¬ ∀ other ∈ codes ++ [code], other = [] :=
    fun hempty => hsome fun other ho => hempty other (List.mem_append_left _ ho)
  refine ⟨fun other hother => h.first other (hfirst other hother), ?_⟩
  have hcount := h.count
  rw [if_neg hsome] at hcount
  rw [if_neg hall, List.map_append, List.sum_append, hcount, List.map_singleton,
    List.sum_singleton, hcode.occurrences]

/-- Empty code declares nothing. -/
theorem concat_nil (h : DeclareOnce codes) : DeclareOnce (codes ++ [[]]) := by
  have hall : (∀ other ∈ codes ++ [[]], other = []) ↔ ∀ code ∈ codes, code = [] := by
    simp [or_imp]
  refine ⟨fun other hother => h.first other ?_, ?_⟩
  · simpa [List.find?_append] using hother
  · rw [if_congr hall rfl rfl, List.map_append, List.sum_append, h.count, List.map_singleton,
      List.sum_singleton, Watch.steady_nil.occurrences, Nat.add_zero]

/-- Code with the declaration behind empty codes. -/
theorem concat_declaration (h : DeclareOnce codes) (hempty : ∀ code ∈ codes, code = [])
    {body : Text} (hbody : Watch.Steady body) :
    DeclareOnce (codes ++ [Guard.declaration ++ [' '] ++ body]) := by
  have hall : ¬ ∀ other ∈ codes ++ [Guard.declaration ++ [' '] ++ body], other = [] :=
    fun hno => List.cons_ne_nil _ _ (hno _ (List.mem_append_right _ (List.mem_singleton_self _)))
  refine ⟨fun other hother => ?_, ?_⟩
  · rw [List.find?_append, find?_eq_none_iff.2 hempty] at hother
    obtain rfl := Option.some.inj hother
    exact List.prefix_append ..
  · have hcount := h.count
    rw [if_pos hempty] at hcount
    rw [if_neg hall, List.map_append, List.sum_append, hcount, List.map_singleton,
      List.sum_singleton, hbody.occurrences_declaration]

/-- A further code, which has the declaration in front of it where no code has declared the error
variable yet and there is any code. -/
theorem concat (h : DeclareOnce codes) {declared : Bool}
    (hdeclared : declared = false ↔ ∀ code ∈ codes, code = []) {body : Text}
    (hbody : Watch.Steady body) :
    DeclareOnce (codes ++
      [if declared ∨ body = [] then body else Guard.declaration ++ [' '] ++ body]) := by
  cases declared with
  | true =>
    have hsome : ¬ ∀ code ∈ codes, code = [] := fun hempty => by simpa using hdeclared.2 hempty
    rw [if_pos (.inl rfl)]
    exact h.concat_steady hsome hbody
  | false =>
    by_cases hempty : body = []
    · rw [if_pos (.inr hempty), hempty]
      exact h.concat_nil
    · rw [if_neg (by simpa using hempty)]
      exact h.concat_declaration (hdeclared.1 rfl) hbody

end DeclareOnce

namespace Section

variable {guards : Nat → Option Guard}

/-- Some tag of a section got code if not all its codes are empty. -/
theorem hasCode_eq_false_iff {s : Section} :
    s.hasCode guards = false ↔ ∀ code ∈ s.codes guards, code = [] := by
  simp only [hasCode, codes, List.any_eq_false, List.mem_filterMap, Option.map_eq_some_iff]
  constructor
  · rintro h code ⟨c, hc, guard, hguard, rfl⟩
    simpa [hguard] using h c hc
  · intro h c hc
    cases hguard : guards c.number with
    | none => simp
    | some guard => simpa using h guard.code ⟨c, hc, guard, hguard, rfl⟩

/-- The codes of a section with a further line. -/
theorem codes_extend (s : Section) (c : CodeLine) :
    (s.extend c).codes guards =
      s.codes guards ++ ((guards c.number).map Guard.code).toList := by
  rw [codes, extend, List.filterMap_append]
  cases hguard : guards c.number <;> simp [codes, hguard]

end Section

/-- Wherever a section is open, its codes declare the error variable once. -/
theorem AreGuards.declareOnce {setting : ScanSetting} {lines : List Line}
    {guards : Nat → Option Guard} (h : AreGuards setting lines guards)
    (hcompiler : setting.compiler = Schema.compile) {above below : List CodeLine}
    (hcode : codeLines lines = above ++ below) {s : Section}
    (hopen : openSection? above.reverse = some s) : DeclareOnce (s.codes guards) := by
  -- A guard depends on the codes above it in its section, so the induction is on the lines of that.
  have hfront (before : List CodeLine) : ∀ after, s.lines = before ++ after →
      DeclareOnce (Section.codes { s with lines := before } guards) := by
    induction before using List.reverseRecOn with
    | nil => exact fun _ _ => .nil
    | append_singleton before c ih =>
      intro after hlines
      rw [List.append_assoc, List.singleton_append] at hlines
      have hbefore := ih (c :: after) hlines
      obtain ⟨nearer, farther, habove, hopen'⟩ := openSection?_of_lines_eq hopen hlines
      have hsplit : codeLines lines = farther.reverse ++ c :: (nearer.reverse ++ below) := by
        rw [hcode, ← List.reverse_reverse above, habove]
        simp
      have hextend : { s with lines := before ++ [c] } =
          Section.extend { s with lines := before } c := rfl
      rw [hextend, Section.codes_extend]
      cases htagged : taggedSub? setting.store farther c with
      | none =>
        rw [← List.reverse_reverse farther] at htagged
        rw [h.of_other _ c _ hsplit htagged]
        simpa using hbefore
      | some tagged =>
        obtain ⟨tag, s', m⟩ := tagged
        obtain ⟨hkind, hopen'', -⟩ := taggedSub?_eq_some_iff.1 htagged
        obtain rfl : { s with lines := before } = s' :=
          Option.some.inj (hopen'.symm.trans hopen'')
        rw [← List.reverse_reverse farther] at htagged
        obtain ⟨guard, hguard, hfor⟩ := h.of_tag _ c _ tag _ m hsplit htagged
        have ht := LineKind.ofLine?_of_ofLine_eq_tag hkind
        have hname := (Tag.declaration?_eq_some (Tag.ofLine?_eq_some ht).2.1).2.2
        rw [hcompiler] at hfor
        obtain ⟨body, hbody, hbodycode⟩ := Guard.exists_steady_of_forTag hfor hname
        rw [hguard, Option.map_some, Option.toList_some, hbodycode]
        exact hbefore.concat Section.hasCode_eq_false_iff hbody
  exact hfront s.lines [] (List.append_nil _).symm

/-- In a source that is processed with the built-in compiler the codes of each sub declare the error
variable once: the first tag with any code has the declaration in front of its code, and it occurs
nowhere else in the codes of the sub. Without any code there is no declaration. -/
theorem process_declares_once {file : Text} {store : MetadataStore} {source : Text} {z : Yield}
    (h : process ⟨file, store, Schema.compile⟩ source = .ok z) :
    ∃ guards, AreGuards ⟨file, store, Schema.compile⟩ source.lines guards ∧
      z.text.lines = (source.lines.zipIdx 1).map (fun (line, n) => line.withGuard (guards n)) ∧
      ∀ s ∈ sections source.lines, DeclareOnce (s.codes guards) := by
  obtain ⟨guards, last, y, hruns, hguards, rfl⟩ := runs_of_process h
  refine ⟨guards, hguards, ?_, fun s hs => ?_⟩
  · rw [Yield.text_append, List.append_nil]
    exact hruns.lines_text (areLines_lines source)
  · obtain ⟨above, below, hcode, hopen⟩ := openSection?_of_mem_sections hs
    exact hguards.declareOnce rfl hcode hopen

/-- A store with one function, whose schemas hold the text of a declaration and of none. -/
def trickyStore : MetadataStore := fun _ =>
  .ok [("up", {
    version := FunctionMetadata.supportedVersion
    args := [("any", { schema := some (.string "any") }),
      ("kind", { schema := some (.array [.string "str",
        .object [("in", .array [.string "my $arg_err;"]), ("match", .string "my $arg_err;")]]) }),
      ("n", { schema := some (.string "int*"), required := true })] })]

/-- A source with two subs for the function. The first one has a tag without code and two with code,
and the second one has a tag for all arguments. -/
def trickySource : Text :=
  "package Count;\nsub up \x7b\n  my $any; # VALIDATE_ARG\n  my $kind; # VALIDATE_ARG\n" ++
    "  my $n; # VALIDATE_ARG\n\x7d\nsub up \x7b\n  my %h = @_; # VALIDATE_ARGS\n\x7d\n"

/-- The sample is processed, and each of its subs declares the error variable once. -/
theorem process_declares_once_trickySource :
    ∃ z, process ⟨"Count.pm", trickyStore, Schema.compile⟩ trickySource = .ok z ∧ z.tags = 4 ∧
      ∃ guards, AreGuards ⟨"Count.pm", trickyStore, Schema.compile⟩ trickySource.lines guards ∧
        z.text.lines =
          (trickySource.lines.zipIdx 1).map (fun (line, n) => line.withGuard (guards n)) ∧
        ∀ s ∈ sections trickySource.lines, DeclareOnce (s.codes guards) := by
  have htags : ((process ⟨"Count.pm", trickyStore, Schema.compile⟩ trickySource).toOption.map
      Yield.tags) = some 4 := by decide +kernel
  obtain ⟨z, hz, htags⟩ := exists_eq_ok_of_map_toOption htags
  exact ⟨z, hz, htags, process_declares_once hz⟩

end ArgGuard
