import ArgGuard.Proofs.Reader
import ArgGuard.Proofs.Splicing
import ArgGuard.Proofs.TagGrammar

/-!
# Guards behind live code

The guard of a tag comes directly behind the code of its line, so it is run only if that code ends
outside of strings and starts no comment. Code is read from left to right with its strings skipped,
which is all there is to skip if it has no other literals. What stands around the initializer of a
declaration leads neither out of code nor into it. The initializer itself may be any text up to a
semicolon, and the semicolon may belong to a string or to a comment. So a guard stands behind live
code exactly if its line has no initializer, or one that is live by itself.
-/

namespace ArgGuard

/-- The kind of a string, told by the mark around it. -/
inductive Quote where
  /-- Between single quotation marks. -/
  | single
  /-- Between double quotation marks. -/
  | double
  deriving DecidableEq, Repr

namespace Quote

/-- The mark around a string. -/
def char : Quote → Char
  | single => '\''
  | double => '"'

/-- The kind of string that a mark stands for. -/
def ofChar? (c : Char) : Option Quote :=
  if c = '\'' then some single
  else if c = '"' then some double
  else none

/-- A plain character is no mark of a string. -/
theorem ofChar?_of_isPlain {c : Char} (h : Text.isPlain c) : ofChar? c = none := by
  rw [ofChar?, if_neg (Reader.ne_of_isPlain h rfl), if_neg (Reader.ne_of_isPlain h rfl)]

/-- A plain character does not end a string. -/
theorem ne_char_of_isPlain {c : Char} (h : Text.isPlain c) (quote : Quote) : c ≠ quote.char := by
  cases quote with
  | single => exact Reader.ne_of_isPlain h rfl
  | double => exact Reader.ne_of_isPlain h rfl

end Quote

/-- Where a reader of the code in front of a tag stands. -/
inductive LeadPlace where
  /-- In code, behind a blank or not. -/
  | code (blank : Bool)
  /-- In a string. -/
  | string (quote : Quote)
  /-- Behind a backslash in a string. -/
  | escape (quote : Quote)
  /-- In a comment. -/
  | comment
  deriving DecidableEq, Repr

namespace LeadPlace

/-- Read a character. A comment starts behind a blank and goes on to the end of the line. -/
def step : LeadPlace → Char → LeadPlace
  | code blank, c =>
    if c = '#' ∧ blank then comment
    else
      match Quote.ofChar? c with
      | some quote => string quote
      | none => code (Text.isBlank c)
  | string quote, c =>
    if c = quote.char then code false
    else if c = '\\' then escape quote
    else string quote
  | escape quote, _ => string quote
  | comment, _ => comment

/-- Read a text. -/
def read (p : LeadPlace) (s : Text) : LeadPlace := s.foldl step p

/-- Whether a place is in code. -/
def IsCode (p : LeadPlace) : Prop := ∃ blank, p = code blank

/-- A text is read part by part. -/
theorem read_append (p : LeadPlace) (s t : Text) : p.read (s ++ t) = (p.read s).read t :=
  List.foldl_append

/-- A character is read in front of the others. -/
theorem read_cons (p : LeadPlace) (c : Char) (s : Text) : p.read (c :: s) = (p.step c).read s := rfl

variable {c : Char} {s : Text} {p : LeadPlace}

/-- A plain character is read in code as one. -/
theorem step_code_of_isPlain (h : Text.isPlain c) (blank : Bool) :
    (code blank).step c = code (Text.isBlank c) := by
  have hhash : ¬ (c = '#' ∧ blank) := fun hc => Reader.ne_of_isPlain h rfl hc.1
  rw [step, if_neg hhash, Quote.ofChar?_of_isPlain h]

/-- A plain character leads neither out of code nor into it. -/
theorem isCode_step_iff (h : Text.isPlain c) : (p.step c).IsCode ↔ p.IsCode := by
  cases p with
  | code blank =>
    rw [step_code_of_isPlain h]
    exact ⟨fun _ => ⟨_, rfl⟩, fun _ => ⟨_, rfl⟩⟩
  | string quote =>
    rw [step, if_neg (Quote.ne_char_of_isPlain h quote)]
    split <;> simp [IsCode]
  | escape quote => simp [step, IsCode]
  | comment => simp [step, IsCode]

/-- Plain characters lead neither out of code nor into it. -/
theorem isCode_read_iff (h : s.all Text.isPlain) : (p.read s).IsCode ↔ p.IsCode := by
  induction s generalizing p with
  | nil => rfl
  | cons c s ih =>
    obtain ⟨hc, hs⟩ := Bool.and_eq_true_iff.1 (List.all_cons ▸ h)
    rw [read_cons, ih hs, isCode_step_iff hc]

/-- Behind a comment sign everything is comment. -/
theorem read_comment (s : Text) : comment.read s = comment := by
  induction s with
  | nil => rfl
  | cons c s ih => exact ih

end LeadPlace

namespace Text

/-- A text that is read from code to code: it ends outside of every string, and starts no
comment. -/
def IsLive (s : Text) : Prop := ((LeadPlace.code false).read s).IsCode

/-- The words that start a literal of their own. -/
def literalWords : List Text := ["q", "qq", "qw", "m", "s", "tr", "y"]

/-- A text without literals other than strings between quotation marks: it has no slash, no
backtick, no start of a here document and no word that starts a literal. -/
def HasOnlyStrings (s : Text) : Prop :=
  '/' ∉ s ∧ '\x60' ∉ s ∧ ¬ ("<<" : Text) <:+: s ∧
    ∀ word ∈ s.splitOnP (fun c => !Unicode.isWord c), word ∉ literalWords

end Text

namespace Tag.Form

variable (f : Tag.Form)

/-- The code of a line up to what stands behind its equals sign. -/
def opening : Text :=
  f.indent ++ "my" ++ f.gap ++ f.sigil.char :: f.name

/-- Blanks are plain. -/
theorem isPlain_blanks (blanks : Blanks) : (blanks : Text).all Text.isPlain :=
  List.all_eq_true.2 fun c hc =>
    Text.isPlain_of (p := Text.isBlank) (by decide) (List.all_eq_true.1 blanks.2 c hc)

/-- The declared variable and what stands in front of it are plain. -/
theorem isPlain_opening : f.opening.all Text.isPlain := by
  have hindent := isPlain_blanks f.indent
  have hgap := isPlain_blanks ⟨f.gap, f.gap.2.2⟩
  have hmy : ("my" : Text).all Text.isPlain := by decide
  have hsigil : Text.isPlain f.sigil.char := by cases f.sigil <;> decide
  have hname := Text.isPlain_of_isBareword f.name.2
  simp only [opening, List.all_append, List.all_cons, hindent, hmy, hsigil, hname, hgap,
    Bool.and_self]

/-- The code in front of a tag is live exactly if the initializer is, if there is one. -/
theorem isLive_lead_iff : Text.IsLive f.lead ↔ ∀ i ∈ f.initial, Text.IsLive i.value := by
  have hopening : ((LeadPlace.code false).read f.opening).IsCode :=
    (LeadPlace.isCode_read_iff f.isPlain_opening).2 ⟨_, rfl⟩
  have hclosing : (';' :: f.space : Text).all Text.isPlain :=
    List.all_cons ▸ Bool.and_eq_true_iff.2 ⟨by decide, isPlain_blanks f.space⟩
  have hlead : f.lead = f.opening ++ (f.initial.map Initializer.text).getD [] ++ ';' :: f.space :=
    rfl
  rw [Text.IsLive, hlead, LeadPlace.read_append, LeadPlace.isCode_read_iff hclosing,
    LeadPlace.read_append]
  cases f.initial with
  | none => simpa [LeadPlace.read] using hopening
  | some i =>
    -- The equals sign is not a blank, so the initializer is read like a text of its own.
    have hspace := (LeadPlace.isCode_read_iff (isPlain_blanks i.space)).2 hopening
    obtain ⟨blank, hblank⟩ := hspace
    have hequals : (LeadPlace.code blank).step '=' = .code false :=
      LeadPlace.step_code_of_isPlain (by decide) blank
    simp only [Option.map_some, Option.getD_some, Initializer.text, LeadPlace.read_append, hblank,
      LeadPlace.read_cons, hequals, Option.mem_some_iff, forall_eq', Text.IsLive]

end Tag.Form

/-- A line that has a guard is a code line with a tag. -/
theorem AreGuards.exists_form {setting : ScanSetting} {lines : List Line}
    {guards : Nat → Option Guard} (h : AreGuards setting lines guards) {n : Nat} {guard : Guard}
    (hg : guards n = some guard) :
    ∃ (before after : List Line) (line : Line) (f : Tag.Form),
      lines = before ++ line :: after ∧ n = before.length + 1 ∧ f.text = line.body := by
  obtain ⟨c, hc, rfl⟩ := h.in_code n (by simp [hg])
  obtain ⟨above, below, hsplit⟩ := List.append_of_mem hc
  obtain ⟨before, after, hlines, -, -, hnumber⟩ := exists_lines_of_codeLines_eq hsplit
  cases htagged : taggedSub? setting.store above.reverse c with
  | none =>
    have hnone := h.of_other above c below hsplit htagged
    simp [hg] at hnone
  | some tagged =>
    obtain ⟨tag, s, m⟩ := tagged
    have ht := LineKind.ofLine?_of_ofLine_eq_tag (taggedSub?_eq_some_iff.1 htagged).1
    obtain ⟨f, hf, -⟩ := Tag.Form.exists_of_ofLine? ht
    exact ⟨before, after, c.line, f, hlines, hnumber, hf⟩

/-- In a source that is processed, each guard comes directly behind the code of its line. This code
is live, and so is the guard behind it, exactly if the line has no initializer or one that is live
by itself: a string that is open at its end or a comment in it takes the guard in. -/
theorem process_live {setting : ScanSetting} {source : Text} {z : Yield}
    (h : process setting source = .ok z) :
    ∃ guards, AreGuards setting source.lines guards ∧
      ∀ n guard, guards n = some guard →
        ∃ (line : Line) (f : Tag.Form), source.lines[n - 1]? = some line ∧ f.text = line.body ∧
          z.text.lines[n - 1]? = some { line with body := f.lead ++ guard.code ++ f.comment } ∧
          (f.lead.IsLive ↔ ∀ i ∈ f.initial, i.value.IsLive) := by
  obtain ⟨guards, ⟨hguards, hlines, -⟩, -⟩ := process_splices h
  refine ⟨guards, hguards, fun n guard hg => ?_⟩
  obtain ⟨before, after, line, f, hsource, rfl, hf⟩ := hguards.exists_form hg
  have hline : source.lines[before.length]? = some line := by rw [hsource]; simp
  have ht : Tag.ofLine? line.body = some f.tag := hf ▸ f.ofLine?_text
  refine ⟨line, f, hline, hf, ?_, f.isLive_lead_iff⟩
  rw [hlines, Nat.add_sub_cancel, List.getElem?_map, List.getElem?_zipIdx, hline]
  simp only [Option.map_some, Nat.add_comm 1, hg, Line.withGuard_some ht]
  rfl

/-- What a setting knows about the function of the sample: it requires a count. -/
def formerFunction : FunctionMetadata where
  version := FunctionMetadata.supportedVersion
  args := [("n", { schema := some (.string "int"), required := true })]

/-- A setting with one package and the function in it. -/
def formerSetting : ScanSetting where
  file := "lib/Foo.pm"
  store package :=
    if package = ("Foo" : Text) then .ok [("bar", formerFunction)]
    else .error (.unitNotFound package)
  compiler := Schema.compile

/-- The code of a line that keeps its former initializer in a comment. -/
def formerLead : Text := "    my $n = $args\x7bn\x7d; # was: my $n = shift; "

/-- The tag of the line. -/
def formerTag : Tag where
  scope := .single
  sigil := .scalar
  name := "n"
  explicit := none
  lead := formerLead
  comment := "# VALIDATE_ARG"

/-- A source with the line in a sub for the function. -/
def formerSource : Text :=
  "package Foo;\nsub bar \x7b\n" ++ formerLead ++ "# VALIDATE_ARG\n\x7d\n"

/-- The line of the sample gets a guard with some code, which checks the count. -/
theorem exists_guard_formerSource {guards : Nat → Option Guard}
    (h : AreGuards formerSetting formerSource.lines guards) :
    ∃ guard, guards 3 = some guard ∧ guard.code ≠ [] ∧ guard.validated = [['n']] := by
  obtain ⟨guard, hguard, hfor⟩ := h.of_tag
    [⟨1, "package Foo;", .lineFeed⟩, ⟨2, "sub bar \x7b", .lineFeed⟩]
    ⟨3, formerLead ++ "# VALIDATE_ARG", .lineFeed⟩ [⟨4, ['\x7d'], .lineFeed⟩]
    formerTag _ formerFunction rfl rfl
  -- That does not depend on whether the error variable is declared.
  have hcode (declared : Bool) :
      ((Guard.forTag Schema.compile "bar" formerFunction formerTag declared).toOption.map
        fun g => (g.code.isEmpty, g.validated)) = some (false, [['n']]) := by
    cases declared <;> decide +kernel
  obtain ⟨guard', hfor', hcode⟩ := exists_eq_ok_of_map_toOption (hcode _)
  obtain rfl : guard' = guard := Except.ok.inj (hfor'.symm.trans hfor)
  obtain ⟨hempty, hvalidated⟩ := Prod.mk.inj hcode
  exact ⟨guard', hguard, by simpa using hempty, hvalidated⟩

/-- The guard of the sample comes behind a comment sign, so it is never run. Still its argument
counts as checked, and nothing is reported about it. -/
theorem process_live_formerSource :
    ∃ z, process formerSetting formerSource = .ok z ∧ z.diagnostics = [] ∧
      ∃ (guard : Guard) (line : Line) (f : Tag.Form), guard.code ≠ [] ∧ guard.validated = [['n']] ∧
        formerSource.lines[2]? = some line ∧ f.text = line.body ∧
        z.text.lines[2]? = some { line with body := f.lead ++ guard.code ++ f.comment } ∧
        f.lead.HasOnlyStrings ∧ ¬ f.lead.IsLive ∧
        (LeadPlace.code false).read (f.lead ++ guard.code) = .comment := by
  have hquiet : ((process formerSetting formerSource).toOption.map fun z => z.diagnostics) =
      some [] := by
    decide +kernel
  obtain ⟨z, hz, hdiagnostics⟩ := exists_eq_ok_of_map_toOption hquiet
  obtain ⟨guards, hguards, hall⟩ := process_live hz
  obtain ⟨guard, hguard, hcode, hvalidated⟩ := exists_guard_formerSource hguards
  obtain ⟨line, f, hline, hf, hnew, -⟩ := hall 3 guard hguard
  obtain rfl := Option.some.inj (hline.symm.trans
    (rfl : formerSource.lines[2]? = some ⟨formerLead ++ "# VALIDATE_ARG", .lineFeed⟩))
  have htag : Tag.ofLine? f.text = some formerTag := by
    rw [hf]
    decide +kernel
  have hlead : f.lead = formerLead :=
    congrArg Tag.lead (Option.some.inj (f.ofLine?_text.symm.trans htag))
  have hcomment : (LeadPlace.code false).read f.lead = .comment := by
    rw [hlead]
    decide
  have hstrings : f.lead.HasOnlyStrings := by
    rw [hlead, Text.HasOnlyStrings]
    decide +kernel
  have hdead : ¬ f.lead.IsLive := by
    rintro ⟨blank, hblank⟩
    rw [hcomment] at hblank
    cases hblank
  have hread : (LeadPlace.code false).read (f.lead ++ guard.code) = .comment := by
    rw [LeadPlace.read_append, hcomment, LeadPlace.read_comment]
  exact
    ⟨z, hz, hdiagnostics, guard, _, f, hcode, hvalidated, hline, hf, hnew, hstrings, hdead, hread⟩

end ArgGuard
