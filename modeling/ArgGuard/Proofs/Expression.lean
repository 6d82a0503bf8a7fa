import ArgGuard.Proofs.Checks
import ArgGuard.Proofs.GuardText

/-!
# The conditions of checks

A schema amounts to checks whose conditions are expressions over the data: the data itself, plain
characters, and literals and bracketed parts that are complete in themselves. No text of a schema
gets into a condition in any other way. Their messages are true values, and nothing that a
comment says about a check breaks its line.
-/

namespace ArgGuard

namespace Text

/-- The characters that open or close something, or end a line. -/
def marks : Text :=
  ['"', '\'', '/', '#', '(', ')', '[', ']', '\x7b', '\x7d', '\n', '\r']

/-- A plain character is no mark. -/
def isPlain (c : Char) : Bool := !marks.contains c

/-- Characters among which there is no mark are plain. -/
theorem isPlain_of {p : Char → Bool} (hp : marks.all fun c => !p c) {c : Char} (h : p c) :
    isPlain c := by
  rw [isPlain, Bool.not_eq_true']
  by_contra hmark
  rw [Bool.not_eq_false, List.contains_iff_mem] at hmark
  have hno := List.all_eq_true.1 hp c hmark
  simp [h] at hno

/-- The characters of numbers. -/
def isNumeral (c : Char) : Bool := c.isDigit || c = '.' || c = 'e' || c = '-' || c = '+'

/-- The digits of a number are numerals. -/
theorem isNumeral_ofNat (n : Nat) : (ofNat n).all isNumeral := by
  refine List.all_eq_true.2 fun c hc => ?_
  have hdigit : c.isDigit := Nat.isDigit_of_mem_toDigits (by decide) (by decide) hc
  simp [isNumeral, hdigit]

/-- Numerals are plain. -/
theorem isPlain_of_isNumeral {s : Text} (h : s.all isNumeral) : s.all isPlain :=
  List.all_eq_true.2 fun c hc =>
    isPlain_of (p := isNumeral) (by decide) (List.all_eq_true.1 h c hc)

/-- Identifiers are plain. -/
theorem isPlain_of_isBareword {s : Text} (h : Identifier.isBareword s) : s.all isPlain := by
  refine List.all_eq_true.2 fun c hc => ?_
  rcases Identifier.of_mem_of_isBareword h hc with hstart | hword
  · exact isPlain_of (p := Identifier.isStart) (by decide) hstart
  · exact isPlain_of (p := Unicode.isWord) (by decide) hword

end Text

namespace Double

/-- The digits and the point of a number are numerals. -/
theorem isNumeral_positional {digits emptyFraction : Text} (hd : digits.all Text.isNumeral)
    (he : emptyFraction.all Text.isNumeral) (places : Int) :
    (positional digits places emptyFraction).all Text.isNumeral := by
  have hzero : Text.isNumeral '0' := by decide
  have hpoint : Text.isNumeral '.' := by decide
  have htake (n : Nat) : (digits.take n).all Text.isNumeral :=
    List.all_eq_true.2 fun c hc => List.all_eq_true.1 hd c (List.mem_of_mem_take hc)
  have hdrop (n : Nat) : (digits.drop n).all Text.isNumeral :=
    List.all_eq_true.2 fun c hc => List.all_eq_true.1 hd c (List.mem_of_mem_drop hc)
  unfold positional
  split
  next => simp [hd, hzero, hpoint]
  next =>
    split
    next => simp [hd, he, hzero]
    next => simp [htake, hdrop, hpoint]

/-- The digits of a number with a power of ten are numerals. -/
theorem isNumeral_scientific {digits : Text} (hd : digits.all Text.isNumeral) (places : Int) :
    (scientific digits places).all Text.isNumeral := by
  have hpoint : Text.isNumeral '.' := by decide
  have he : Text.isNumeral 'e' := by decide
  have hsign : Text.isNumeral (if places - 1 < 0 then '-' else '+') := by split <;> decide
  have hexponent : (Text.ofNat (places - 1).natAbs).all Text.isNumeral := Text.isNumeral_ofNat _
  unfold scientific
  split
  next first second rest =>
    simp only [List.all_cons, Bool.and_eq_true] at hd
    simp only [List.all_append, List.all_cons, hd, hpoint, he, hsign, hexponent, Bool.and_self]
  next => simp only [List.all_append, List.all_cons, hd, he, hsign, hexponent, Bool.and_self]

/-- The compact notation of a number has numerals only. -/
theorem isNumeral_compact (x : Double) : x.compact.all Text.isNumeral := by
  have hdigits := Text.isNumeral_ofNat (x.shortest .toEven).digits
  have hmagnitude (places : Int) : (if -5 < places ∧ places ≤ 16 then
      positional (Text.ofNat (x.shortest .toEven).digits) places ".0"
      else scientific (Text.ofNat (x.shortest .toEven).digits) places).all Text.isNumeral := by
    split
    next => exact isNumeral_positional hdigits (by decide) places
    next => exact isNumeral_scientific hdigits places
  unfold compact signed
  split
  next => simpa using ⟨(by decide : Text.isNumeral '-'), List.all_eq_true.1 (hmagnitude _)⟩
  next => exact hmagnitude _

end Double

/-- An expression over some data. -/
inductive Expression (data : Text) : Text → Prop
  /-- The data itself. -/
  | data : Expression data data
  /-- Plain characters. -/
  | plain (s : Text) (h : s.all Text.isPlain) : Expression data s
  /-- A part behind another one. -/
  | append {s t : Text} (hs : Expression data s) (ht : Expression data t) : Expression data (s ++ t)
  /-- A part in parentheses. -/
  | parens {s : Text} (h : Expression data s) : Expression data ('(' :: s ++ [')'])
  /-- A part in brackets. -/
  | brackets {s : Text} (h : Expression data s) : Expression data ('[' :: s ++ [']'])
  /-- A part in braces. -/
  | braces {s : Text} (h : Expression data s) : Expression data ('\x7b' :: s ++ ['\x7d'])
  /-- A text in double quotes. -/
  | quoted (s : Text) : Expression data (Text.quoted s)
  /-- Plain characters in single quotes. -/
  | word (s : Text) (h : s.all Text.isPlain) : Expression data ('\'' :: s ++ ['\''])
  /-- A pattern. -/
  | pattern {p body : Text} (h : Schema.patternBody p = .ok body) :
      Expression data ('/' :: body ++ ['/'])

namespace Json

/-- The text of a number has numerals only. -/
theorem Number.isNumeral_text (n : Number) : n.text.all Text.isNumeral := by
  cases n with
  | int value =>
    rw [Number.text, Text.ofInt]
    split
    next =>
      rw [List.all_cons, Text.isNumeral_ofNat, Bool.and_true]
      rfl
    next => exact Text.isNumeral_ofNat _
  | double x => exact x.isNumeral_compact

end Json

namespace Schema

/-- A pattern between slashes has the characters of the pattern and backslashes. -/
theorem mem_of_slashed? {pattern body : Text} (h : slashed? pattern = some body) {c : Char}
    (hc : c ∈ body) : c ∈ pattern ∨ c = '\\' := by
  fun_induction slashed? pattern generalizing body with
  | case1 =>
    obtain rfl := Option.some.inj h
    exact .inl hc
  | case2 => simp at h
  | case3 d rest ih =>
    simp only [Option.bind_eq_bind, Option.bind_eq_some_iff] at h
    obtain ⟨tail, htail, hbody⟩ := h
    obtain rfl := Option.some.inj hbody
    rcases List.mem_cons.1 hc with rfl | hc
    · exact .inr rfl
    · rcases List.mem_cons.1 hc with rfl | hc
      · simp
      · rcases ih htail hc with hmem | rfl
        · simp [hmem]
        · exact .inr rfl
  | case4 d rest hd hpair ih =>
    simp only [Option.bind_eq_bind, Option.bind_eq_some_iff] at h
    obtain ⟨tail, htail, hbody⟩ := h
    have hcases : c = '\\' ∨ c = d ∨ c ∈ tail := by
      split at hbody <;> obtain rfl := Option.some.inj hbody <;> simp at hc <;> tauto
    rcases hcases with rfl | rfl | hc
    · exact .inr rfl
    · simp
    · rcases ih htail hc with hmem | rfl
      · simp [hmem]
      · exact .inr rfl

/-- The body of a pattern comes from a pattern without line breaks. -/
theorem slashed?_of_patternBody {pattern body : Text} (h : patternBody pattern = .ok body) :
    slashed? pattern = some body := by
  unfold patternBody at h
  split at h
  next => simp at h
  next =>
    split at h
    next body' hslashed => rwa [← Except.ok.inj h]
    next => simp at h

/-- A pattern between slashes has no line break. -/
theorem not_mem_of_patternBody {pattern body : Text} (h : patternBody pattern = .ok body) {c : Char}
    (hc : Text.isLineBreak c) : c ∉ body := by
  intro hmem
  rcases mem_of_slashed? (slashed?_of_patternBody h) hmem with hmem | rfl
  · unfold patternBody at h
    simp only [Text.isLineBreak, Bool.or_eq_true, decide_eq_true_eq] at hc
    rcases hc with rfl | rfl <;> simp [hmem] at h
  · simp [Text.isLineBreak] at hc

end Schema

/-- A line break in an expression is one in its data. -/
theorem Expression.not_mem {data s : Text} {c : Char} (h : Expression data s)
    (hc : Text.isLineBreak c) (hdata : c ∉ data) : c ∉ s := by
  have hmark : c ∈ Text.marks := by
    simp only [Text.isLineBreak, Bool.or_eq_true, decide_eq_true_eq] at hc
    rcases hc with rfl | rfl <;> decide
  have hplain (s : Text) (hs : s.all Text.isPlain) : c ∉ s := by
    intro hmem
    have hp := List.all_eq_true.1 hs c hmem
    rw [Text.isPlain, Bool.not_eq_true', ← Bool.not_eq_true, List.contains_iff_mem] at hp
    exact hp hmark
  have hother (d : Char) (hd : Text.isLineBreak d = false) : c ≠ d := by
    rintro rfl
    simp [hc] at hd
  induction h with
  | data => exact hdata
  | plain s hs => exact hplain s hs
  | append hs ht ihs iht => simp [ihs, iht]
  | parens h ih => simp [ih, hother '(' rfl, hother ')' rfl]
  | brackets h ih => simp [ih, hother '[' rfl, hother ']' rfl]
  | braces h ih => simp [ih, hother '\x7b' rfl, hother '\x7d' rfl]
  | quoted s => exact Text.not_mem_quoted_of_isLineBreak hc s
  | word s hs => simp [hplain s hs, hother '\'' rfl]
  | pattern h => simp [Schema.not_mem_of_patternBody h hc, hother '/' rfl]

namespace SchemaType

variable {data : Text}

/-- The condition of a type is an expression over the data. -/
theorem expression_condition? {type : SchemaType} {condition noun : Text}
    (h : type.condition? data = some (condition, noun)) : Expression data condition := by
  have hplain : Expression data ("!ref" ++ ('(' :: data ++ [')'])) :=
    .append (.plain _ rfl) (.parens .data)
  have hkind (kind : Text) (hword : kind.all Text.isPlain) :
      Expression data ("ref" ++ ('(' :: data ++ [')']) ++ " eq " ++ ('\'' :: kind ++ ['\''])) :=
    .append (.append (.append (.plain _ rfl) (.parens .data)) (.plain _ rfl))
      (.word kind hword)
  have hpattern (body : Text) (hbody : Schema.patternBody body = .ok body) :
      Expression data ("!ref" ++ ('(' :: data ++ [')']) ++ " && " ++ data ++ " =~ " ++
        ('/' :: body ++ ['/'])) :=
    .append (.append (.append (.append hplain (.plain _ rfl)) .data)
      (.plain _ rfl)) (.pattern hbody)
  cases type with
  | any => simp [condition?] at h
  | bool =>
    obtain ⟨rfl, -⟩ : _ ∧ _ := by simpa [condition?] using h
    exact hplain
  | int =>
    obtain ⟨rfl, -⟩ : _ ∧ _ := by simpa [condition?] using h
    simpa using hpattern "\\A[+-]?[0-9]+\\z" rfl
  | float =>
    obtain ⟨rfl, -⟩ : _ ∧ _ := by simpa [condition?] using h
    simpa using hpattern "\\A[+-]?(?:[0-9]+(?:\\.[0-9]*)?|\\.[0-9]+)(?:[eE][+-]?[0-9]+)?\\z" rfl
  | str =>
    obtain ⟨rfl, -⟩ : _ ∧ _ := by simpa [condition?] using h
    exact hplain
  | array =>
    obtain ⟨rfl, -⟩ : _ ∧ _ := by simpa [condition?] using h
    simpa using hkind "ARRAY" rfl
  | hash =>
    obtain ⟨rfl, -⟩ : _ ∧ _ := by simpa [condition?] using h
    simpa using hkind "HASH" rfl
  | re =>
    obtain ⟨rfl, -⟩ : _ ∧ _ := by simpa [condition?] using h
    simpa using Expression.append (.append hplain (.plain " || " rfl))
      (hkind "Regexp" rfl)

/-- The operators that compare data with bounds are plain. -/
theorem isPlain_operator? {type : SchemaType} {bound : Bound} {operator : Text}
    (h : type.operator? bound = some operator) : operator.all Text.isPlain := by
  cases type <;> simp only [operator?, reduceCtorEq, Option.some.injEq] at h <;> subst h <;>
    cases bound <;> decide

/-- The operators that compare data with values are plain. -/
theorem isPlain_equality? {type : SchemaType} {equals : Text} (h : type.equality? = some equals) :
    equals.all Text.isPlain := by
  cases type <;> simp only [equality?, reduceCtorEq, Option.some.injEq] at h <;> subst h <;> decide

/-- The length of data is an expression over it. -/
theorem expression_length? {type : SchemaType} {length : Text}
    (h : type.length? data = some length) : Expression data length := by
  cases type with
  | str =>
    obtain rfl := Option.some.inj h
    have hcall : Expression data ("length" ++ ('(' :: data ++ [')'])) :=
      .append (.plain _ rfl) (.parens .data)
    exact hcall
  | array =>
    obtain rfl := Option.some.inj h
    have hcall : Expression data
        ("scalar" ++ ('(' :: ("@" ++ ('\x7b' :: data ++ ['\x7d'])) ++ [')'])) :=
      .append (.plain _ rfl) (.parens (.append (.plain _ rfl) (.braces .data)))
    simpa using hcall
  | hash =>
    obtain rfl := Option.some.inj h
    have hcall : Expression data
        ("scalar" ++ ('(' :: ("keys %" ++ ('\x7b' :: data ++ ['\x7d'])) ++ [')'])) :=
      .append (.plain _ rfl) (.parens (.append (.plain _ rfl) (.braces .data)))
    simpa using hcall
  | _ => simp [length?] at h

end SchemaType

/-- An expression over an expression is one over the data of that. -/
theorem Expression.trans {data inner s : Text} (h : Expression inner s)
    (hi : Expression data inner) : Expression data s := by
  induction h with
  | data => exact hi
  | plain s hs => exact .plain s hs
  | append _ _ ihs iht => exact .append ihs iht
  | parens _ ih => exact .parens ih
  | brackets _ ih => exact .brackets ih
  | braces _ ih => exact .braces ih
  | quoted s => exact .quoted s
  | word s hs => exact .word s hs
  | pattern h => exact .pattern h

/-- Expressions one behind the other are an expression. -/
theorem Expression.flatMap {α : Type} {data : Text} {items : List α} {f : α → Text}
    (h : ∀ item ∈ items, Expression data (f item)) : Expression data (items.flatMap f) := by
  induction items with
  | nil => exact .plain [] rfl
  | cons item rest ih =>
    rw [List.flatMap_cons]
    exact .append (h item List.mem_cons_self) (ih fun i hi => h i (List.mem_cons_of_mem _ hi))

/-- Expressions with plain characters between them are an expression. -/
theorem Expression.joined {data separator : Text} (hs : separator.all Text.isPlain)
    {parts : List Text} (h : ∀ part ∈ parts, Expression data part) :
    Expression data (Text.joined separator parts) := by
  unfold Text.joined
  induction parts with
  | nil => exact .plain [] rfl
  | cons part rest ih =>
    have hpart := h part List.mem_cons_self
    cases rest with
    | nil => simpa using hpart
    | cons next rest =>
      have hrest := ih fun p hp => h p (List.mem_cons_of_mem _ hp)
      rw [List.intercalate_cons_cons]
      exact .append (.append hpart (.plain separator hs)) hrest

/-- A text counts as true unless it is empty or a single zero. -/
def Text.isTrue (s : Text) : Bool := s ≠ [] && s ≠ ['0']

/-- Two characters or more count as true. -/
theorem Text.isTrue_cons_cons (c d : Char) (rest : Text) : isTrue (c :: d :: rest) := by
  simp [isTrue]

/-- What the code for a check over some data relies on. -/
structure Check.Fits (data : Text) (check : Check) : Prop where
  /-- The comment about it is a line. -/
  comment : Text.IsLine ("# check " ++ check.what)
  /-- The condition is an expression over the data. -/
  expression : Expression data check.failure
  /-- The message counts as true. -/
  isTrue : check.message.isTrue

namespace Schema

variable {type : SchemaType} {clause data : Text} {value : Json.Value}

/-- A literal is an expression over any data. -/
theorem expression_literal {t : Text} (h : literal type clause value = .ok t) :
    Expression data t := by
  unfold literal at h
  split at h
  next n =>
    split at h
    next =>
      obtain rfl := Except.ok.inj h
      exact .plain _ (Text.isPlain_of_isNumeral n.isNumeral_text)
    next => simp at h
  next s =>
    split at h
    next =>
      obtain rfl := Except.ok.inj h
      exact .quoted s
    next => simp at h
  next => simp at h

/-- Literals of a list are expressions over any data. -/
theorem expression_literals {values : List Json.Value} {ts : List Text}
    (h : literals type clause values = .ok ts) : ∀ t ∈ ts, Expression data t := by
  induction values generalizing ts with
  | nil =>
    obtain rfl := Except.ok.inj h
    simp
  | cons value rest ih =>
    simp only [literals, bind_eq_ok_iff, pure_eq_ok_iff] at h
    obtain ⟨first, hfirst, others, hothers, rfl⟩ := h
    intro t ht
    rcases List.mem_cons.1 ht with rfl | ht
    · exact expression_literal hfirst
    · exact ih hothers t ht

/-- A failure in parentheses behind a negation is an expression if what is negated is one. -/
theorem expression_not {s : Text} (h : Expression data s) :
    Expression data ("!" ++ ('(' :: s ++ [')'])) :=
  .append (.plain _ rfl) (.parens h)

/-- The comparison of data with a limit is an expression. -/
theorem expression_comparison {operator limit : Text} (ho : operator.all Text.isPlain)
    (hl : Expression data limit) : Expression data (data ++ " " ++ operator ++ " " ++ limit) :=
  .append (.append (.append (.append .data (.plain _ rfl)) (.plain _ ho))
    (.plain _ rfl)) hl

/-- The search for data in a list is an expression. -/
theorem expression_grep {equals allowed : Text} (he : equals.all Text.isPlain)
    (ha : Expression data allowed) :
    Expression data ("grep " ++ ('\x7b' :: (" $_ " ++ equals ++ " " ++ data ++ " ") ++ ['\x7d']) ++
      " " ++ ('(' :: allowed ++ [')'])) :=
  .append (.append (.append (.plain _ rfl) (.braces (.append (.append (.append (.append
    (.plain _ rfl) (.plain _ he)) (.plain _ rfl)) .data) (.plain _ rfl))))
    (.plain _ rfl)) (.parens ha)

/-- The failure of a clause is an expression over the data, and its message counts as true. -/
theorem ClauseForm.expression {failure message : Text}
    (h : ClauseForm type clause data value failure message) :
    Expression data failure ∧ message.isTrue := by
  cases h with
  | @bound bound value operator limit ho hl =>
    have hcompared : Expression data (data ++ " " ++ operator ++ " " ++ limit) :=
      expression_comparison (SchemaType.isPlain_operator? ho) (expression_literal hl)
    exact ⟨by simpa using expression_not hcompared, Text.isTrue_cons_cons ..⟩
  | @between low high atLeast atMost lowest highest hmin hmax hlow hhigh =>
    have hlower : Expression data (data ++ " " ++ atLeast ++ " " ++ lowest) :=
      expression_comparison (SchemaType.isPlain_operator? hmin) (expression_literal hlow)
    have hupper : Expression data (data ++ " " ++ atMost ++ " " ++ highest) :=
      expression_comparison (SchemaType.isPlain_operator? hmax) (expression_literal hhigh)
    have hboth := Expression.append (.append hlower (.plain " && " rfl)) hupper
    exact ⟨by simpa using expression_not hboth, Text.isTrue_cons_cons ..⟩
  | @length test length n hl =>
    have hoperator : test.operator.all Text.isPlain := by cases test <;> decide
    have hcompared : Expression data (length ++ " " ++ test.operator ++ " " ++ Text.ofNat n) :=
      .append (.append (.append (.append (SchemaType.expression_length? hl) (.plain _ rfl))
        (.plain _ hoperator)) (.plain _ rfl))
        (.plain _ (Text.isPlain_of_isNumeral (Text.isNumeral_ofNat n)))
    refine ⟨by simpa using expression_not hcompared, ?_⟩
    cases test <;> exact Text.isTrue_cons_cons ..
  | @oneOf items equals allowed he ha =>
    have hjoined : Expression data (Text.joined ", " allowed) :=
      .joined (by decide) (expression_literals ha)
    have hfound := expression_grep (SchemaType.isPlain_equality? he) hjoined
    exact ⟨by simpa using expression_not hfound, Text.isTrue_cons_cons ..⟩
  | @matching pattern body hb =>
    have hmatch : Expression data (data ++ " =~ " ++ ('/' :: body ++ ['/'])) :=
      .append (.append .data (.plain _ rfl)) (.pattern hb)
    exact ⟨by simpa using expression_not hmatch, Text.isTrue_cons_cons ..⟩

/-- The name of a clause stays on its line. -/
theorem not_mem_of_clauseFailure {result : Text × Text}
    (h : clauseFailure type clause value data = .ok result) : '\n' ∉ clause := by
  have hnames : ∀ entry ∈ Clause.byName, '\n' ∉ entry.1 := by decide
  unfold clauseFailure at h
  cases hk : Clause.ofName? clause with
  | none => simp [hk] at h
  | some kind =>
    obtain ⟨before, after, hsplit, -⟩ := List.lookup_eq_some_iff.1 hk
    exact hnames (clause, kind) (by simp [hsplit])

/-- The check of a clause fits its data. -/
theorem fits_of_clauseCheck {entry : Text × Json.Value} {check : Check}
    (h : clauseCheck type data entry = .ok check) : check.Fits data := by
  obtain ⟨failure, message, hfailure, rfl⟩ := clauseCheck_eq_ok_iff.1 h
  obtain ⟨hexpression, htrue⟩ := (ClauseForm.of_clauseFailure hfailure).expression
  have hname := not_mem_of_clauseFailure hfailure
  have hcomment : Text.IsLine ("# check clause '" ++ entry.1 ++ "'") :=
    Text.isLine_append (by simp [hname]) (by decide) (by decide)
  exact ⟨hcomment, hexpression, htrue⟩

/-- The check that data is defined fits it. -/
theorem fits_definedCheck (data : Text) : (definedCheck data).Fits data where
  comment := by
    change Text.IsLine "# check required"
    decide
  expression := by
    have hcall : Expression data ("!defined" ++ ('(' :: data ++ [')'])) :=
      .append (.plain _ rfl) (.parens .data)
    exact hcall
  isTrue := rfl

/-- The check of a type fits its data. -/
theorem fits_of_typeCheck? {check : Check} (h : typeCheck? type data = some check) :
    check.Fits data := by
  obtain ⟨⟨condition, noun⟩, hcondition, rfl⟩ := Option.map_eq_some_iff.1 h
  refine ⟨?_, ?_, Text.isTrue_cons_cons ..⟩
  · change Text.IsLine ("# check type '" ++ type.name ++ "'")
    cases type <;> decide
  · simpa using expression_not (SchemaType.expression_condition? hcondition)

/-- All checks of a schema fit their data. -/
theorem fits_of_checks {schema : Schema} {checks : List Check}
    (h : schema.checks data = .ok checks) : ∀ check ∈ checks, check.Fits data := by
  intro check hcheck
  obtain rfl | htype | ⟨entry, hclause⟩ := cases_of_mem_checks h hcheck
  · exact fits_definedCheck data
  · exact fits_of_typeCheck? htype
  · exact fits_of_clauseCheck hclause

end Schema

end ArgGuard
