import ArgGuard.Proofs.Program

/-!
# Guards read as code

Code is read from left to right: strings and patterns are skipped, and brackets are kept until
they are closed. A closed text is read from code to code with the same brackets open. The
conditions, messages and terms in a guard are closed whatever names and schemas they come from, so
a guard ends outside of every literal with all its brackets closed, and starts no comment.
-/

namespace ArgGuard

namespace Reader

/-- Where a reader stands. -/
inductive Place where
  /-- In code. -/
  | code
  /-- In a double-quoted string. -/
  | double
  /-- Behind a backslash in a double-quoted string. -/
  | doubleEscape
  /-- In a single-quoted string. -/
  | single
  /-- In a pattern. -/
  | pattern
  /-- Behind a backslash in a pattern. -/
  | patternEscape
  deriving DecidableEq, Repr

end Reader

/-- A reader of code. -/
structure Reader where
  /-- Where it stands. -/
  place : Reader.Place := .code
  /-- The brackets that must close what is open, the innermost first. -/
  closers : List Char := []
  deriving DecidableEq, Repr

namespace Reader

/-- The bracket that closes what another one opens. -/
def closer? (c : Char) : Option Char :=
  if c = '(' then some ')'
  else if c = '[' then some ']'
  else if c = '\x7b' then some '\x7d'
  else none

/-- Read a character in code. A comment, and a bracket that closes what is not open, are not
read. -/
def stepCode (closers : List Char) (c : Char) : Option Reader :=
  if c = '#' then none
  else if c = '"' then some ⟨.double, closers⟩
  else if c = '\'' then some ⟨.single, closers⟩
  else if c = '/' then some ⟨.pattern, closers⟩
  else if c = ')' ∨ c = ']' ∨ c = '\x7d' then
    match closers with
    | closer :: outer => if c = closer then some ⟨.code, outer⟩ else none
    | [] => none
  else
    match closer? c with
    | some closer => some ⟨.code, closer :: closers⟩
    | none => some ⟨.code, closers⟩

/-- Read a character. A sigil that starts an interpolation is not read in a string. -/
def step (r : Reader) (c : Char) : Option Reader :=
  match r.place with
  | .code => stepCode r.closers c
  | .double =>
    if c = '"' then some ⟨.code, r.closers⟩
    else if c = '\\' then some ⟨.doubleEscape, r.closers⟩
    else if c = '$' ∨ c = '@' then none
    else some r
  | .doubleEscape => some ⟨.double, r.closers⟩
  | .single => if c = '\'' then some ⟨.code, r.closers⟩ else some r
  | .pattern =>
    if c = '/' then some ⟨.code, r.closers⟩
    else if c = '\\' then some ⟨.patternEscape, r.closers⟩
    else some r
  | .patternEscape => some ⟨.pattern, r.closers⟩

/-- Read a text. -/
def read (r : Reader) : Text → Option Reader
  | [] => some r
  | c :: rest => (r.step c).bind fun next => next.read rest

/-- A text is read part by part. -/
theorem read_append (r : Reader) (s t : Text) :
    r.read (s ++ t) = (r.read s).bind fun next => next.read t := by
  induction s generalizing r with
  | nil => rfl
  | cons c rest ih =>
    rw [List.cons_append, read, read, Option.bind_assoc]
    simp only [ih]

/-- A text behind one that is read. -/
theorem read_append_of {r next : Reader} {s : Text} (h : r.read s = some next) (t : Text) :
    r.read (s ++ t) = next.read t := by
  rw [read_append, h, Option.bind_some]

/-- A text behind a character that is read. -/
theorem read_cons_of {r next : Reader} {c : Char} (h : r.step c = some next) (t : Text) :
    r.read (c :: t) = next.read t := by
  rw [read, h, Option.bind_some]

/-- A text that leaves a reader in code as it is. -/
def Closed (s : Text) : Prop := ∀ closers, read ⟨.code, closers⟩ s = some ⟨.code, closers⟩

variable {s t : Text}

/-- Closed texts one behind the other are closed. -/
theorem Closed.append (hs : Closed s) (ht : Closed t) : Closed (s ++ t) := by
  intro closers
  rw [read_append_of (hs closers), ht closers]

/-- Nothing is closed. -/
theorem closed_nil : Closed [] := fun _ => rfl

/-- A plain character differs from every mark. -/
theorem ne_of_isPlain {c mark : Char} (hc : Text.isPlain c) (hm : Text.isPlain mark = false) :
    c ≠ mark := by
  rintro rfl
  simp [hc] at hm

/-- A reader in code does not react to a plain character. -/
theorem step_code_of_isPlain {c : Char} (hc : Text.isPlain c) (closers : List Char) :
    step ⟨.code, closers⟩ c = some ⟨.code, closers⟩ := by
  have hclose : ¬ (c = ')' ∨ c = ']' ∨ c = '\x7d') := by
    rintro (h | h | h)
    · exact ne_of_isPlain hc rfl h
    · exact ne_of_isPlain hc rfl h
    · exact ne_of_isPlain hc rfl h
  have hopen : closer? c = none := by
    rw [closer?, if_neg (ne_of_isPlain hc rfl), if_neg (ne_of_isPlain hc rfl),
      if_neg (ne_of_isPlain hc rfl)]
  change stepCode closers c = _
  unfold stepCode
  rw [if_neg (ne_of_isPlain hc rfl), if_neg (ne_of_isPlain hc rfl),
    if_neg (ne_of_isPlain hc rfl), if_neg (ne_of_isPlain hc rfl), if_neg hclose, hopen]

/-- Plain characters are closed. -/
theorem closed_plain (h : s.all Text.isPlain) : Closed s := by
  intro closers
  induction s with
  | nil => rfl
  | cons c rest ih =>
    simp only [List.all_cons, Bool.and_eq_true] at h
    rw [read_cons_of (step_code_of_isPlain h.1 closers), ih h.2]

/-- A closed text in brackets is closed. -/
theorem Closed.enclosed (hs : Closed s) {opening closing : Char}
    (hopen : ∀ closers, step ⟨.code, closers⟩ opening = some ⟨.code, closing :: closers⟩)
    (hclose : ∀ closers, step ⟨.code, closing :: closers⟩ closing = some ⟨.code, closers⟩) :
    Closed (opening :: s ++ [closing]) := by
  intro closers
  rw [List.cons_append, read_cons_of (hopen closers), read_append_of (hs _),
    read_cons_of (hclose closers), read]

/-- A text in quotes of some kind is closed if it stays between them. -/
theorem closed_between {place : Place} {mark : Char}
    (hopen : ∀ closers, step ⟨.code, closers⟩ mark = some ⟨place, closers⟩)
    (hclose : ∀ closers, step ⟨place, closers⟩ mark = some ⟨.code, closers⟩)
    (hs : ∀ closers, read ⟨place, closers⟩ s = some ⟨place, closers⟩) :
    Closed (mark :: s ++ [mark]) := by
  intro closers
  rw [List.cons_append, read_cons_of (hopen closers), read_append_of (hs closers),
    read_cons_of (hclose closers), read]

/-- A character in quotes stays in the string. -/
theorem read_quotedChar (c : Char) (closers : List Char) :
    read ⟨.double, closers⟩ (Text.quotedChar c) = some ⟨.double, closers⟩ := by
  unfold Text.quotedChar
  split
  next => rfl
  next hspecial =>
    split
    next => rfl
    next =>
      split
      next => rfl
      next =>
        split
        next => rfl
        next =>
          simp only [not_or] at hspecial
          obtain ⟨hquote, hslash, hscalar, harray⟩ := hspecial
          simp [read, step, hquote, hslash, hscalar, harray]

/-- A text in quotes stays in the string. -/
theorem read_flatMap_quotedChar (s : Text) (closers : List Char) :
    read ⟨.double, closers⟩ (s.flatMap Text.quotedChar) = some ⟨.double, closers⟩ := by
  induction s with
  | nil => rfl
  | cons c rest ih => rw [List.flatMap_cons, read_append_of (read_quotedChar c closers), ih]

/-- Plain characters stay in a word. -/
theorem read_single_of_isPlain (h : s.all Text.isPlain) (closers : List Char) :
    read ⟨.single, closers⟩ s = some ⟨.single, closers⟩ := by
  induction s with
  | nil => rfl
  | cons c rest ih =>
    simp only [List.all_cons, Bool.and_eq_true] at h
    have hstep : step ⟨.single, closers⟩ c = some ⟨.single, closers⟩ :=
      if_neg (ne_of_isPlain h.1 rfl)
    rw [read_cons_of hstep, ih h.2]

/-- The body of a pattern stays in the pattern. -/
theorem read_slashed? {pattern body : Text} (h : Schema.slashed? pattern = some body)
    (closers : List Char) : read ⟨.pattern, closers⟩ body = some ⟨.pattern, closers⟩ := by
  fun_induction Schema.slashed? pattern generalizing body with
  | case1 =>
    obtain rfl := Option.some.inj h
    rfl
  | case2 => simp at h
  | case3 c rest ih =>
    simp only [Option.bind_eq_bind, Option.bind_eq_some_iff] at h
    obtain ⟨tail, htail, hbody⟩ := h
    obtain rfl := Option.some.inj hbody
    have hread := ih htail
    exact hread
  | case4 c rest hlone hpair ih =>
    simp only [Option.bind_eq_bind, Option.bind_eq_some_iff] at h
    obtain ⟨tail, htail, hbody⟩ := h
    have hread := ih htail
    split at hbody
    next =>
      obtain rfl := Option.some.inj hbody
      exact hread
    next hplain =>
      obtain rfl := Option.some.inj hbody
      have hslash : c ≠ '/' := fun hc => hplain (.inl hc)
      have hback : c ≠ '\\' := by
        intro hc
        cases rest with
        | nil => exact hlone hc rfl
        | cons d rest => exact hpair d rest hc rfl
      have hstep : step ⟨.pattern, closers⟩ c = some ⟨.pattern, closers⟩ :=
        (if_neg hslash).trans (if_neg hback)
      rw [read_cons_of hstep, hread]

/-- An expression over closed data is closed. -/
theorem closed_of_expression {data : Text} (h : Expression data s) (hd : Closed data) :
    Closed s := by
  induction h with
  | data => exact hd
  | plain s hs => exact closed_plain hs
  | append _ _ ihs iht => exact ihs.append iht
  | parens _ ih => exact ih.enclosed (fun _ => rfl) fun _ => rfl
  | brackets _ ih => exact ih.enclosed (fun _ => rfl) fun _ => rfl
  | braces _ ih => exact ih.enclosed (fun _ => rfl) fun _ => rfl
  | quoted s => exact closed_between (fun _ => rfl) (fun _ => rfl) (read_flatMap_quotedChar s)
  | word s hs => exact closed_between (fun _ => rfl) (fun _ => rfl) (read_single_of_isPlain hs)
  | pattern h =>
    exact closed_between (fun _ => rfl) (fun _ => rfl)
      (read_slashed? (Schema.slashed?_of_patternBody h))

end Reader

namespace Guard

variable {exit : Exit} {data : Text} {t : Target}

/-- Code under a condition is an expression if both are. -/
theorem expression_if {condition code : Text} (hc : Expression data condition)
    (hb : Expression data code) :
    Expression data ("if " ++ ('(' :: condition ++ [')']) ++ " " ++
      ('\x7b' :: (" " ++ code ++ " ") ++ ['\x7d'])) :=
  .append (.append (.append (.plain _ rfl) (.parens hc)) (.plain _ rfl))
    (.braces (.append (.append (.plain _ rfl) hb) (.plain _ rfl)))

/-- A check that leaves the function is an expression if its condition and its message are. -/
theorem expression_leaveIf {condition message : Text} (hc : Expression data condition)
    (hm : Expression data message) :
    Expression data ((Statement.leaveIf condition message).text exit) := by
  have hleave : Expression data (exit.leave message) := by
    cases exit with
    | raise => exact .append (.append (.plain _ rfl) hm) (.plain _ rfl)
    | status =>
      have hstatus : Expression data (Text.ofNat failureStatus) :=
        .plain _ (Text.isPlain_of_isNumeral (Text.isNumeral_ofNat _))
      have hpair : Expression data (Text.ofNat failureStatus ++ ", " ++ message) :=
        .append (.append hstatus (.plain _ rfl)) hm
      have hreturn := Expression.append (.append (.plain "return " rfl) (.brackets hpair))
        (.plain ";" rfl)
      unfold Exit.leave
      simpa using hreturn
  rw [text_leaveIf]
  simpa using expression_if hc hleave

/-- A branch of a chain is an expression if its condition is. -/
theorem expression_branch {keyword : Text} (hk : keyword.all Text.isPlain) {check : Check}
    (hc : Expression data check.failure) :
    Expression data (Schema.branch errorHolder keyword check) := by
  have hassign : Expression data
      (" " ++ errorHolder ++ " = " ++ Text.quoted check.message ++ "; ") :=
    .append (.append (.plain _ rfl) (.quoted check.message)) (.plain _ rfl)
  have hbranch := Expression.append (.append (.append (.append (.plain keyword hk) (.plain " " rfl))
    (.parens hc)) (.plain " " rfl)) (.braces hassign)
  simpa [Schema.branch] using hbranch

/-- A chain of checks is an expression if their conditions are. -/
theorem expression_chain {checks : List Check}
    (hc : ∀ check ∈ checks, Expression data check.failure) :
    Expression data (Schema.chain errorHolder checks) := by
  cases checks with
  | nil => exact .plain [] rfl
  | cons first others =>
    refine .joined rfl (List.forall_mem_cons.2 ⟨?_, fun branch hbranch => ?_⟩)
    · exact expression_branch rfl (hc first List.mem_cons_self)
    · obtain ⟨check, hcheck, rfl⟩ := List.mem_map.1 hbranch
      exact expression_branch rfl (hc check (List.mem_cons_of_mem _ hcheck))

/-- Code that is run when the data is defined is an expression if the code is. -/
theorem expression_guarded {code : Text} (hc : Expression data code) :
    Expression data (Schema.guarded data code) := by
  have hdefined : Expression data ("defined" ++ ('(' :: data ++ [')'])) :=
    .append (.plain _ rfl) (.parens .data)
  unfold Schema.guarded
  simpa using expression_if hdefined hc

/-- The commands for an argument are expressions over its value. -/
theorem expression_commands (hm : Expression t.data t.missing) :
    ∀ command ∈ t.commands, Expression t.data (command.statement.text exit) := by
  intro command hcommand
  have hholder : Expression t.data errorHolder := .plain _ rfl
  obtain rfl | ⟨schema, first, others, hfound, hkind⟩ := Target.cases_of_mem_commands hcommand
  · exact expression_leaveIf hm (.quoted _)
  · have hchain : Expression t.data (Schema.chain errorHolder (first :: others)) :=
      expression_chain fun check hcheck => (t.fits_of_schemaChecks hfound check hcheck).expression
    have hmessage : Expression t.data (Text.quoted t.lead ++ " . " ++ errorHolder) :=
      .append (.append (.quoted t.lead) (.plain _ rfl)) hholder
    rcases hkind with rfl | rfl | rfl
    · exact hchain
    · exact expression_guarded hchain
    · exact expression_leaveIf hholder hmessage

/-- The guard of a tag is an expression over nothing else. -/
theorem expression_of_forTag {function : Text} {m : FunctionMetadata} {tag : Tag} {declared : Bool}
    {g : Guard} (h : forTag Schema.compile function m tag declared = .ok g)
    (hname : Identifier.isBareword tag.name) : Expression [] g.code := by
  obtain ⟨ts, own, hts, hown, rfl⟩ := forTag_eq_ok_iff.1 h
  have hterms := expression_of_targets hname hts
  obtain ⟨-, rfl⟩ := checks_compile
    (fun t ht => (hterms t ht).1.not_mem rfl List.not_mem_nil) hown
  have hown : ∀ statement ∈ (ts.flatMap Target.commands).map Command.statement,
      Expression [] (statement.text (.ofMetadata m)) := by
    intro statement hstatement
    obtain ⟨command, hcommand, rfl⟩ := List.mem_map.1 hstatement
    obtain ⟨t, ht, hcommand⟩ := List.mem_flatMap.1 hcommand
    exact (expression_commands (hterms t ht).2 command hcommand).trans (hterms t ht).1
  refine .flatMap fun statement hstatement => .append ?_ (.plain _ rfl)
  unfold opened at hstatement
  split at hstatement
  next => exact hown statement hstatement
  next =>
    rcases List.mem_cons.1 hstatement with rfl | hstatement
    · exact .plain _ rfl
    · exact hown statement hstatement

/-- Whatever names and schemas the metadata of a function holds, the guard for a tag of a line stays
on that line and is read from code to code: it ends outside of every literal, its brackets are
nested and closed, no `#` stands outside of a literal, and no sigil in a double-quoted string is
left without a backslash. -/
theorem self_contained {line : Text} {tag : Tag} (ht : Tag.ofLine? line = some tag)
    (function : Text) (m : FunctionMetadata) (declared : Bool) (g : Guard)
    (hg : single Schema.compile function m tag declared = .ok g ∨
      all Schema.compile function m tag declared = .ok g) :
    '\n' ∉ g.code ∧ '\r' ∉ g.code ∧ Reader.read {} g.code = some {} := by
  have hname := (Tag.declaration?_eq_some (Tag.ofLine?_eq_some ht).2.1).2.2
  have hcode : Expression [] g.code := by
    rcases hg with hg | hg
    · rw [← forTag_single] at hg
      exact expression_of_forTag hg hname
    · rw [← forTag_all] at hg
      exact expression_of_forTag hg hname
  exact ⟨hcode.not_mem rfl List.not_mem_nil, hcode.not_mem rfl List.not_mem_nil,
    Reader.closed_of_expression hcode Reader.closed_nil []⟩

/-- A function whose texts hold quotes, sigils, brackets, comment signs and a line break. -/
def quirkyFunction : FunctionMetadata where
  version := FunctionMetadata.supportedVersion
  args := [("it's \"x\"]\n# $y", {
    schema := some (.array [.string "str",
      .object [("in", .array [.string "\"; # @z", .string ")\\"]), ("match", .string "[\"/#(@]$")]])
    required := true })]

/-- The guard of the sample is read from code to code on one line. -/
theorem self_contained_quirkyFunction :
    ∃ g, Tag.ofLine? countedLine = some countedTag ∧
      all Schema.compile "up" quirkyFunction countedTag false = .ok g ∧ g.code ≠ [] ∧
      '\n' ∉ g.code ∧ '\r' ∉ g.code ∧ Reader.read {} g.code = some {} := by
  have ht : Tag.ofLine? countedLine = some countedTag := by decide +kernel
  have hcode : ((all Schema.compile "up" quirkyFunction countedTag false).toOption.map
      fun g => g.code.isEmpty) = some false := by decide +kernel
  obtain ⟨g, hg, hempty⟩ := exists_eq_ok_of_map_toOption hcode
  have hne : g.code ≠ [] := by simpa using hempty
  exact ⟨g, ht, hg, hne, self_contained ht "up" quirkyFunction false g (.inr hg)⟩

end Guard

end ArgGuard
