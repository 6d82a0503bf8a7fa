import ArgGuard.Proofs.Expression
import ArgGuard.Text.Squash

/-!
# Compiled schemas on one line

The code of a schema is squashed before it goes into a guard. Squashing takes the comments away
and leaves the checks, each as one branch of a chain, inside a test that the data is defined
where it need not be. Without any checks nothing is left.
-/

namespace ArgGuard

namespace Text

/-- Of lines those that count, without their indentation. -/
def codeParts (ls : List Text) : List Text := (ls.map (·.dropWhile isSpace)).filter isCode

/-- What counts among lines and further ones. -/
@[simp] theorem codeParts_append (first others : List Text) :
    codeParts (first ++ others) = codeParts first ++ codeParts others := by
  simp [codeParts]

/-- Indentation does not count. -/
theorem codeParts_indented (ls : List Text) :
    codeParts (ls.map fun l => ("    " : Text) ++ l) = codeParts ls := by
  rw [codeParts, List.map_map]
  rfl

/-- A line that starts with code counts as it is. -/
theorem codeParts_of_starts {c : Char} (hspace : isSpace c = false) (hhash : c ≠ '#')
    (rest : Text) : codeParts [c :: rest] = [c :: rest] := by
  simp [codeParts, isCode, hspace, hhash]

/-- Squashing code that is given by its lines. -/
theorem squash_flatMap {ls : List Text} (h : ∀ l ∈ ls, IsLine l) :
    squash (ls.flatMap (· ++ ['\n'])) = joined " " (codeParts ls) := by
  have hlines := areLines_of_isLine h
  have htext : ls.flatMap (· ++ ['\n']) =
      (ls.map fun l => (⟨l, .lineFeed⟩ : Line)).flatMap Line.text := by
    rw [List.flatMap_map]
    rfl
  rw [squash, codeLines, htext, hlines.lines_flatMap_text, List.map_map]
  rfl

/-- No digit of a number is a line feed. -/
theorem not_mem_toDigits {base : Nat} (hb : 1 < base) (n : Nat) : '\n' ∉ Nat.toDigits base n := by
  have hdigit (d : Nat) : '\n' ≠ Nat.digitChar d := by grind [Nat.digitChar]
  induction n using Nat.strongRecOn with
  | ind n ih =>
    rw [Nat.toDigits_eq_if hb]
    split
    next => simp [hdigit]
    next hlarge =>
      have hless : n / base < n := Nat.div_lt_self (by omega) hb
      simp [hdigit, ih (n / base) hless]

/-- A character in a comment stays on its line. -/
theorem not_mem_escapedChar (e : Escaping) (c : Char) : '\n' ∉ escapedChar e c := by
  have hnumbered : '\n' ∉ numbered c := by simp [numbered, not_mem_toDigits]
  unfold escapedChar
  split
  next => decide
  next =>
    split
    next => decide
    next =>
      split
      next => decide
      next hn =>
        have hsame : '\n' ≠ c := Ne.symm hn
        repeat' split
        all_goals simp [hnumbered, hsame]

/-- A name in a comment stays on its line. -/
theorem not_mem_escaped (s : Text) : '\n' ∉ escaped s := by
  cases s with
  | nil => simp [escaped]
  | cons c rest => simp [escaped, not_mem_escapedChar]

end Text

namespace Schema

/-- A check as a branch behind a keyword. -/
def branch (errTerm keyword : Text) (check : Check) : Text :=
  keyword ++ " (" ++ check.failure ++ ") \x7b " ++ errTerm ++ " = " ++ Text.quoted check.message ++
    "; \x7d"

/-- Checks on one line until one fails. -/
def chain (errTerm : Text) : List Check → Text
  | [] => []
  | first :: others =>
    Text.joined " " (branch errTerm "if" first :: others.map (branch errTerm "elsif"))

/-- Code on one line that is run only when the data is defined. -/
def guarded (data code : Text) : Text := "if (defined(" ++ data ++ ")) \x7b " ++ code ++ " \x7d"

/-- An error variable that is no indentation and starts no comment. -/
structure IsErrTerm (errTerm : Text) : Prop where
  /-- It stays on its line. -/
  one_line : '\n' ∉ errTerm
  /-- It starts with code. -/
  starts : ∃ c rest, errTerm = c :: rest ∧ Text.isSpace c = false ∧ c ≠ '#'

/-- The lines of a check that count. -/
def branchParts (errTerm keyword : Text) (check : Check) : List Text :=
  [keyword ++ " (" ++ check.failure ++ ") \x7b",
   errTerm ++ " = " ++ Text.quoted check.message ++ ";",
   "\x7d"]

variable {errTerm keyword data : Text} {check : Check} {checks : List Check}

/-- The lines of a check that count make its branch. -/
theorem joined_branchParts :
    Text.joined " " (branchParts errTerm keyword check) = branch errTerm keyword check := by
  simp [branchParts, branch, Text.joined, List.intercalate_cons_cons]

/-- The comment about a check does not count. -/
theorem codeParts_checkLines (he : IsErrTerm errTerm) (hk : keyword = "if" ∨ keyword = "elsif") :
    Text.codeParts (checkLines errTerm keyword check) = branchParts errTerm keyword check := by
  have hcomment : Text.codeParts ["# check " ++ check.what] = [] := rfl
  have htest : Text.codeParts [keyword ++ " (" ++ check.failure ++ ") \x7b"] =
      [keyword ++ " (" ++ check.failure ++ ") \x7b"] := by
    rcases hk with rfl | rfl <;> rfl
  have hassign : Text.codeParts ["    " ++ errTerm ++ " = " ++ Text.quoted check.message ++ ";"] =
      [errTerm ++ " = " ++ Text.quoted check.message ++ ";"] := by
    obtain ⟨c, rest, rfl, hspace, hhash⟩ := he.starts
    exact (Text.codeParts_indented [_]).trans (Text.codeParts_of_starts hspace hhash _)
  have hclose : Text.codeParts [['\x7d']] = [['\x7d']] := rfl
  have hsplit : checkLines errTerm keyword check =
      ["# check " ++ check.what] ++ [keyword ++ " (" ++ check.failure ++ ") \x7b"] ++
        ["    " ++ errTerm ++ " = " ++ Text.quoted check.message ++ ";"] ++ [['\x7d']] := rfl
  rw [hsplit, Text.codeParts_append, Text.codeParts_append, Text.codeParts_append, hcomment, htest,
    hassign, hclose]
  rfl

/-- The lines of checks that count. -/
theorem codeParts_chainLines (he : IsErrTerm errTerm) (first : Check) (others : List Check) :
    Text.codeParts (chainLines errTerm (first :: others)) =
      branchParts errTerm "if" first ++ others.flatMap (branchParts errTerm "elsif") := by
  have hothers : Text.codeParts (others.flatMap (checkLines errTerm "elsif")) =
      others.flatMap (branchParts errTerm "elsif") := by
    induction others with
    | nil => rfl
    | cons check rest ih =>
      rw [List.flatMap_cons, Text.codeParts_append, codeParts_checkLines he (.inr rfl), ih,
        List.flatMap_cons]
  rw [chainLines, Text.codeParts_append, codeParts_checkLines he (.inl rfl), hothers]

/-- The lines of checks that count make their chain. -/
theorem joined_codeParts_chainLines (he : IsErrTerm errTerm) (checks : List Check) :
    Text.joined " " (Text.codeParts (chainLines errTerm checks)) = chain errTerm checks := by
  have hne (keyword : Text) (check : Check) : branchParts errTerm keyword check ≠ [] := by
    simp [branchParts]
  cases checks with
  | nil => rfl
  | cons first others =>
    rw [codeParts_chainLines he, chain]
    cases others with
    | nil =>
      rw [List.flatMap_nil, List.append_nil, joined_branchParts, List.map_nil,
        Text.joined_singleton]
    | cons next rest =>
      have hmore : (next :: rest).flatMap (branchParts errTerm "elsif") ≠ [] := by
        simp [branchParts]
      rw [Text.joined_append " " (hne _ first) hmore, joined_branchParts,
        Text.joined_flatMap " " _ (hne _)]
      simp only [joined_branchParts]
      rw [Text.joined, Text.joined, List.intercalate_cons_of_ne_nil (by simp)]

/-- No line of a check breaks. -/
theorem isLine_of_mem_checkLines (he : IsErrTerm errTerm) (hk : '\n' ∉ keyword)
    (hd : '\n' ∉ data) (hc : check.Fits data) {l : Text}
    (hl : l ∈ checkLines errTerm keyword check) : Text.IsLine l := by
  have hfailure : '\n' ∉ check.failure := hc.expression.not_mem (by decide) hd
  have hmessage := Text.not_mem_quoted check.message
  have herr := he.one_line
  simp only [checkLines, List.mem_cons, List.not_mem_nil, or_false] at hl
  rcases hl with rfl | rfl | rfl | rfl
  · exact hc.comment
  · exact Text.isLine_append (by simp [hk, hfailure]) (by decide) (by decide)
  · exact Text.isLine_append (by simp [herr, hmessage]) (by decide) (by decide)
  · decide

/-- No line of a chain breaks. -/
theorem isLine_of_mem_chainLines (he : IsErrTerm errTerm) (hd : '\n' ∉ data)
    (hc : ∀ check ∈ checks, check.Fits data) :
    ∀ l ∈ chainLines errTerm checks, Text.IsLine l := by
  intro l hl
  cases checks with
  | nil => simp [chainLines] at hl
  | cons first others =>
    rcases List.mem_append.1 hl with hl | hl
    · exact isLine_of_mem_checkLines he (by decide) hd (hc first List.mem_cons_self) hl
    · obtain ⟨check, hcheck, hl⟩ := List.mem_flatMap.1 hl
      exact isLine_of_mem_checkLines he (by decide) hd
        (hc check (List.mem_cons_of_mem _ hcheck)) hl

/-- The lines of a guarded chain that count. -/
theorem joined_codeParts_guardedLines (he : IsErrTerm errTerm) (hne : checks ≠ []) :
    Text.joined " " (Text.codeParts (guardedLines data (chainLines errTerm checks))) =
      guarded data (chain errTerm checks) := by
  have hlines : Text.codeParts (guardedLines data (chainLines errTerm checks)) =
      ["if (defined(" ++ data ++ ")) \x7b"] ++ Text.codeParts (chainLines errTerm checks) ++
        [['\x7d']] := by
    have hsplit : guardedLines data (chainLines errTerm checks) =
        [("# skip when undefined" : Text)] ++ ["if (defined(" ++ data ++ ")) \x7b"] ++
          (chainLines errTerm checks).map (fun l => ("    " : Text) ++ l) ++ [['\x7d']] := rfl
    have hcomment : Text.codeParts ["# skip when undefined"] = [] := rfl
    have hopen : Text.codeParts ["if (defined(" ++ data ++ ")) \x7b"] =
        ["if (defined(" ++ data ++ ")) \x7b"] := rfl
    have hclose : Text.codeParts [['\x7d']] = [['\x7d']] := rfl
    simp only [hsplit, Text.codeParts_append, hcomment, hopen, hclose, Text.codeParts_indented,
      List.nil_append]
  have hparts : Text.codeParts (chainLines errTerm checks) ≠ [] := by
    obtain ⟨first, others, rfl⟩ := List.exists_cons_of_ne_nil hne
    rw [codeParts_chainLines he]
    simp [branchParts]
  have hfront (first : Text) (rest : List Text) : [first] ++ rest ≠ [] := List.cons_ne_nil _ _
  rw [hlines, Text.joined_append " " (hfront _ _) (List.cons_ne_nil _ _),
    Text.joined_append " " (List.cons_ne_nil _ _) hparts, Text.joined_singleton,
    Text.joined_singleton, joined_codeParts_chainLines he]
  unfold guarded
  simp

/-- No line of a guarded chain breaks. -/
theorem isLine_of_mem_guardedLines (hd : '\n' ∉ data) {lines : List Text}
    (hl : ∀ l ∈ lines, Text.IsLine l) : ∀ l ∈ guardedLines data lines, Text.IsLine l := by
  have hopen : Text.IsLine ("if (defined(" ++ data ++ ")) \x7b") :=
    Text.isLine_append (by simp [hd]) (by decide) (by decide)
  intro l hmem
  simp only [guardedLines, List.mem_append, List.mem_cons, List.not_mem_nil, or_false,
    List.mem_map] at hmem
  rcases hmem with ((rfl | rfl) | ⟨inner, hinner, rfl⟩) | rfl
  · decide
  · exact hopen
  · by_cases hempty : inner = []
    · rw [hempty]
      decide
    · exact Text.isLine_append (by decide) (hl inner hinner) hempty
  · decide

/-- The code of a schema on one line. -/
theorem squash_code (schema : Schema) {request : CompileRequest} (he : IsErrTerm request.errTerm)
    (hd : '\n' ∉ request.dataTerm) (hc : ∀ check ∈ checks, check.Fits request.dataTerm) :
    Text.squash (schema.code checks request) =
      if checks.isEmpty then []
      else if schema.required then chain request.errTerm checks
      else guarded request.dataTerm (chain request.errTerm checks) := by
  have hchain := isLine_of_mem_chainLines he hd hc
  generalize hname : "# validate '" ++ Text.escaped request.dataName ++
    "' against schema of type '" ++ schema.type.name = title
  have htitle : Text.IsLine (title ++ "'") := by
    have htype : '\n' ∉ schema.type.name := by cases schema.type <;> decide
    have hfree : '\n' ∉ title := by simp [← hname, Text.not_mem_escaped, htype]
    exact Text.isLine_append hfree (by decide) (by decide)
  have hcomment : Text.codeParts [title ++ "'"] = [] := by
    rw [← hname]
    rfl
  have hbody : ∀ l ∈ bodyLines schema checks request, Text.IsLine l := by
    unfold bodyLines
    split
    next => decide
    next =>
      split
      next => exact hchain
      next => exact isLine_of_mem_guardedLines hd hchain
  have hcode : schema.code checks request =
      ([title ++ "'"] ++ bodyLines schema checks request).flatMap (· ++ ['\n']) := by
    rw [← hname]
    rfl
  have hlines : ∀ l ∈ [title ++ "'"] ++ bodyLines schema checks request, Text.IsLine l :=
    List.forall_mem_cons.2 ⟨htitle, hbody⟩
  rw [hcode, Text.squash_flatMap hlines, Text.codeParts_append, hcomment, List.nil_append,
    bodyLines]
  cases hempty : checks.isEmpty with
  | true => rfl
  | false =>
    cases schema.required with
    | true => exact joined_codeParts_chainLines he checks
    | false => exact joined_codeParts_guardedLines he (by simpa using hempty)

/-- Checks on one line are not nothing. -/
theorem chain_ne_nil (first : Check) (others : List Check) :
    chain errTerm (first :: others) ≠ [] := by
  have hbranch (rest : Text) : branch errTerm "if" first ++ rest ≠ [] := List.cons_ne_nil _ _
  rw [chain]
  cases others with
  | nil =>
    rw [List.map_nil, Text.joined_singleton, ← List.append_nil (branch _ _ _)]
    exact hbranch []
  | cons next rest =>
    rw [List.map_cons, Text.joined, List.intercalate_cons_cons, List.append_assoc]
    exact hbranch _

/-- A schema that compiles amounts to checks, which its code makes. -/
theorem compile_eq_ok_iff {request : CompileRequest} (hr : request.returnKind = .str)
    {code : Text} :
    compile request = .ok code ↔
      ∃ schema checks, ofValue request.schema = .ok schema ∧
        schema.checks request.dataTerm = .ok checks ∧ schema.code checks request = code := by
  simp only [compile, hr, ne_eq, not_true_eq_false, if_false, bind_eq_ok_iff, pure_eq_ok_iff,
    exists_and_left]

end Schema

end ArgGuard
