import ArgGuard.Proofs.Compiled
import Mathlib.Data.List.Induction

/-!
# Laws of squashing

Squashed code is one line that starts with code, so squashing it again changes nothing. Code behind
a line break is squashed on its own: the two results are put on one line, with a space between them.
A line feed behind a carriage return ends the line together with it, and what is squashed then is
the code in front of both.
-/

namespace ArgGuard.Text

variable {code body part : Text} {parts : List Text}

/-- Two pieces of code on one line: with a space between them, unless one of them is empty. -/
def spaced (first other : Text) : Text :=
  if other = [] then first else if first = [] then other else first ++ ' ' :: other

/-- Code that starts neither with a space nor with a comment. -/
def StartsCode (s : Text) : Prop := ∀ c ∈ s.head?, isSpace c = false ∧ c ≠ '#'

/-- The lines that count are told by the bodies of all lines. -/
theorem codeLines_eq (code : Text) : code.codeLines = codeParts (code.lines.map Line.body) := by
  rw [codeLines, codeParts, List.map_map]
  rfl

/-- A line that counts is not empty. -/
theorem ne_nil_of_mem_codeParts {ls : List Text} (h : part ∈ codeParts ls) : part ≠ [] := by
  rintro rfl
  simp [codeParts, isCode] at h

/-- A line that counts starts with code. -/
theorem startsCode_of_mem_codeParts {ls : List Text} (h : part ∈ codeParts ls) :
    StartsCode part := by
  obtain ⟨hmem, hcode⟩ := List.mem_filter.1 h
  obtain ⟨l, -, rfl⟩ := List.mem_map.1 hmem
  intro c hc
  constructor
  · have hno := List.head?_dropWhile_not isSpace l
    rw [Option.mem_def.1 hc] at hno
    exact hno
  · cases hdrop : l.dropWhile isSpace with
    | nil => simp [hdrop] at hc
    | cons d rest =>
      obtain rfl : d = c := by simpa [hdrop] using hc
      simpa [hdrop, isCode] using hcode

/-- A body that starts with code is a line that counts, as it is. -/
theorem codeParts_of_startsCode (hne : body ≠ []) (h : StartsCode body) :
    codeParts [body] = [body] := by
  obtain ⟨c, rest, rfl⟩ := List.exists_cons_of_ne_nil hne
  obtain ⟨hspace, hhash⟩ := h c rfl
  exact codeParts_of_starts hspace hhash rest

/-- Parts that are not empty make up an empty line only if there are none. -/
theorem joined_eq_nil_iff (h : ∀ part ∈ parts, part ≠ []) :
    joined " " parts = [] ↔ parts = [] := by
  constructor
  · intro hnil
    cases parts with
    | nil => rfl
    | cons part rest =>
      have hpart := h part List.mem_cons_self
      cases rest with
      | nil => simp [joined, hpart] at hnil
      | cons next rest => simp [joined, List.intercalate_cons_cons, hpart] at hnil
  · rintro rfl
    rfl

/-- Squashed code is empty only if no line counts. -/
theorem squash_eq_nil_iff (code : Text) : squash code = [] ↔ code.codeLines = [] := by
  rw [squash, codeLines_eq]
  exact joined_eq_nil_iff fun _ => ne_nil_of_mem_codeParts

/-- Squashed code starts with code. -/
theorem startsCode_squash (code : Text) : StartsCode (squash code) := by
  rw [squash, codeLines_eq]
  cases hparts : codeParts (code.lines.map Line.body) with
  | nil => simp [joined, StartsCode]
  | cons part rest =>
    have hmem : part ∈ codeParts (code.lines.map Line.body) := hparts ▸ List.mem_cons_self
    obtain ⟨c, tail, rfl⟩ := List.exists_cons_of_ne_nil (ne_nil_of_mem_codeParts hmem)
    intro d hd
    refine startsCode_of_mem_codeParts hmem d ?_
    cases rest <;> simpa [joined, List.intercalate_cons_cons] using hd

/-- A text without a line feed is the body of its only line, unless it is empty. -/
theorem lines_of_not_mem (h : '\n' ∉ body) (hne : body ≠ []) : lines body = [⟨body, .missing⟩] := by
  have hcut : lines (Line.text ⟨body, .missing⟩ ++ []) = ⟨body, .missing⟩ :: lines [] :=
    lines_append_line h (by simp) fun _ => ⟨hne, rfl⟩
  simpa [Line.text, LineEnding.text, lines] using hcut

/-- The lines that count in a text without a line feed are those of its only line. -/
theorem codeLines_of_not_mem (h : '\n' ∉ body) : body.codeLines = codeParts [body] := by
  rw [codeLines_eq]
  by_cases hne : body = []
  · rw [hne]
    rfl
  · rw [lines_of_not_mem h hne]
    rfl

/-- One line that starts with code is squashed to itself. -/
theorem squash_of_startsCode (h : '\n' ∉ code) (hs : StartsCode code) : squash code = code := by
  by_cases hne : code = []
  · rw [hne]
    rfl
  · rw [squash, codeLines_of_not_mem h, codeParts_of_startsCode hne hs, joined_singleton]

/-- A text is lines with no line left open, and what stands in the last line. -/
theorem exists_open_line (s : Text) :
    ∃ front body, s = front ++ body ∧ front.Terminated ∧ '\n' ∉ body := by
  induction s using List.reverseRecOn with
  | nil => exact ⟨[], [], rfl, .inl rfl, List.not_mem_nil⟩
  | append_singleton s c ih =>
    by_cases hc : c = '\n'
    · exact ⟨s ++ [c], [], (List.append_nil _).symm, .inr (by simp [hc]), List.not_mem_nil⟩
    · obtain ⟨front, body, rfl, hfront, hbody⟩ := ih
      refine ⟨front, body ++ [c], List.append_assoc .., hfront, ?_⟩
      simpa [hbody] using Ne.symm hc

/-- Behind the end of a line, the lines that count follow those in front of it. -/
theorem codeLines_append (ending : LineEnding) (hm : ending ≠ .missing)
    (hr : ending = .lineFeed → code.getLast? ≠ some '\r') (more : Text) :
    (code ++ ending.text ++ more).codeLines = code.codeLines ++ more.codeLines := by
  obtain ⟨front, body, rfl, hfront, hbody⟩ := exists_open_line code
  have hlast : ending = .lineFeed → body.getLast? ≠ some '\r' := by
    intro he hcr
    have hend := hr he
    rw [List.getLast?_append, hcr] at hend
    exact hend rfl
  have hline : lines (body ++ ending.text ++ more) = ⟨body, ending⟩ :: lines more :=
    @lines_append_line ⟨body, ending⟩ more hbody hlast fun he => absurd he hm
  have hcount (behind : Text) :
      (front ++ behind).codeLines = front.codeLines ++ behind.codeLines := by
    simp only [codeLines_eq, lines_append hfront, List.map_append, codeParts_append]
  have hbehind : (body ++ ending.text ++ more).codeLines = codeParts [body] ++ more.codeLines := by
    rw [codeLines_eq, codeLines_eq, hline, List.map_cons, ← List.singleton_append,
      codeParts_append]
  rw [List.append_assoc, List.append_assoc, hcount, hcount, ← List.append_assoc body, hbehind,
    codeLines_of_not_mem hbody, List.append_assoc]

/-- Lines that count among lines and further ones are put on one line. -/
theorem squash_of_codeLines_append {first other : Text}
    (h : code.codeLines = first.codeLines ++ other.codeLines) :
    squash code = spaced (squash first) (squash other) := by
  unfold spaced
  simp only [squash_eq_nil_iff]
  rw [squash, h]
  split
  next hother => rw [hother, List.append_nil, squash]
  next hother =>
    split
    next hfirst => rw [hfirst, List.nil_append, squash]
    next hfirst =>
      rw [joined_append " " hfirst hother, List.append_assoc]
      rfl

/-- Squashed code is one line, it is empty or starts with neither a space nor a comment, and
squashing it again changes nothing. Code in front of a line feed and code behind it are squashed
each on its own and put on one line, if the first does not end in a carriage return; a carriage
return with the line feed behind it does not belong to the code. -/
theorem squash_laws (code : Text) :
    '\n' ∉ squash code ∧ (squash code = [] ∨ ∃ c rest, squash code = c :: rest ∧
      isSpace c = false ∧ c ≠ '#') ∧ squash (squash code) = squash code ∧
      ∀ more,
        (code.getLast? ≠ some '\r' →
          squash (code ++ "\n" ++ more) = spaced (squash code) (squash more)) ∧
        squash (code ++ "\r\n" ++ more) = spaced (squash code) (squash more) := by
  have hline := not_mem_squash code
  have hstarts := startsCode_squash code
  refine ⟨hline, ?_, squash_of_startsCode hline hstarts, fun more => ⟨fun hlast => ?_, ?_⟩⟩
  · cases hcode : squash code with
    | nil => exact .inl rfl
    | cons c rest => exact .inr ⟨c, rest, rfl, hstarts c (by rw [hcode]; rfl)⟩
  · exact squash_of_codeLines_append
      (codeLines_append .lineFeed (by simp) (fun _ => hlast) more)
  · exact squash_of_codeLines_append
      (codeLines_append .carriageReturn (by simp) (by simp) more)

/-- Code with every kind of line break, comments, and lines without anything. -/
def raggedCode : Text := "# head\r\n\t if (1) \x7b\r\n\n\x0b\n  x;\ry; # tail"

/-- The sample and a closing line behind it are squashed each on its own, with either end of a
line. -/
theorem squash_laws_raggedCode :
    raggedCode.getLast? ≠ some '\r' ∧ squash raggedCode = "if (1) \x7b x;\ry; # tail" ∧
      squash (squash raggedCode) = squash raggedCode ∧
      squash (raggedCode ++ "\n" ++ "\t\x7d\n") = spaced (squash raggedCode) "\x7d" ∧
      squash (raggedCode ++ "\r\n" ++ "\t\x7d\n") = spaced (squash raggedCode) "\x7d" := by
  have hlast : raggedCode.getLast? ≠ some '\r' := by decide
  obtain ⟨-, -, hagain, hmore⟩ := squash_laws raggedCode
  obtain ⟨hlineFeed, hreturn⟩ := hmore "\t\x7d\n"
  exact ⟨hlast, by decide, hagain, hlineFeed hlast, hreturn⟩

/-- A carriage return at the end of code is lost when a line feed comes behind it. -/
example : squash ("a\r" ++ "\n" ++ "b") = "a b" ∧ spaced (squash "a\r") (squash "b") = "a\r b" := by
  decide

end ArgGuard.Text
