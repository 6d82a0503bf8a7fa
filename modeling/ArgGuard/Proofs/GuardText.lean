import ArgGuard.Proofs.GuardForm
import ArgGuard.Proofs.Lines

/-!
# The text of guards

Whatever the compiler answers and however arguments are called, a guard stays on its line: its
code holds no line feed. Code that is not empty ends with the closing brace of a check and a
space.
-/

namespace ArgGuard

/-- A character that ends a line for some reader. -/
def Text.isLineBreak (c : Char) : Bool := c = '\n' || c = '\r'

/-- A character in quotes stays on its line. -/
theorem Text.not_mem_quotedChar {d : Char} (hd : isLineBreak d) (c : Char) :
    d ∉ Text.quotedChar c := by
  simp only [isLineBreak, Bool.or_eq_true, decide_eq_true_eq] at hd
  unfold Text.quotedChar
  split
  next h =>
    rcases hd with rfl | rfl <;> rcases h with rfl | rfl | rfl | rfl <;> decide
  next =>
    split
    next => rcases hd with rfl | rfl <;> decide
    next hn =>
      split
      next => rcases hd with rfl | rfl <;> decide
      next hr =>
        split
        next => rcases hd with rfl | rfl <;> decide
        next =>
          rcases hd with rfl | rfl
          · simpa using fun e => hn e.symm
          · simpa using fun e => hr e.symm

/-- A quoted text has no line break. -/
theorem Text.not_mem_quoted_of_isLineBreak {d : Char} (hd : isLineBreak d) (s : Text) :
    d ∉ Text.quoted s := by
  have hquote : d ≠ '"' := by
    rintro rfl
    simp [isLineBreak] at hd
  simp [Text.quoted, Text.not_mem_quotedChar hd, hquote]

/-- A quoted text stays on its line. -/
theorem Text.not_mem_quoted (s : Text) : '\n' ∉ Text.quoted s :=
  Text.not_mem_quoted_of_isLineBreak (by decide) s

/-- Squashed code stays on its line. -/
theorem Text.not_mem_squash (code : Text) : '\n' ∉ Text.squash code := by
  have hline : ∀ part ∈ Text.codeLines code, '\n' ∉ part := by
    intro part hpart
    obtain ⟨l, hl, rfl⟩ := List.mem_map.1 (List.mem_filter.1 hpart).1
    exact fun h => ((areLines_lines code).of_mem hl).1 (List.dropWhile_subset _ h)
  unfold Text.squash Text.joined
  generalize Text.codeLines code = parts at hline
  induction parts with
  | nil => simp
  | cons part rest ih =>
    have hpart := hline part List.mem_cons_self
    have hrest : ∀ p ∈ rest, '\n' ∉ p := fun p hp => hline p (List.mem_cons_of_mem _ hp)
    cases rest with
    | nil => simpa using hpart
    | cons next rest =>
      rw [List.intercalate_cons_cons]
      simpa [hpart] using ih hrest

/-- An identifier has start and word characters only. -/
theorem Identifier.of_mem_of_isBareword {s : Text} (h : Identifier.isBareword s) {c : Char}
    (hc : c ∈ s) : Identifier.isStart c ∨ Unicode.isWord c := by
  cases s with
  | nil => simp at hc
  | cons first rest =>
    simp only [Identifier.isBareword, Bool.and_eq_true, List.all_eq_true] at h
    obtain ⟨hstart, hword⟩ := h
    rcases List.mem_cons.1 hc with rfl | hc
    · exact .inl hstart
    · exact .inr (hword c hc)

/-- An identifier stays on its line. -/
theorem Identifier.not_mem_of_isBareword {s : Text} (h : Identifier.isBareword s) : '\n' ∉ s :=
  fun hmem => absurd (Identifier.of_mem_of_isBareword h hmem) (by decide)

namespace Guard

/-- The way a function is left stays on the line of its message. -/
theorem Exit.not_mem_leave {exit : Exit} {message : Text} (h : '\n' ∉ message) :
    '\n' ∉ exit.leave message := by
  have hstatus : '\n' ∉ Text.ofNat failureStatus := by decide
  unfold Exit.leave
  split <;> simp [h, hstatus]

/-- A check that leaves the function stays on one line. -/
theorem not_mem_text_leaveIf {exit : Exit} {condition message : Text} (hc : '\n' ∉ condition)
    (hm : '\n' ∉ message) : '\n' ∉ (Statement.leaveIf condition message).text exit := by
  rw [text_leaveIf]
  simp [hc, Exit.not_mem_leave hm]

/-- The check that an argument was passed stays on one line if the expression for its absence
does. -/
theorem not_mem_presence (exit : Exit) {t : Target} (ht : '\n' ∉ t.missing) :
    ∀ s ∈ presence t, '\n' ∉ s.text exit := by
  intro s hs
  unfold presence at hs
  split at hs
  next =>
    obtain rfl := List.mem_singleton.1 hs
    exact not_mem_text_leaveIf ht (Text.not_mem_quoted _)
  next => simp at hs

/-- The squashed code of a schema and its check stay on one line. -/
theorem not_mem_conformance (exit : Exit) (t : Target) (code : Text) :
    ∀ s ∈ conformance t (Text.squash code), '\n' ∉ s.text exit := by
  intro s hs
  unfold conformance at hs
  split at hs
  next => simp at hs
  next =>
    rcases List.mem_cons.1 hs with rfl | hs
    · exact Text.not_mem_squash code
    · obtain rfl := List.mem_singleton.1 hs
      have hholder : '\n' ∉ errorHolder := by decide
      refine not_mem_text_leaveIf hholder ?_
      simp [Text.not_mem_quoted, hholder]

/-- The checks of arguments stay on one line if the expressions for their absence do. -/
theorem not_mem_checks {compiler : SchemaCompiler} (exit : Exit) {ts : List Target}
    {own : List Statement} (ht : ∀ t ∈ ts, '\n' ∉ t.missing) (h : checks compiler ts = .ok own) :
    ∀ s ∈ own, '\n' ∉ s.text exit := by
  induction ts generalizing own with
  | nil =>
    obtain rfl := Except.ok.inj h
    simp
  | cons t rest ih =>
    obtain ⟨first, others, hfirst, hothers, rfl⟩ := checks_cons_eq_ok_iff.1 h
    intro s hs
    rcases List.mem_append.1 hs with hs | hs
    · obtain ⟨code, rfl⟩ := eq_of_block hfirst
      rcases List.mem_append.1 hs with hs | hs
      · exact not_mem_presence exit (ht t List.mem_cons_self) s hs
      · exact not_mem_conformance exit t code s hs
    · exact ih (fun t ht' => ht t (List.mem_cons_of_mem _ ht')) hothers s hs

/-- The expression for an element stays on one line if the variable's name does. -/
theorem not_mem_elementTerm {packing : Packing} {name key : Text} (h : '\n' ∉ name) :
    '\n' ∉ elementTerm packing name key := by
  have hkey : '\n' ∉ (if Identifier.isBareword key then key else Text.quoted key) := by
    split
    next hb => exact Identifier.not_mem_of_isBareword hb
    next => exact Text.not_mem_quoted key
  simp [elementTerm, h, hkey]

/-- The expressions for the absence of arguments stay on one line if the declared variable's
name does. -/
theorem not_mem_missing_of_targets {function : Text} {m : FunctionMetadata} {tag : Tag}
    {ts : List Target} (hname : '\n' ∉ tag.name) (h : targets function m tag = .ok ts) :
    ∀ t ∈ ts, '\n' ∉ t.missing := by
  intro t ht
  cases hs : tag.scope with
  | single =>
    obtain ⟨spec, -, rfl⟩ := targets_single hs h
    obtain rfl := List.mem_singleton.1 ht
    change '\n' ∉ "!defined(" ++ '$' :: tag.name ++ ")"
    simp [hname]
  | all =>
    obtain rfl := targets_all hs h
    obtain ⟨⟨argument, spec⟩, -, rfl⟩ := List.mem_map.1 ht
    change '\n' ∉ "!exists(" ++ elementTerm m.packing tag.name argument ++ ")"
    simp [not_mem_elementTerm hname]

/-- A guard stays on the line of its tag. -/
theorem not_mem_code_of_forTag {compiler : SchemaCompiler} {function : Text}
    {m : FunctionMetadata} {tag : Tag} {declared : Bool} {g : Guard} (hname : '\n' ∉ tag.name)
    (h : forTag compiler function m tag declared = .ok g) : '\n' ∉ g.code := by
  obtain ⟨ts, own, hts, hown, rfl⟩ := forTag_eq_ok_iff.1 h
  have hline := not_mem_checks (.ofMetadata m) (not_mem_missing_of_targets hname hts) hown
  have hopened : ∀ s ∈ opened declared own, '\n' ∉ s.text (.ofMetadata m) := by
    intro s hs
    unfold opened at hs
    split at hs
    next => exact hline s hs
    next =>
      rcases List.mem_cons.1 hs with rfl | hs
      · change '\n' ∉ ("my " ++ errorHolder ++ ";" : Text)
        decide
      · exact hline s hs
  intro hmem
  obtain ⟨s, hs, hc⟩ := List.mem_flatMap.1 hmem
  rcases List.mem_append.1 hc with hc | hc
  · exact hopened s hs hc
  · exact absurd hc (by decide)

/-- Statements the last of which leaves the function on a condition. -/
def EndLeaving (statements : List Statement) : Prop :=
  ∃ front condition message, statements = front ++ [.leaveIf condition message]

/-- What comes in front does not matter to the end. -/
theorem EndLeaving.append {statements : List Statement} (h : EndLeaving statements)
    (first : List Statement) : EndLeaving (first ++ statements) := by
  obtain ⟨front, condition, message, rfl⟩ := h
  exact ⟨first ++ front, condition, message, by rw [List.append_assoc]⟩

/-- The check that an argument was passed leaves the function. -/
theorem presence_ends {t : Target} (hne : presence t ≠ []) : EndLeaving (presence t) := by
  unfold presence at hne ⊢
  split
  next => exact ⟨[], _, _, rfl⟩
  next hr => simp [hr] at hne

/-- The code of a schema is followed by a check that leaves the function. -/
theorem conformance_ends {t : Target} {code : Text} (hne : conformance t code ≠ []) :
    EndLeaving (conformance t code) := by
  unfold conformance at hne ⊢
  split
  next hempty => simp [hempty] at hne
  next => exact ⟨[.run code], _, _, rfl⟩

/-- The checks of an argument end with one that leaves the function. -/
theorem block_ends {compiler : SchemaCompiler} {t : Target} {own : List Statement}
    (h : block compiler t = .ok own) (hne : own ≠ []) : EndLeaving own := by
  obtain ⟨code, rfl⟩ := eq_of_block h
  by_cases hc : conformance t (Text.squash code) = []
  · rw [hc, List.append_nil] at hne ⊢
    exact presence_ends hne
  · exact (conformance_ends hc).append (presence t)

/-- The checks of arguments end with one that leaves the function. -/
theorem checks_end {compiler : SchemaCompiler} {ts : List Target} {own : List Statement}
    (h : checks compiler ts = .ok own) (hne : own ≠ []) : EndLeaving own := by
  induction ts generalizing own with
  | nil => exact absurd (Except.ok.inj h).symm hne
  | cons t rest ih =>
    obtain ⟨first, others, hfirst, hothers, rfl⟩ := checks_cons_eq_ok_iff.1 h
    by_cases ho : others = []
    · rw [ho, List.append_nil] at hne ⊢
      exact block_ends hfirst hne
    · exact (ih hothers ho).append first

/-- Code that is not empty ends with a closing brace and a space. -/
theorem code_ends_of_forTag {compiler : SchemaCompiler} {function : Text} {m : FunctionMetadata}
    {tag : Tag} {declared : Bool} {g : Guard} (h : forTag compiler function m tag declared = .ok g)
    (hne : g.code ≠ []) : ∃ front, g.code = front ++ ['\x7d', ' '] := by
  obtain ⟨ts, own, hts, hown, rfl⟩ := forTag_eq_ok_iff.1 h
  have hown' : own ≠ [] := by
    rintro rfl
    exact hne (render_eq_nil_iff.2 (opened_eq_nil_iff.2 rfl))
  have hopened : EndLeaving (opened declared own) := by
    unfold opened
    split
    next => exact checks_end hown hown'
    next => exact (checks_end hown hown').append [.declareHolder]
  obtain ⟨before, condition, message, hbefore⟩ := hopened
  rw [hbefore, render_append]
  refine ⟨render (.ofMetadata m) before ++
    ("if (" ++ condition ++ ") \x7b " ++ (Exit.ofMetadata m).leave message ++ " " : Text), ?_⟩
  have hlast : render (.ofMetadata m) [.leaveIf condition message] =
      ("if (" ++ condition ++ ") \x7b " ++ (Exit.ofMetadata m).leave message ++ " " : Text) ++
        ['\x7d', ' '] := by
    rw [render, List.flatMap_singleton, text_leaveIf]
    simp
  rw [hlast, ← List.append_assoc]

/-- A tag for one argument checks the argument that it refers to. -/
theorem validated_of_single {compiler : SchemaCompiler} {function : Text} {m : FunctionMetadata}
    {tag : Tag} {declared : Bool} {g : Guard} (h : forTag compiler function m tag declared = .ok g)
    (hs : tag.scope = .single) : g.validated = [tag.argumentName] := by
  obtain ⟨ts, own, hts, hown, rfl⟩ := forTag_eq_ok_iff.1 h
  obtain ⟨spec, -, rfl⟩ := targets_single hs hts
  rfl

/-- A tag for all arguments checks every declared argument, in declared order. -/
theorem validated_of_all {compiler : SchemaCompiler} {function : Text} {m : FunctionMetadata}
    {tag : Tag} {declared : Bool} {g : Guard} (h : forTag compiler function m tag declared = .ok g)
    (hs : tag.scope = .all) : g.validated = Dictionary.keys m.args := by
  obtain ⟨ts, own, hts, hown, rfl⟩ := forTag_eq_ok_iff.1 h
  obtain rfl := targets_all hs hts
  simp [Dictionary.keys, elementTarget, Function.comp_def]

end Guard

end ArgGuard
