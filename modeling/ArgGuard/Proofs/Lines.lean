import ArgGuard.Text.Line
import Mathlib.Data.List.Forall2

/-!
# Cutting and joining lines

The lists of lines that cutting a text can give are characterised, and joining is shown to be
the inverse of cutting on them. Whatever replaces bodies, keeping terminators and last
characters and adding no line feed, keeps the cut.
-/

namespace ArgGuard

/-- Lines that cutting a text can give: no body holds a line feed or swallows the carriage
return of a terminator, and only a last line that is not empty lacks its terminator. -/
def AreLines : List Line → Prop
  | [] => True
  | l :: rest =>
    '\n' ∉ l.body ∧ (l.ending = .lineFeed → l.body.getLast? ≠ some '\r') ∧
      (l.ending = .missing → l.body ≠ [] ∧ rest = []) ∧ AreLines rest

/-- A text that can stand in front of a line feed: it holds none itself and swallows none. -/
def Text.IsLine (s : Text) : Prop := '\n' ∉ s ∧ s.getLast? ≠ some '\r'

instance (s : Text) : Decidable s.IsLine := inferInstanceAs (Decidable (_ ∧ _))

/-- Only the end of a text can swallow a line feed. -/
theorem Text.isLine_append {first others : Text} (hf : '\n' ∉ first) (ho : IsLine others)
    (hne : others ≠ []) : IsLine (first ++ others) := by
  obtain ⟨hn, hr⟩ := ho
  refine ⟨by simp [hf, hn], ?_⟩
  rwa [List.getLast?_append_of_ne_nil _ hne]

/-- Texts that can stand in front of a line feed are the bodies of lines that cutting can give. -/
theorem areLines_of_isLine {bodies : List Text} (h : ∀ body ∈ bodies, body.IsLine) :
    AreLines (bodies.map fun body => ⟨body, .lineFeed⟩) := by
  induction bodies with
  | nil => trivial
  | cons body rest ih =>
    obtain ⟨hn, hr⟩ := h body List.mem_cons_self
    have hrest := ih fun b hb => h b (List.mem_cons_of_mem _ hb)
    exact ⟨hn, fun _ => hr, by simp, hrest⟩

/-- No line that cutting can give holds a line feed in its body, or swallows the carriage return
of its terminator. -/
theorem AreLines.of_mem {ls : List Line} (h : AreLines ls) {l : Line} (hl : l ∈ ls) :
    '\n' ∉ l.body ∧ (l.ending = .lineFeed → l.body.getLast? ≠ some '\r') := by
  induction ls with
  | nil => simp at hl
  | cons first rest ih =>
    obtain ⟨hn, hr, -, hrest⟩ := h
    rcases List.mem_cons.1 hl with rfl | hl
    · exact ⟨hn, hr⟩
    · exact ih hrest hl

/-- A character that starts no terminator goes to the body of the line behind it. -/
theorem Text.lines_cons {c : Char} {rest : Text} (hn : c ≠ '\n')
    (hr : c = '\r' → rest.head? ≠ some '\n') :
    Text.lines (c :: rest) =
      match Text.lines rest with
      | [] => [⟨[c], .missing⟩]
      | l :: ls => ⟨c :: l.body, l.ending⟩ :: ls := by
  have hpair : ∀ tail, c = '\r' → rest = '\n' :: tail → False := by
    intro tail hc he
    exact hr hc (by rw [he, List.head?_cons])
  exact Text.lines.eq_4 c rest hn hpair

/-- Cutting takes off a whole line in front of any text. -/
theorem Text.lines_append_line {l : Line} {tail : Text} (hn : '\n' ∉ l.body)
    (hr : l.ending = .lineFeed → l.body.getLast? ≠ some '\r')
    (hm : l.ending = .missing → l.body ≠ [] ∧ tail = []) :
    Text.lines (l.text ++ tail) = l :: Text.lines tail := by
  obtain ⟨body, ending⟩ := l
  simp only [Line.text] at *
  induction body with
  | nil =>
    cases ending with
    | missing => exact absurd rfl (hm rfl).1
    | lineFeed => simp [LineEnding.text, Text.lines]
    | carriageReturn => simp [LineEnding.text, Text.lines]
  | cons c body ih =>
    obtain ⟨hc, hbody⟩ : '\n' ≠ c ∧ '\n' ∉ body := by simpa using hn
    -- The next character is a line feed only when it is the whole terminator.
    have hnext : c = '\r' → (body ++ ending.text ++ tail).head? ≠ some '\n' := by
      rintro rfl
      cases body with
      | nil =>
        cases ending with
        | missing => simp [LineEnding.text, (hm rfl).2]
        | lineFeed => simp at hr
        | carriageReturn => simp [LineEnding.text]
      | cons d body => simp only [List.mem_cons, not_or] at hbody; simpa using Ne.symm hbody.1
    rw [List.cons_append, List.cons_append, Text.lines_cons hc.symm hnext]
    by_cases hend : body = [] ∧ ending = .missing
    · obtain ⟨rfl, rfl⟩ := hend
      obtain rfl := (hm rfl).2
      simp [LineEnding.text, Text.lines]
    · have hr' : ending = .lineFeed → body.getLast? ≠ some '\r' := by
        intro he
        cases body with
        | nil => simp
        | cons d body => simpa [List.getLast?_cons_cons] using hr he
      have hm' : ending = .missing → body ≠ [] ∧ tail = [] :=
        fun he => ⟨fun hb => hend ⟨hb, he⟩, (hm he).2⟩
      rw [ih hbody hr' hm']

/-- Cutting undoes joining. -/
theorem AreLines.lines_flatMap_text {ls : List Line} (h : AreLines ls) :
    Text.lines (ls.flatMap Line.text) = ls := by
  induction ls with
  | nil => simp [Text.lines]
  | cons l rest ih =>
    obtain ⟨hn, hr, hm, hrest⟩ := h
    rw [List.flatMap_cons, Text.lines_append_line hn hr, ih hrest]
    intro he
    obtain ⟨hb, rfl⟩ := hm he
    exact ⟨hb, rfl⟩

/-- Cutting a text gives lines that cutting can give. -/
theorem areLines_lines (s : Text) : AreLines s.lines := by
  fun_induction Text.lines s with
  | case1 => trivial
  | case2 rest ih => exact ⟨by simp, by simp, by simp, ih⟩
  | case3 rest ih => exact ⟨by simp, by simp, by simp, ih⟩
  | case4 c rest hn hr h ih => exact ⟨by simpa using fun e => hn e.symm, by simp, by simp, trivial⟩
  | case5 c rest hn hr l ls h ih =>
    rw [h] at ih
    obtain ⟨hbody, hlast, hmissing, hls⟩ := ih
    refine ⟨?_, ?_, fun he => ⟨by simp, (hmissing he).2⟩, hls⟩
    · simp only [List.mem_cons, not_or]
      exact ⟨fun e => hn e.symm, hbody⟩
    · intro he hc
      obtain ⟨body, ending⟩ := l
      obtain rfl : ending = .lineFeed := he
      cases body with
      | nil =>
        -- An empty body means that the line feed comes right behind the character.
        have hrest : rest = '\n' :: ls.flatMap Line.text := by
          rw [← Text.flatMap_text_lines rest, h]
          simp [Line.text, LineEnding.text]
        exact hr (ls.flatMap Line.text) (by simpa using hc) hrest
      | cons d body => exact hlast rfl (by simpa [List.getLast?_cons_cons] using hc)

/-- Equal bodies up to their last characters, with the same terminators. -/
structure Line.Replaces (new old : Line) : Prop where
  /-- The terminator stays. -/
  ending : new.ending = old.ending
  /-- The last character stays. -/
  last : new.body.getLast? = old.body.getLast?
  /-- No line feed comes in. -/
  one_line : '\n' ∉ new.body

/-- Replacing lines one by one leaves lines that cutting can give. -/
theorem AreLines.of_replaces {old new : List Line}
    (h : List.Forall₂ (fun o n => Line.Replaces n o) old new) (hold : AreLines old) :
    AreLines new := by
  induction h with
  | nil => trivial
  | cons hr hrest ih =>
    obtain ⟨-, hlast, hmissing, hold⟩ := hold
    refine ⟨hr.one_line, ?_, ?_, ih hold⟩
    · rw [hr.ending, hr.last]
      exact hlast
    · intro he
      obtain ⟨hb, rfl⟩ := hmissing (hr.ending ▸ he)
      refine ⟨fun e => hb ?_, List.forall₂_nil_left_iff.1 hrest⟩
      have hlast := hr.last
      rw [e] at hlast
      exact List.getLast?_eq_none_iff.1 hlast.symm

/-- A text with no line left open. -/
def Text.Terminated (s : Text) : Prop := s = [] ∨ s.getLast? = some '\n'

/-- In a text with no line left open every line has its terminator. -/
theorem AreLines.ending_ne_missing {ls : List Line} (h : AreLines ls)
    (ht : Text.Terminated (ls.flatMap Line.text)) {l : Line} (hl : l ∈ ls) :
    l.ending ≠ .missing := by
  induction ls with
  | nil => simp at hl
  | cons first rest ih =>
    obtain ⟨hn, -, hm, hrest⟩ := h
    rcases List.mem_cons.1 hl with rfl | hl
    · intro he
      obtain ⟨hb, rfl⟩ := hm he
      rcases ht with ht | ht
      · simp [Line.text, he, LineEnding.text, hb] at ht
      · have hmem := List.mem_of_getLast? ht
        simp only [Line.text, he, LineEnding.text, List.append_nil, List.flatMap_cons,
          List.flatMap_nil] at hmem
        exact hn hmem
    · refine ih hrest ?_ hl
      by_cases hnil : rest.flatMap Line.text = []
      · exact .inl hnil
      · right
        rw [List.flatMap_cons] at ht
        have hlast := List.getLast?_eq_some_getLast hnil
        rcases ht with ht | ht
        · exact absurd (List.append_eq_nil_iff.1 ht).2 hnil
        · rw [List.getLast?_append, hlast, Option.some_or] at ht
          exact hlast.trans ht

/-- A text has no line left open if every line has its terminator. -/
theorem Text.terminated_of_ending_ne_missing {s : Text}
    (h : ∀ l ∈ s.lines, l.ending ≠ .missing) : s.Terminated := by
  rcases List.eq_nil_or_concat s.lines with hnil | ⟨front, last, hlines⟩
  · left
    have htext := Text.flatMap_text_lines s
    rw [hnil] at htext
    exact htext.symm
  · right
    have hlast : last.ending ≠ .missing := h last (by simp [hlines])
    have htext := Text.flatMap_text_lines s
    rw [hlines, List.concat_eq_append, List.flatMap_append, List.flatMap_singleton] at htext
    rw [← htext, List.getLast?_append]
    cases he : last.ending with
    | missing => exact absurd he hlast
    | lineFeed => simp [Line.text, he, LineEnding.text]
    | carriageReturn => simp [Line.text, he, LineEnding.text]

/-- Two texts with no line left open leave none open together. -/
theorem Text.Terminated.append {a b : Text} (ha : a.Terminated) (hb : b.Terminated) :
    (a ++ b).Terminated := by
  rcases hb with rfl | hb
  · rwa [List.append_nil]
  · right
    rw [List.getLast?_append, hb, Option.some_or]

/-- The first of some lines that cutting can give are such lines. -/
theorem AreLines.of_append {first others : List Line} (h : AreLines (first ++ others)) :
    AreLines first := by
  induction first with
  | nil => trivial
  | cons l rest ih =>
    obtain ⟨hn, hr, hm, hrest⟩ := h
    refine ⟨hn, hr, fun he => ⟨(hm he).1, ?_⟩, ih hrest⟩
    exact (List.append_eq_nil_iff.1 (hm he).2).1

/-- Lines with terminators may be followed by any lines. -/
theorem AreLines.append {first others : List Line} (h : AreLines first)
    (hclosed : ∀ l ∈ first, l.ending ≠ .missing) (ho : AreLines others) :
    AreLines (first ++ others) := by
  induction first with
  | nil => exact ho
  | cons l rest ih =>
    obtain ⟨hn, hr, -, hrest⟩ := h
    refine ⟨hn, hr, fun he => absurd he (hclosed l List.mem_cons_self), ih hrest ?_⟩
    exact fun l' hl' => hclosed l' (List.mem_cons_of_mem _ hl')

/-- Behind a text with no line left open, the lines of any text follow. -/
theorem Text.lines_append {a : Text} (ha : a.Terminated) (b : Text) :
    (a ++ b).lines = a.lines ++ b.lines := by
  have h : AreLines (a.lines ++ b.lines) := by
    refine (areLines_lines a).append (fun l hl => ?_) (areLines_lines b)
    refine (areLines_lines a).ending_ne_missing ?_ hl
    rwa [Text.flatMap_text_lines]
  have hcut := h.lines_flatMap_text
  rwa [List.flatMap_append, Text.flatMap_text_lines, Text.flatMap_text_lines] at hcut

/-- A line of a text with no line left open is a whole text itself. -/
theorem Text.lines_text_of_mem {a : Text} (ha : a.Terminated) {l : Line} (hl : l ∈ a.lines) :
    l.text.Terminated ∧ l.text.lines = [l] := by
  have hclosed : l.ending ≠ .missing := by
    refine (areLines_lines a).ending_ne_missing ?_ hl
    rwa [Text.flatMap_text_lines]
  constructor
  · right
    cases he : l.ending with
    | missing => exact absurd he hclosed
    | lineFeed => simp [Line.text, he, LineEnding.text]
    | carriageReturn => simp [Line.text, he, LineEnding.text]
  · have hcut : Text.lines (l.text ++ []) = l :: Text.lines [] :=
      Text.lines_append_line ((areLines_lines a).of_mem hl).1 ((areLines_lines a).of_mem hl).2
        (fun he => absurd he hclosed)
    simpa [Text.lines] using hcut

end ArgGuard
