import ArgGuard.Text.Basic

/-!
# Lines

A line is a body with its terminator: a line feed, a carriage return and line feed, or
nothing at the end of the text. Cutting a text into lines and putting the lines together
again gives back the text, so whatever keeps bodies and terminators keeps the text.
-/

namespace ArgGuard

/-- How a line ends. -/
inductive LineEnding where
  /-- The text ends before any terminator. -/
  | missing
  /-- A line feed alone. -/
  | lineFeed
  /-- A carriage return and a line feed. -/
  | carriageReturn
  deriving DecidableEq, Repr

/-- The characters of a terminator. -/
def LineEnding.text : LineEnding → Text
  | .missing => []
  | .lineFeed => ['\n']
  | .carriageReturn => ['\r', '\n']

/-- A line of a text: its body and its terminator. -/
structure Line where
  /-- The characters before the terminator. -/
  body : Text
  /-- How the line ends. -/
  ending : LineEnding
  deriving DecidableEq, Repr

/-- The characters of a line, terminator included. -/
def Line.text (l : Line) : Text := l.body ++ l.ending.text

/-- Cut a text after every line feed; an empty last piece is no line. -/
def Text.lines : Text → List Line
  | [] => []
  | '\n' :: rest => ⟨[], .lineFeed⟩ :: lines rest
  | '\r' :: '\n' :: rest => ⟨[], .carriageReturn⟩ :: lines rest
  | c :: rest =>
    match lines rest with
    | [] => [⟨[c], .missing⟩]
    | l :: ls => ⟨c :: l.body, l.ending⟩ :: ls

/-- The lines of a text, put together again, are the text. -/
theorem Text.flatMap_text_lines (s : Text) : s.lines.flatMap Line.text = s := by
  fun_induction Text.lines s with
  | case1 => rfl
  | case2 rest ih => simp [Line.text, LineEnding.text, ih]
  | case3 rest ih => simp [Line.text, LineEnding.text, ih]
  | case4 c rest _ _ h ih =>
    rw [h] at ih
    simp [Line.text, LineEnding.text, ← ih]
  | case5 c rest _ _ l ls h ih =>
    rw [h] at ih
    simp only [List.flatMap_cons, Line.text, List.cons_append] at ih ⊢
    rw [ih]

end ArgGuard
