/-!
# Text

A text is a list of characters, so that every reader and writer of this library is a
recursion over its characters. String constants are read as texts, and joining texts is
list concatenation. White space comes in two sizes: blanks, which stay inside a line, and
spaces, which also hold the line breaks.
-/

namespace ArgGuard

/-- A text is the list of its characters. -/
abbrev Text := List Char

/-- A string constant stands for the text of its characters. -/
instance : Coe String Text := ⟨String.toList⟩

namespace Text

/-- The decimal digits of a natural number, without leading zeros. -/
def ofNat (n : Nat) : Text := Nat.toDigits 10 n

/-- The decimal digits of an integer, after a minus sign when it is negative. -/
def ofInt (n : Int) : Text := if n < 0 then '-' :: ofNat n.natAbs else ofNat n.natAbs

/-- The number of bytes of a text in UTF-8. -/
def byteCount (s : Text) : Nat := s.foldr (fun c n => c.utf8Size + n) 0

/-- Put a separator between consecutive texts. -/
def joined (separator : Text) (parts : List Text) : Text := separator.intercalate parts

/-- A single part needs no separator. -/
theorem joined_singleton (separator part : Text) : joined separator [part] = part :=
  List.intercalate_singleton

/-- The first part comes as it is, and each of the others behind a separator. -/
theorem joined_cons (separator first : Text) (rest : List Text) :
    joined separator (first :: rest) = first ++ rest.flatMap (separator ++ ·) := by
  induction rest generalizing first with
  | nil => rw [joined_singleton, List.flatMap_nil, List.append_nil]
  | cons next rest ih =>
    rw [joined, List.intercalate_cons_cons, ← joined, ih next, List.flatMap_cons]
    simp only [List.append_assoc]

/-- Parts of two lists with a separator between them, none of the lists being empty. -/
theorem joined_append (separator : Text) {first others : List Text} (hf : first ≠ [])
    (ho : others ≠ []) :
    joined separator (first ++ others) =
      joined separator first ++ separator ++ joined separator others := by
  unfold joined
  induction first with
  | nil => exact absurd rfl hf
  | cons part rest ih =>
    by_cases hr : rest = []
    · rw [hr, List.singleton_append, List.intercalate_cons_of_ne_nil ho,
        List.intercalate_singleton]
    · have hne : rest ++ others ≠ [] := by simp [hr]
      rw [List.cons_append, List.intercalate_cons_of_ne_nil hne, ih hr,
        List.intercalate_cons_of_ne_nil hr]
      simp only [List.append_assoc]

/-- Parts that come from several lists may be joined list by list. -/
theorem joined_flatMap {α : Type} (separator : Text) (items : List α) {f : α → List Text}
    (hf : ∀ item, f item ≠ []) :
    joined separator (items.flatMap f) =
      joined separator (items.map fun item => joined separator (f item)) := by
  induction items with
  | nil => rfl
  | cons item rest ih =>
    by_cases hr : rest = []
    · simp [hr, joined]
    · have hne : rest.flatMap f ≠ [] := by
        obtain ⟨next, others, rfl⟩ := List.exists_cons_of_ne_nil hr
        simp [hf next]
      have hmap : (rest.map fun item => joined separator (f item)) ≠ [] := by simpa using hr
      rw [List.flatMap_cons, joined_append separator (hf item) hne, ih, List.map_cons, joined,
        joined, joined, List.intercalate_cons_of_ne_nil hmap]

/-- A blank is a space or a tab. -/
def isBlank (c : Char) : Bool := c = ' ' || c = '\t'

/-- A space is any of the six ASCII white space characters. -/
def isSpace (c : Char) : Bool := c = ' ' || ('\t' ≤ c && c ≤ '\r')

/-- What is left after the blanks in front. -/
def skipBlanks (s : Text) : Text := s.dropWhile isBlank

/-- What is left after at least one blank in front. -/
def skipBlanks? : Text → Option Text
  | c :: rest => if isBlank c then some (skipBlanks rest) else none
  | [] => none

/-- A text without the blanks at its end. -/
def trimBlanksEnd (s : Text) : Text := (s.reverse.dropWhile isBlank).reverse

/-- Cut a text around the last occurrence of a character, which goes to the second part. -/
def cutAtLast? (mark : Char) : Text → Option (Text × Text)
  | [] => none
  | c :: rest =>
    match cutAtLast? mark rest with
    | some (before, after) => some (c :: before, after)
    | none => if c = mark then some ([], c :: rest) else none

/-- Cutting loses nothing. -/
theorem append_of_cutAtLast? {mark : Char} {s before after : Text}
    (h : cutAtLast? mark s = some (before, after)) : before ++ after = s := by
  induction s generalizing before with
  | nil => simp [cutAtLast?] at h
  | cons c rest ih =>
    rw [cutAtLast?] at h
    split at h
    next b a hrest =>
      simp only [Option.some.injEq, Prod.mk.injEq] at h
      obtain ⟨rfl, rfl⟩ := h
      simp [ih hrest]
    next =>
      split at h
      next =>
        simp only [Option.some.injEq, Prod.mk.injEq] at h
        obtain ⟨rfl, rfl⟩ := h
        rfl
      next => simp at h

/-- A text without the character cannot be cut, and any other can. -/
theorem cutAtLast?_eq_none_iff {mark : Char} {s : Text} :
    cutAtLast? mark s = none ↔ mark ∉ s := by
  induction s with
  | nil => simp [cutAtLast?]
  | cons c rest ih =>
    rw [cutAtLast?, List.mem_cons, not_or, ← ih]
    split
    next h => simp [h]
    next h => simp [h, eq_comm]

/-- A character of plain digits, `0` to `9`. -/
def isDigit (c : Char) : Bool := '0' ≤ c && c ≤ '9'

end Text

end ArgGuard
