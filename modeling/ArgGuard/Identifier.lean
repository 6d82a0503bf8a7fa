import ArgGuard.Text.Basic
import ArgGuard.Unicode.Word

/-!
# Identifiers

An identifier starts with an ASCII letter or an underscore and goes on with word characters.
Reading one always takes the longest, so it ends at a word boundary.
-/

namespace ArgGuard.Identifier

/-- The characters an identifier may start with. -/
def isStart (c : Char) : Bool := c.isAlpha || c = '_'

/-- An identifier starts with a word character. -/
theorem isWord_of_isStart {c : Char} (h : isStart c) : Unicode.isWord c := by
  have hascii : c.toNat < 0x80 := by
    delta isStart Char.isAlpha Char.isUpper Char.isLower at h
    simp only [Bool.or_eq_true, Bool.and_eq_true, decide_eq_true_eq] at h
    rcases h with (⟨-, h⟩ | ⟨-, h⟩) | rfl
    · exact Nat.lt_of_le_of_lt (UInt32.le_iff_toNat_le.1 h) (by decide)
    · exact Nat.lt_of_le_of_lt (UInt32.le_iff_toNat_le.1 h) (by decide)
    · decide
  simp only [isStart, Bool.or_eq_true] at h
  rw [Unicode.isWord, if_pos hascii, Char.isAlphanum]
  rcases h with h | h <;> simp [h]

/-- The characters of a text up to its first non-word character, and the others. -/
def spanWord (s : Text) : Text × Text := (s.takeWhile Unicode.isWord, s.dropWhile Unicode.isWord)

/-- Read the longest identifier in front of a text. -/
def read? : Text → Option (Text × Text)
  | c :: rest =>
    if isStart c then
      let (word, after) := spanWord rest
      some (c :: word, after)
    else none
  | [] => none

/-- A text that is one identifier, such as a hash key that needs no quotes. -/
def isBareword : Text → Bool
  | c :: rest => isStart c && rest.all Unicode.isWord
  | [] => false

end ArgGuard.Identifier
