import ArgGuard.Json.Outline
import ArgGuard.Proofs.Sequences
import ArgGuard.Proofs.Spans
import Mathlib.Tactic.SplitIfs

/-!
# Scalars in front of a text

Reading a constant, a number or a string takes its characters from the front of a text and leaves
the rest. What stands behind these characters does not matter, unless a number goes on there.
-/

namespace ArgGuard.Json

/-- The characters with which a number may go on. -/
def isNumeric (c : Char) : Bool := Text.isDigit c || c = '.' || c = 'e' || c = 'E'

/-- A text with which no number goes on. -/
abbrev EndsNumber (t : Text) : Prop := Text.StopsAt isNumeric t

section Strings

variable {collected s t rest value : Text} {fault : Fault}

/-- A character that is no backslash stands for itself, also where the string might end. -/
theorem ne_backslash {c : Char} {s : Text} (hend : c = '\\' → s = [] → False)
    (hpair : ∀ (d : Char) (r : List Char), c = '\\' → s = d :: r → False) : c ≠ '\\' := by
  intro hc
  cases s with
  | nil => exact hend hc rfl
  | cons d r => exact hpair d r hc rfl

/-- A character that stands for itself is collected. -/
theorem readString_cons {c : Char} (hq : c ≠ '"') (hb : c ≠ '\\') (collected s : Text) :
    readString collected (c :: s) =
      if c.toNat < 32 then .error .controlCharacter else readString (c :: collected) s := by
  rw [readString]
  · simpa using hq
  · simp [hb]
  · simp [hb]
  · simp [hb]
  · simp [hb]

/-- A character that stands for itself is skipped. -/
theorem skipString_cons {c : Char} (hq : c ≠ '"') (hb : c ≠ '\\') (s : Text) :
    skipString (c :: s) = if c.toNat < 32 then .error .controlCharacter else skipString s := by
  rw [skipString]
  · simpa using hq
  · simp [hb]
  · simp [hb]
  · simp [hb]
  · simp [hb]

/-- A string is read alike whatever stands behind it. -/
theorem readString_append (h : readString collected s = .ok (value, rest)) :
    readString collected (s ++ t) = .ok (value, rest ++ t) := by
  fun_induction readString collected s with
  | case18 collected c s hq _ _ hend hpair hc ih =>
    rw [List.cons_append, readString_cons hq (ne_backslash hend hpair), if_neg hc, ih h]
  | _ => simp_all [readString]

/-- A string is skipped alike whatever stands behind it. -/
theorem skipString_append (h : skipString s = .ok rest) :
    skipString (s ++ t) = .ok (rest ++ t) := by
  fun_induction skipString s with
  | case10 c s hq _ _ hend hpair hc ih =>
    rw [List.cons_append, skipString_cons hq (ne_backslash hend hpair), if_neg hc, ih h]
  | _ => simp_all [skipString]

/-- A string that can be skipped only is read with the same fault whatever stands behind it. -/
theorem readString_append_of_error (h : readString collected s = .error fault)
    (hs : skipString s = .ok rest) : readString collected (s ++ t) = .error fault := by
  fun_induction readString collected s with
  | case11 collected a b c d after code hcode hlow hhigh _ hpair hnil hone =>
    -- No second half follows, and what follows is more than the start of one.
    rw [← h]
    rcases after with _ | ⟨x, _ | ⟨y, after⟩⟩
    · exact absurd rfl hnil
    · have hx : x ≠ '\\' := fun e => hone (by rw [e])
      simp [readString, hcode, hlow, hhigh, hx]
    · have hxy : x = '\\' → y ≠ 'u' := fun e e' => hpair after (by rw [e, e'])
      simp only [List.cons_append, readString, hcode, hlow, hhigh]
      split <;> simp_all
  | case18 collected c s hq _ _ hend hpair hc ih =>
    rw [skipString_cons hq (ne_backslash hend hpair), if_neg hc] at hs
    rw [List.cons_append, readString_cons hq (ne_backslash hend hpair), if_neg hc, ih h hs]
  | _ => simp_all [readString, skipString]

/-- A string takes at least its closing quote. -/
theorem length_lt_of_readString (h : readString collected s = .ok (value, rest)) :
    rest.length < s.length := by
  fun_induction readString collected s <;> simp_all <;> omega

/-- Skipping a string takes at least its closing quote. -/
theorem length_lt_of_skipString (h : skipString s = .ok rest) : rest.length < s.length := by
  fun_induction skipString s <;> simp_all <;> omega

/-- A string after its opening quote is found alike whatever stands behind it. -/
theorem string?_append {name : Except Fault Text} (h : string? s = .ok (name, rest)) :
    string? (s ++ t) = .ok (name, rest ++ t) := by
  unfold string? at h ⊢
  cases hr : readString [] s with
  | ok read =>
    obtain ⟨value, behind⟩ := read
    simp only [hr, Except.ok.injEq, Prod.mk.injEq] at h
    obtain ⟨rfl, rfl⟩ := h
    rw [readString_append hr]
  | error fault =>
    cases hs : skipString s with
    | ok behind =>
      simp only [hr, hs, Except.ok.injEq, Prod.mk.injEq] at h
      obtain ⟨rfl, rfl⟩ := h
      rw [readString_append_of_error hr hs, skipString_append hs]
    | error skipped => simp [hr, hs] at h

/-- A string after its opening quote takes at least its closing one. -/
theorem length_lt_of_string? {name : Except Fault Text} (h : string? s = .ok (name, rest)) :
    rest.length < s.length := by
  unfold string? at h
  split at h
  next value behind hr =>
    obtain ⟨-, rfl⟩ := Prod.mk.inj (Except.ok.inj h)
    exact length_lt_of_readString hr
  next fault behind hr hs =>
    obtain ⟨-, rfl⟩ := Prod.mk.inj (Except.ok.inj h)
    exact length_lt_of_skipString hs
  next => simp at h

end Strings

section Numbers

variable {s t rest : Text}

/-- Digits do not go on where numbers do not. -/
theorem EndsNumber.stopsAt_isDigit (ht : EndsNumber t) : Text.StopsAt Text.isDigit t := by
  intro c hc
  have hno := ht c hc
  simp only [isNumeric, Bool.or_eq_false_iff] at hno
  exact hno.1.1.1

/-- Digits in front of a text are cut alike whatever stands behind, unless digits go on there. -/
theorem spanDigits_append (ht : EndsNumber t) :
    spanDigits (s ++ t) = ((spanDigits s).1, (spanDigits s).2 ++ t) := by
  obtain ⟨digits, hall, hs, hstop⟩ := Text.dropWhile_eq_iff.1 (rfl : s.dropWhile Text.isDigit = _)
  have htake : s.takeWhile Text.isDigit = digits := by
    rw [hs, Text.takeWhile_append_eq hall hstop]
  have hrest := hstop.append ht.stopsAt_isDigit
  have happend : s ++ t = digits ++ (s.dropWhile Text.isDigit ++ t) := by
    rw [← List.append_assoc, ← hs]
  rw [spanDigits, spanDigits, htake, happend, Text.takeWhile_append_eq hall hrest,
    Text.dropWhile_eq_iff.2 ⟨digits, hall, rfl, hrest⟩]

/-- Digits in front of a text leave the shorter a text. -/
theorem length_spanDigits (s : Text) :
    (spanDigits s).1.length + (spanDigits s).2.length = s.length := by
  rw [spanDigits, ← List.length_append, List.takeWhile_append_dropWhile]

/-- The digits before the point are read alike whatever stands behind. -/
theorem readWhole_append (ht : EndsNumber t) {whole : Text} (h : readWhole s = .ok (whole, rest)) :
    readWhole (s ++ t) = .ok (whole, rest ++ t) ∧ rest.length < s.length := by
  unfold readWhole at h
  split at h
  next =>
    -- A zero stands alone, so the next character matters.
    split at h
    next c _ =>
      split at h
      next => simp at h
      next hc =>
        obtain ⟨rfl, rfl⟩ := Prod.mk.inj (Except.ok.inj h)
        exact ⟨by simp [readWhole, hc], by simp⟩
    next =>
      obtain ⟨rfl, rfl⟩ := Prod.mk.inj (Except.ok.inj h)
      cases t with
      | nil => exact ⟨rfl, by simp⟩
      | cons c t => exact ⟨by simp [readWhole, ht.stopsAt_isDigit c rfl], by simp⟩
  next hzero =>
    simp only [] at h
    split at h
    next => simp at h
    next hne =>
      obtain ⟨rfl, rfl⟩ := Prod.mk.inj (Except.ok.inj h)
      have hlength := length_spanDigits s
      have hpos : 0 < (spanDigits s).1.length := List.length_pos_iff.2 (by simpa using hne)
      refine ⟨?_, by omega⟩
      rw [readWhole, spanDigits_append ht]
      · simp [hne]
      · intro behind hs
        cases s with
        | nil => simp [spanDigits] at hne
        | cons c s => exact hzero s (by rw [(List.cons.inj hs).1])

/-- The digits behind a point are read alike whatever stands behind. -/
theorem readFraction_append (ht : EndsNumber t) {fraction : Option Text}
    (h : readFraction s = .ok (fraction, rest)) :
    readFraction (s ++ t) = .ok (fraction, rest ++ t) ∧ rest.length ≤ s.length := by
  unfold readFraction at h
  split at h
  next s =>
    simp only [] at h
    split at h
    next => simp at h
    next hne =>
      obtain ⟨rfl, rfl⟩ := Prod.mk.inj (Except.ok.inj h)
      have hlength := length_spanDigits s
      refine ⟨?_, by simp; omega⟩
      rw [List.cons_append, readFraction, spanDigits_append ht]
      simp [hne]
  next hpoint =>
    obtain ⟨rfl, rfl⟩ := Prod.mk.inj (Except.ok.inj h)
    refine ⟨?_, Nat.le_refl _⟩
    rw [readFraction]
    intro behind hs
    cases s with
    | nil => exact absurd (ht '.' (by rw [List.nil_append] at hs; rw [hs]; rfl)) (by decide)
    | cons c s => exact hpoint s (by rw [(List.cons.inj hs).1])

/-- A sign in front of digits is read alike whatever stands behind. -/
theorem readSign_append (hs : (spanDigits (readSign s).2).1 ≠ []) :
    readSign (s ++ t) = ((readSign s).1, (readSign s).2 ++ t) := by
  cases s with
  | nil => simp [readSign, spanDigits] at hs
  | cons c s =>
    unfold readSign
    split <;> simp_all

/-- A sign leaves the shorter a text. -/
theorem length_readSign (s : Text) : (readSign s).2.length ≤ s.length := by
  unfold readSign
  split <;> simp

/-- A power of ten is read alike whatever stands behind. -/
theorem readExponent_append (ht : EndsNumber t) {exponent : Option Int}
    (h : readExponent s = .ok (exponent, rest)) :
    readExponent (s ++ t) = .ok (exponent, rest ++ t) ∧ rest.length ≤ s.length := by
  cases s with
  | nil =>
    obtain ⟨rfl, rfl⟩ := Prod.mk.inj (Except.ok.inj h)
    cases t with
    | nil => exact ⟨rfl, Nat.le_refl _⟩
    | cons c t =>
      have hno := ht c rfl
      simp only [isNumeric, Bool.or_eq_false_iff, decide_eq_false_iff_not] at hno
      exact ⟨by simp [readExponent, hno.1.2, hno.2], Nat.le_refl _⟩
  | cons c s =>
    rw [List.cons_append, readExponent]
    rw [readExponent] at h
    split at h
    next hc =>
      simp only [] at h
      split at h
      next => simp at h
      next hne =>
        obtain ⟨rfl, rfl⟩ := Prod.mk.inj (Except.ok.inj h)
        have hlength := length_spanDigits (readSign s).2
        have hsign := length_readSign s
        refine ⟨?_, by simp; omega⟩
        rw [if_pos hc, readSign_append (by simpa using hne)]
        simp [spanDigits_append ht, hne]
    next hc =>
      obtain ⟨rfl, rfl⟩ := Prod.mk.inj (Except.ok.inj h)
      exact ⟨if_neg hc, Nat.le_refl _⟩

/-- A number is read alike whatever stands behind, unless the number goes on there. -/
theorem readNumeral_append (ht : EndsNumber t) {negative : Bool} {numeral : Numeral}
    (h : readNumeral negative s = .ok (numeral, rest)) :
    readNumeral negative (s ++ t) = .ok (numeral, rest ++ t) ∧ rest.length < s.length := by
  simp only [readNumeral, bind_eq_ok_iff, pure_eq_ok_iff, Prod.exists, Prod.mk.injEq] at h ⊢
  obtain ⟨whole, s₁, hwhole, fraction, s₂, hfraction, exponent, s₃, hexponent, rfl, rfl⟩ := h
  obtain ⟨hw, hlw⟩ := readWhole_append ht hwhole
  obtain ⟨hf, hlf⟩ := readFraction_append ht hfraction
  obtain ⟨he, hle⟩ := readExponent_append ht hexponent
  exact ⟨⟨_, _, hw, _, _, hf, _, _, he, rfl, rfl⟩, by omega⟩

end Numbers

section Fronts

variable {s t rest : Text}

/-- White space is skipped alike whatever stands behind, if there is something else. -/
theorem skipSpace_append {c : Char} (h : skipSpace s = c :: rest) :
    skipSpace (s ++ t) = c :: rest ++ t := by
  obtain ⟨space, hspace, rfl, hstop⟩ := Text.dropWhile_eq_iff.1 h
  exact Text.dropWhile_eq_iff.2 ⟨space, hspace, by simp, Text.stopsAt_cons (hstop c rfl) _⟩

/-- White space leaves the shorter a text. -/
theorem length_skipSpace (s : Text) : (skipSpace s).length ≤ s.length :=
  (List.dropWhile_suffix _).length_le

namespace Front

/-- The text behind a front. -/
def behind : Front → Text
  | scalar _ rest => rest
  | openList rest => rest
  | openObject rest => rest
  | broken _ _ => []

/-- A front with more text behind it; nothing is behind a break. -/
def append (t : Text) : Front → Front
  | scalar leaf rest => scalar leaf (rest ++ t)
  | openList rest => openList (rest ++ t)
  | openObject rest => openObject (rest ++ t)
  | broken start gap => broken start gap

/-- A front at which the text does not break off. -/
def IsWhole (f : Front) : Prop := ∀ start gap, f ≠ broken start gap

end Front

/-- A constant is read alike whatever stands behind. -/
theorem readWord_append {start : Char} {letters : Text} {word : Scalar}
    (h : (readWord start letters word s).IsWhole) :
    readWord start letters word (s ++ t) = (readWord start letters word s).append t ∧
      (readWord start letters word s).behind.length ≤ s.length := by
  induction letters generalizing s with
  | nil => exact ⟨rfl, Nat.le_refl _⟩
  | cons expected letters ih =>
    cases s with
    | nil => exact absurd rfl (h start (.both .endInValue))
    | cons c s =>
      rw [List.cons_append, readWord, readWord]
      rw [readWord] at h
      split
      next hc =>
        obtain ⟨happend, hlength⟩ := ih (by rwa [if_pos hc] at h)
        exact ⟨happend, Nat.le_succ_of_le hlength⟩
      next hc =>
        rw [if_neg hc] at h
        exact absurd rfl (h start (.both .wordExpected))

/-- A number is found alike whatever stands behind, unless the number goes on there. -/
theorem readNumber_append (ht : EndsNumber t) {start : Char} {negative : Bool}
    (h : (readNumber start negative s).IsWhole) :
    readNumber start negative (s ++ t) = (readNumber start negative s).append t ∧
      (readNumber start negative s).behind.length < s.length := by
  unfold readNumber at h ⊢
  cases hread : readNumeral negative s with
  | error gap =>
    rw [hread] at h
    exact absurd rfl (h start gap)
  | ok found =>
    obtain ⟨numeral, rest⟩ := found
    obtain ⟨happend, hlength⟩ := readNumeral_append ht hread
    rw [happend]
    exact ⟨rfl, hlength⟩

/-- What stands in front of a text is found alike whatever stands behind, unless a number goes on
there. -/
theorem Front.ofText_append (ht : EndsNumber t) (h : (ofText s).IsWhole) :
    ofText (s ++ t) = (ofText s).append t ∧ (ofText s).behind.length < s.length := by
  unfold ofText at h ⊢
  cases hs : skipSpace s with
  | nil =>
    rw [hs] at h
    exact absurd rfl (h none (.both .endInValue))
  | cons c inside =>
    have hlength := length_skipSpace s
    rw [hs, List.length_cons] at hlength
    rw [skipSpace_append hs]
    simp only [hs, List.cons_append] at h ⊢
    split_ifs at h ⊢
    · obtain ⟨happend, hrest⟩ := readWord_append (t := t) h
      exact ⟨happend, by omega⟩
    · obtain ⟨happend, hrest⟩ := readWord_append (t := t) h
      exact ⟨happend, by omega⟩
    · obtain ⟨happend, hrest⟩ := readWord_append (t := t) h
      exact ⟨happend, by omega⟩
    · cases hstring : string? inside with
      | error gap =>
        rw [hstring] at h
        exact absurd rfl (h c gap)
      | ok found =>
        obtain ⟨value, rest⟩ := found
        rw [string?_append hstring]
        have hrest := length_lt_of_string? hstring
        exact ⟨rfl, by simp only [behind]; omega⟩
    · exact ⟨rfl, by simp only [behind]; omega⟩
    · exact ⟨rfl, by simp only [behind]; omega⟩
    · obtain ⟨happend, hrest⟩ := readNumber_append ht h
      exact ⟨happend, by omega⟩
    · obtain ⟨happend, hrest⟩ := readNumber_append ht h
      exact ⟨happend, by simp only [List.length_cons] at hrest; omega⟩
    · exact absurd rfl (h c (.both .valueExpected))

end Fronts

end ArgGuard.Json
