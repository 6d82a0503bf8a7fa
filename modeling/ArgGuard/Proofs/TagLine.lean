import ArgGuard.LineKind
import Mathlib.Data.List.Basic

/-!
# Tag lines

A tag line is blanks, the word `my`, and code that ends with a semicolon in front of the last
`#` of the line. Code that does not end with a semicolon takes this away: put in front of the
tag, it leaves a line to which a scan does not react.
-/

namespace ArgGuard

namespace Text

/-- A cut is around the last occurrence of the character. -/
theorem cutAtLast?_eq_some_iff {mark : Char} {s before after : Text} :
    cutAtLast? mark s = some (before, after) ↔
      ∃ rest, after = mark :: rest ∧ mark ∉ rest ∧ s = before ++ after := by
  induction s generalizing before with
  | nil =>
    simp only [cutAtLast?, reduceCtorEq, false_iff]
    rintro ⟨rest, rfl, -, hs⟩
    simp at hs
  | cons c s ih =>
    rw [cutAtLast?]
    cases hcut : cutAtLast? mark s with
    | some parts =>
      obtain ⟨front, back⟩ := parts
      simp only [Option.some.injEq, Prod.mk.injEq]
      constructor
      · rintro ⟨rfl, rfl⟩
        obtain ⟨rest, he, hn, hs⟩ := ih.1 hcut
        exact ⟨rest, he, hn, by rw [hs, List.cons_append]⟩
      · rintro ⟨rest, rfl, hn, hs⟩
        cases before with
        | nil =>
          -- The character comes again behind the first, so that is not the last one.
          have hmem : mark ∈ s := by
            by_contra hno
            rw [cutAtLast?_eq_none_iff.2 hno] at hcut
            simp at hcut
          simp only [List.nil_append, List.cons.injEq] at hs
          exact absurd (hs.2 ▸ hmem) hn
        | cons d before =>
          simp only [List.cons_append, List.cons.injEq] at hs
          obtain ⟨rfl, hs⟩ := hs
          have hparts := ih.2 ⟨rest, rfl, hn, hs⟩
          rw [hcut] at hparts
          simp_all
    | none =>
      have hno := cutAtLast?_eq_none_iff.1 hcut
      by_cases hc : c = mark
      · simp only [hc, if_true, Option.some.injEq, Prod.mk.injEq]
        constructor
        · rintro ⟨rfl, rfl⟩
          exact ⟨s, rfl, hno, rfl⟩
        · rintro ⟨rest, rfl, -, hs⟩
          cases before with
          | nil => exact ⟨rfl, hs⟩
          | cons d before =>
            simp only [List.cons_append, List.cons.injEq] at hs
            exact absurd (by simp [hs.2]) hno
      · simp only [hc, if_false, reduceCtorEq, false_iff]
        rintro ⟨rest, rfl, -, hs⟩
        have hmem : mark ∈ c :: s := by rw [hs]; simp
        rcases List.mem_cons.1 hmem with rfl | hmem
        · exact hc rfl
        · exact hno hmem

/-- Skipping at least one blank leaves an end of the text. -/
theorem skipBlanks?_suffix {s rest : Text} (h : skipBlanks? s = some rest) : rest <:+ s := by
  cases s with
  | nil => simp [skipBlanks?] at h
  | cons c s =>
    rw [skipBlanks?] at h
    split at h
    next =>
      obtain rfl := Option.some.inj h
      exact (List.dropWhile_suffix _).trans (List.suffix_cons c s)
    next => simp at h

end Text

namespace Identifier

/-- What is read and what is left make up the text, and what is read is an identifier. -/
theorem read?_eq_some {s name rest : Text} (h : read? s = some (name, rest)) :
    s = name ++ rest ∧ isBareword name := by
  cases s with
  | nil => simp [read?] at h
  | cons c s =>
    rw [read?] at h
    split at h
    next hc =>
      simp only [spanWord, Option.some.injEq, Prod.mk.injEq] at h
      obtain ⟨rfl, rfl⟩ := h
      refine ⟨by simp, ?_⟩
      simp [isBareword, hc]
    next => simp at h

end Identifier

namespace Tag

/-- The parts that a tag is read from. -/
theorem ofLine?_eq_some {line : Text} {t : Tag} (h : ofLine? line = some t) :
    Text.cutAtLast? '#' line = some (t.lead, t.comment) ∧
      declaration? t.lead = some (t.sigil, t.name) ∧
      keyword? t.comment = some (t.scope, t.explicit) := by
  simp only [ofLine?, Option.bind_eq_bind, Option.bind_eq_some_iff, Option.pure_def,
    Option.some.injEq] at h
  obtain ⟨⟨lead, comment⟩, hcut, ⟨sigil, name⟩, hdecl, ⟨scope, explicit⟩, hkey, rfl⟩ := h
  exact ⟨hcut, hdecl, hkey⟩

/-- The code in front of a tag and the tag itself make up the line. -/
theorem lead_append_comment {line : Text} {t : Tag} (h : ofLine? line = some t) :
    t.lead ++ t.comment = line :=
  Text.append_of_cutAtLast? (ofLine?_eq_some h).1

/-- What a declaration is read from: the word `my` behind blanks, and text that ends a
declaration. -/
theorem declaration?_eq_some {lead : Text} {sigil : Sigil} {name : Text}
    (h : declaration? lead = some (sigil, name)) :
    (∃ after, Text.skipBlanks lead = 'm' :: 'y' :: after) ∧
      (∃ rest initial, rest <:+ lead ∧ dropSemicolon? rest = some initial) ∧
      Identifier.isBareword name := by
  simp only [declaration?, Option.bind_eq_bind, Option.bind_eq_some_iff] at h
  obtain ⟨afterMy, hmy, start, hstart, sigil', hsigil, ⟨name', rest⟩, hread, initial, hsemi,
    hinit⟩ := h
  obtain rfl : name' = name := by
    split at hinit <;> simp_all
  have hlead : Text.skipBlanks lead = 'm' :: 'y' :: afterMy :=
    (List.append_eq_of_isPrefixOf?_eq_some hmy).symm
  obtain ⟨hs, hword⟩ := Identifier.read?_eq_some hread
  refine ⟨⟨afterMy, hlead⟩, ⟨rest, initial, ?_, hsemi⟩, hword⟩
  have hrest : rest <:+ start := (hs ▸ List.suffix_append name' rest).trans (List.tail_suffix start)
  have hafter : afterMy <:+ Text.skipBlanks lead := by
    rw [hlead]
    exact List.suffix_append ['m', 'y'] afterMy
  exact hrest.trans ((Text.skipBlanks?_suffix hstart).trans
    (hafter.trans (List.dropWhile_suffix _)))

/-- Text that ends with a brace and a space does not end a declaration, and no end of it
does. -/
theorem dropSemicolon?_eq_none {s rest : Text} (hs : ∃ front, s = front ++ ['\x7d', ' '])
    (hrest : rest <:+ s) : dropSemicolon? rest = none := by
  obtain ⟨front, rfl⟩ := hs
  have hrev : rest.reverse <+: ' ' :: '\x7d' :: front.reverse := by
    simpa using List.reverse_prefix.2 hrest
  have htrim : (Text.trimBlanksEnd rest).reverse = rest.reverse.dropWhile Text.isBlank := by
    simp [Text.trimBlanksEnd]
  rw [dropSemicolon?, htrim]
  cases hr : rest.reverse with
  | nil => rfl
  | cons c more =>
    rw [hr, List.cons_prefix_cons] at hrev
    obtain ⟨rfl, hmore⟩ := hrev
    cases more with
    | nil => rfl
    | cons d more =>
      obtain ⟨rfl, -⟩ := List.cons_prefix_cons.1 hmore
      rfl

/-- Code that ends with a brace in front of a tag takes the tag away. -/
theorem ofLine?_eq_none_of_code {line code : Text} {t : Tag} (h : ofLine? line = some t)
    (hcode : ∃ front, code = front ++ ['\x7d', ' ']) :
    ofLine? (t.lead ++ code ++ t.comment) = none := by
  obtain ⟨rest, hcomment, hno, -⟩ := Text.cutAtLast?_eq_some_iff.1 (ofLine?_eq_some h).1
  have hcut : Text.cutAtLast? '#' (t.lead ++ code ++ t.comment) =
      some (t.lead ++ code, t.comment) :=
    Text.cutAtLast?_eq_some_iff.2 ⟨rest, hcomment, hno, rfl⟩
  cases hnew : ofLine? (t.lead ++ code ++ t.comment) with
  | none => rfl
  | some t' =>
    obtain ⟨hcut', hdecl, -⟩ := ofLine?_eq_some hnew
    rw [hcut] at hcut'
    obtain ⟨hlead, -⟩ : t.lead ++ code = t'.lead ∧ t.comment = t'.comment := by simpa using hcut'
    obtain ⟨-, ⟨end', initial, hend, hsemi⟩, -⟩ := declaration?_eq_some hdecl
    obtain ⟨front, rfl⟩ := hcode
    have hnone := dropSemicolon?_eq_none ⟨t.lead ++ front, by simp [← hlead]⟩ hend
    rw [hsemi] at hnone
    simp at hnone

end Tag

namespace LineKind

/-- A line that is taken as a tag line has a tag. -/
theorem ofLine?_of_ofLine_eq_tag {line : Text} {t : Tag} (h : ofLine line = .tag t) :
    Tag.ofLine? line = some t := by
  unfold ofLine at h
  split at h
  next => simp at h
  next =>
    split at h
    next => simp at h
    next =>
      split at h
      next => simp at h
      next =>
        split at h
        next => simp at h
        next =>
          split at h
          next => simp at h
          next =>
            split at h
            next t' ht => rw [ht, LineKind.tag.inj h]
            next => simp at h

/-- No word with another first character is in front. -/
theorem isPrefixOf?_eq_none {word s : Text} {c d : Char} (hw : word.head? = some c)
    (hs : s.head? = some d) (hne : c ≠ d) : List.isPrefixOf? word s = none := by
  cases hp : List.isPrefixOf? word s with
  | none => rfl
  | some rest =>
    rw [← List.append_eq_of_isPrefixOf?_eq_some hp, List.head?_append, hw] at hs
    exact absurd (by simpa using hs) hne

/-- A line that starts with `my` behind blanks is a tag line or none that counts. -/
theorem ofLine_eq_other_of_my {line after : Text}
    (hmy : Text.skipBlanks line = 'm' :: 'y' :: after) (ht : Tag.ofLine? line = none) :
    ofLine line = .other := by
  have hhead : ∃ c, line.head? = some c ∧ '=' ≠ c ∧ '_' ≠ c := by
    cases line with
    | nil => simp [Text.skipBlanks] at hmy
    | cons c line =>
      refine ⟨c, rfl, ?_, ?_⟩ <;> rintro rfl <;>
        simp [Text.skipBlanks, Text.isBlank] at hmy
  obtain ⟨c, hc, heq, hunderscore⟩ := hhead
  have hcloses : closesDoc line = false := by
    rw [closesDoc, isPrefixOf?_eq_none rfl hc heq]
  have hopens : opensDoc line = false := by
    unfold opensDoc
    split
    next d rest => exact absurd (by simpa using hc) heq
    next => rfl
  have hends : endsCode line = false := by
    have hend : List.isPrefixOf? ("__END__" : Text) line = none :=
      isPrefixOf?_eq_none rfl hc hunderscore
    have hdata : List.isPrefixOf? ("__DATA__" : Text) line = none :=
      isPrefixOf?_eq_none rfl hc hunderscore
    simp only [endsCode, List.any_cons, List.any_nil, hend, hdata]
    rfl
  have hblanks : (Text.skipBlanks line).head? = some 'm' := by rw [hmy, List.head?_cons]
  have hpackage : declaredPackage? line = none := by
    rw [declaredPackage?, isPrefixOf?_eq_none rfl hblanks (by decide)]
    rfl
  have hsub : declaredFunction? line = none := by
    rw [declaredFunction?, isPrefixOf?_eq_none rfl hblanks (by decide)]
    rfl
  simp [ofLine, hcloses, hopens, hends, hpackage, hsub, ht]

/-- A tag line with code in front of its tag is no line that counts any more. -/
theorem ofLine_code_before_tag {line code : Text} {t : Tag} (h : ofLine line = .tag t)
    (hcode : ∃ front, code = front ++ ['\x7d', ' ']) :
    ofLine (t.lead ++ code ++ t.comment) = .other := by
  have ht := ofLine?_of_ofLine_eq_tag h
  obtain ⟨⟨after, hafter⟩, -, -⟩ := Tag.declaration?_eq_some (Tag.ofLine?_eq_some ht).2.1
  have hmy : Text.skipBlanks (t.lead ++ code ++ t.comment) =
      'm' :: 'y' :: (after ++ code ++ t.comment) := by
    unfold Text.skipBlanks at hafter ⊢
    rw [List.append_assoc, List.dropWhile_append, hafter]
    simp
  exact ofLine_eq_other_of_my hmy (Tag.ofLine?_eq_none_of_code ht hcode)

end LineKind

end ArgGuard
