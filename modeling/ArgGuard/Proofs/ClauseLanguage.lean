import ArgGuard.Proofs.Checks
import ArgGuard.Proofs.Integers
import Mathlib.Algebra.Group.Nat.Even

/-!
# The language of clauses

A clause of a schema applies to some types, and for these it takes some values. A clause that is
given to another type is not supported, and a value that it does not take is refused for the first
thing that is wrong with it.
-/

namespace ArgGuard

namespace SchemaType

/-- The types with values that are compared. -/
def IsOrdered (type : SchemaType) : Prop := type = .int ∨ type = .float ∨ type = .str

/-- The types with values that have a length. -/
def HasLength (type : SchemaType) : Prop := type = .str ∨ type = .array ∨ type = .hash

/-- The values with which data of a type is compared: numbers with numbers, strings with texts. -/
inductive Compares : SchemaType → Json.Value → Prop
  /-- An integer is compared with any number. -/
  | int (n : Json.Number) : Compares .int (.number n)
  /-- A number is compared with any number. -/
  | float (n : Json.Number) : Compares .float (.number n)
  /-- A text is compared with any string. -/
  | str (s : Text) : Compares .str (.string s)

/-- Why data of a type is not compared with a value. -/
def incomparable (type : SchemaType) (value : Json.Value) : Text :=
  value.compact ++ " cannot be compared with type '" ++ type.name ++ "'"

end SchemaType

namespace Text

/-- How many backslashes end a text. -/
def closingBackslashes (s : Text) : Nat := (s.reverse.takeWhile (· = '\\')).length

end Text

namespace Clause

/-- The names of clauses in a schema. -/
inductive Named : Text → Clause → Prop
  /-- At least a value. -/
  | min : Named "min" (.bound .min)
  /-- At most a value. -/
  | max : Named "max" (.bound .max)
  /-- More than a value. -/
  | xmin : Named "xmin" (.bound .above)
  /-- Less than a value. -/
  | xmax : Named "xmax" (.bound .below)
  /-- Between two values. -/
  | between : Named "between" .between
  /-- At least as long. -/
  | minLen : Named "min_len" (.length .min)
  /-- At most as long. -/
  | maxLen : Named "max_len" (.length .max)
  /-- Exactly as long. -/
  | len : Named "len" (.length .exact)
  /-- One of some values. -/
  | oneOf : Named "in" .oneOf
  /-- Matching a pattern. -/
  | matching : Named "match" .matching

/-- The types to which a clause applies. -/
def AppliesTo (type : SchemaType) : Clause → Prop
  | bound _ | between | oneOf => type.IsOrdered
  | length _ => type.HasLength
  | matching => type = .str

/-- The values that a clause takes for a type. -/
inductive Takes (type : SchemaType) : Clause → Json.Value → Prop
  /-- A limit on one side is a value to compare with. -/
  | bound {bound : Bound} {value : Json.Value} (hv : type.Compares value) :
      Takes type (.bound bound) value
  /-- A limit on either side is two of them. -/
  | between {low high : Json.Value} (hl : type.Compares low) (hh : type.Compares high) :
      Takes type .between (.array [low, high])
  /-- A length is an integer from 0 up to `2 ^ 64 - 1`. -/
  | length {test : LengthTest} {n : Nat} (ht : type.HasLength) (hn : n < 2 ^ 64) :
      Takes type (.length test) (.number (.int n))
  /-- The allowed values are values to compare with. -/
  | oneOf {items : List Json.Value} (ht : type.IsOrdered)
      (hi : ∀ item ∈ items, type.Compares item) : Takes type .oneOf (.array items)
  /-- A pattern stands on one line and does not end inside an escape pair. -/
  | matching {pattern : Text} (ht : type = .str) (hn : '\n' ∉ pattern) (hr : '\r' ∉ pattern)
      (hb : Even pattern.closingBackslashes) : Takes type .matching (.string pattern)

/-- The first thing that is wrong with a value for a clause that applies to a type. -/
inductive Refuses (type : SchemaType) : Clause → Json.Value → Text → Prop
  /-- A limit on one side that cannot be compared with. -/
  | bound {bound : Bound} {value : Json.Value} (hv : ¬ type.Compares value) :
      Refuses type (.bound bound) value (type.incomparable value)
  /-- A limit on either side that is not two values. -/
  | betweenShape {value : Json.Value} (hv : ∀ low high, value ≠ .array [low, high]) :
      Refuses type .between value "expected [min, max]"
  /-- A lower limit that cannot be compared with. -/
  | betweenLow {low high : Json.Value} (hl : ¬ type.Compares low) :
      Refuses type .between (.array [low, high]) (type.incomparable low)
  /-- An upper limit that cannot be compared with. -/
  | betweenHigh {low high : Json.Value} (hl : type.Compares low) (hh : ¬ type.Compares high) :
      Refuses type .between (.array [low, high]) (type.incomparable high)
  /-- A length that is no natural number. -/
  | length {test : LengthTest} {value : Json.Value} (hv : ∀ n : Nat, value ≠ .number (.int n)) :
      Refuses type (.length test) value "expected a non-negative integer"
  /-- Allowed values that are no list. -/
  | oneOfShape {value : Json.Value} (hv : ∀ items, value ≠ .array items) :
      Refuses type .oneOf value "expected a list"
  /-- The first of the allowed values that cannot be compared with. -/
  | oneOfItem {before after : List Json.Value} {item : Json.Value}
      (hb : ∀ i ∈ before, type.Compares i) (hi : ¬ type.Compares item) :
      Refuses type .oneOf (.array (before ++ item :: after)) (type.incomparable item)
  /-- A pattern that is no string. -/
  | matchingShape {value : Json.Value} (hv : ∀ pattern, value ≠ .string pattern) :
      Refuses type .matching value "expected a pattern string"
  /-- A pattern on several lines. -/
  | matchingLines {pattern : Text} (h : '\n' ∈ pattern ∨ '\r' ∈ pattern) :
      Refuses type .matching (.string pattern) "pattern must be a single line"
  /-- A pattern that ends inside an escape pair. -/
  | matchingEnd {pattern : Text} (hn : '\n' ∉ pattern) (hr : '\r' ∉ pattern)
      (hb : ¬ Even pattern.closingBackslashes) :
      Refuses type .matching (.string pattern) "pattern ends with a lone backslash"

/-- The clause of a name is the one with that name. -/
theorem ofName?_eq_some_iff {name : Text} {c : Clause} : ofName? name = some c ↔ Named name c := by
  constructor
  · intro h
    have hmem : (name, c) ∈ byName := by
      rw [ofName?, List.lookup_eq_some_iff] at h
      obtain ⟨before, after, hsplit, -⟩ := h
      simp [hsplit]
    simp only [byName, List.mem_cons, Prod.mk.injEq, List.not_mem_nil, or_false] at hmem
    rcases hmem with ⟨rfl, rfl⟩ | ⟨rfl, rfl⟩ | ⟨rfl, rfl⟩ | ⟨rfl, rfl⟩ | ⟨rfl, rfl⟩ | ⟨rfl, rfl⟩ |
      ⟨rfl, rfl⟩ | ⟨rfl, rfl⟩ | ⟨rfl, rfl⟩ | ⟨rfl, rfl⟩
    exacts [.min, .max, .xmin, .xmax, .between, .minLen, .maxLen, .len, .oneOf, .matching]
  · intro h
    cases h <;> rfl

/-- A name of no clause has no clause. -/
theorem ofName?_eq_none_iff {name : Text} : ofName? name = none ↔ ∀ c, ¬ Named name c := by
  simp only [← ofName?_eq_some_iff, Option.eq_none_iff_forall_ne_some, ne_eq]

end Clause

namespace Text

/-- The backslashes at the end of a text, from its front. -/
theorem closingBackslashes_cons (c : Char) (s : Text) :
    closingBackslashes (c :: s) =
      if closingBackslashes s = s.length then if c = '\\' then s.length + 1 else s.length
      else closingBackslashes s := by
  have hlength : (s.reverse.takeWhile (· = '\\')).length = s.reverse.length ↔
      closingBackslashes s = s.length := by rw [List.length_reverse, closingBackslashes]
  rw [closingBackslashes, List.reverse_cons, List.takeWhile_append]
  by_cases hall : closingBackslashes s = s.length
  · rw [if_pos (hlength.2 hall), if_pos hall]
    by_cases hc : c = '\\' <;> simp [hc]
  · rw [if_neg (mt hlength.1 hall), if_neg hall, closingBackslashes]

/-- At most all of a text are backslashes. -/
theorem closingBackslashes_le (s : Text) : closingBackslashes s ≤ s.length := by
  rw [← List.length_reverse]
  exact (List.takeWhile_prefix _).length_le

/-- An escape pair in front of a text changes nothing about how it ends. -/
theorem even_closingBackslashes_pair (c : Char) (s : Text) :
    Even (closingBackslashes ('\\' :: c :: s)) ↔ Even (closingBackslashes s) := by
  have hle := closingBackslashes_le s
  rw [closingBackslashes_cons, closingBackslashes_cons, List.length_cons]
  by_cases hall : closingBackslashes s = s.length
  · by_cases hc : c = '\\'
    · simp only [hall, hc, if_true]
      exact Nat.even_add_one.trans (by rw [Nat.even_add_one, not_not])
    · have hne : ¬ s.length = s.length + 1 := by omega
      simp only [hall, hc, if_true, if_false, hne]
  · have hne : ¬ closingBackslashes s = s.length + 1 := by omega
    simp only [hall, if_false, hne]

/-- A character other than a backslash changes nothing about how a text ends. -/
theorem closingBackslashes_of_ne {c : Char} (hc : c ≠ '\\') (s : Text) :
    closingBackslashes (c :: s) = closingBackslashes s := by
  rw [closingBackslashes_cons, if_neg hc]
  split
  next h => exact h.symm
  next => rfl

end Text

namespace Schema

/-- A pattern is put between slashes exactly if it does not end inside an escape pair. -/
theorem slashed?_eq_none_iff {pattern : Text} :
    slashed? pattern = none ↔ ¬ Even pattern.closingBackslashes := by
  fun_induction slashed? pattern with
  | case1 => simp [Text.closingBackslashes]
  | case2 => simp [Text.closingBackslashes]
  | case3 c rest ih =>
    rw [Text.even_closingBackslashes_pair, ← ih]
    cases slashed? rest <;> simp
  | case4 c rest hnone hpair ih =>
    have hc : c ≠ '\\' := by
      rintro rfl
      cases rest with
      | nil => exact hnone rfl rfl
      | cons next rest => exact hpair next rest rfl rfl
    rw [Text.closingBackslashes_of_ne hc, ← ih]
    cases slashed? rest with
    | none => simp
    | some body => simp [ite_eq_iff]

/-- A pattern that stands on one line and does not end inside an escape pair has a body. -/
theorem patternBody_of_even {pattern : Text} (hn : '\n' ∉ pattern) (hr : '\r' ∉ pattern)
    (hb : Even pattern.closingBackslashes) : ∃ body, patternBody pattern = .ok body := by
  obtain ⟨body, hbody⟩ := Option.ne_none_iff_exists'.1 (mt slashed?_eq_none_iff.1 (not_not.2 hb))
  exact ⟨body, by simp [patternBody, hn, hr, hbody]⟩

variable {type : SchemaType} {clause data : Text} {value : Json.Value}

/-- The literal of a value to compare with. -/
theorem literal_of_compares (clause : Text) (h : type.Compares value) :
    ∃ t, literal type clause value = .ok t := by
  cases h <;> exact ⟨_, rfl⟩

/-- A value that cannot be compared with has no literal. -/
theorem literal_of_not_compares (h : ¬ type.Compares value) :
    literal type clause value = .error (.clauseValue clause (type.incomparable value)) := by
  cases value with
  | number n =>
    cases type with
    | int => exact absurd (.int n) h
    | float => exact absurd (.float n) h
    | _ => rfl
  | string s =>
    cases type with
    | str => exact absurd (.str s) h
    | _ => rfl
  | _ => rfl

/-- The literals of values to compare with. -/
theorem literals_of_compares (clause : Text) {items : List Json.Value}
    (h : ∀ item ∈ items, type.Compares item) :
    ∃ ts, literals type clause items = .ok ts := by
  induction items with
  | nil => exact ⟨[], rfl⟩
  | cons item rest ih =>
    obtain ⟨hitem, hrest⟩ := List.forall_mem_cons.1 h
    obtain ⟨t, ht⟩ := literal_of_compares clause hitem
    obtain ⟨ts, hts⟩ := ih hrest
    exact ⟨t :: ts, by simp only [literals, ht, hts]; rfl⟩

/-- The first value that cannot be compared with tells why a list has no literals. -/
theorem literals_of_not_compares {before after : List Json.Value} {item : Json.Value}
    (hb : ∀ i ∈ before, type.Compares i) (hi : ¬ type.Compares item) :
    literals type clause (before ++ item :: after) =
      .error (.clauseValue clause (type.incomparable item)) := by
  induction before with
  | nil =>
    rw [List.nil_append, literals, literal_of_not_compares hi]
    rfl
  | cons first rest ih =>
    obtain ⟨hfirst, hrest⟩ := List.forall_mem_cons.1 hb
    obtain ⟨t, ht⟩ := literal_of_compares clause hfirst
    rw [List.cons_append, literals, ht, ih hrest]
    rfl

/-- The types with values that are compared have operators for it. -/
theorem isOrdered_iff (bound : Bound) :
    type.IsOrdered ↔ ∃ operator, type.operator? bound = some operator := by
  cases type <;> simp [SchemaType.IsOrdered, SchemaType.operator?]

/-- The types with values that are compared have one for equality. -/
theorem isOrdered_iff_equality :
    type.IsOrdered ↔ ∃ operator, type.equality? = some operator := by
  cases type <;> simp [SchemaType.IsOrdered, SchemaType.equality?]

/-- The types with values that have a length have an expression for it. -/
theorem hasLength_iff (data : Text) :
    type.HasLength ↔ ∃ length, type.length? data = some length := by
  cases type <;> simp [SchemaType.HasLength, SchemaType.length?]

variable {c : Clause}

/-- A name of no clause is not supported. -/
theorem clauseFailure_of_unknown (hc : ∀ c, ¬ Clause.Named clause c) :
    clauseFailure type clause value data = .error (.unsupportedClause type.name clause) := by
  simp only [clauseFailure, Clause.ofName?_eq_none_iff.2 hc]

/-- A clause that does not apply to a type is not supported. -/
theorem clauseFailure_of_not_appliesTo (hc : Clause.Named clause c) (ha : ¬ c.AppliesTo type) :
    clauseFailure type clause value data = .error (.unsupportedClause type.name clause) := by
  have hname := Clause.ofName?_eq_some_iff.2 hc
  cases c with
  | bound bound =>
    have hnone : type.operator? bound = none :=
      Option.eq_none_iff_forall_ne_some.2 fun operator h => ha ((isOrdered_iff _).2 ⟨operator, h⟩)
    simp only [clauseFailure, hname, hnone]
    rfl
  | between =>
    have hnone : type.operator? .min = none :=
      Option.eq_none_iff_forall_ne_some.2 fun operator h => ha ((isOrdered_iff _).2 ⟨operator, h⟩)
    simp only [clauseFailure, hname, hnone]
    rfl
  | length test =>
    have hnone : type.length? data = none :=
      Option.eq_none_iff_forall_ne_some.2 fun length h => ha ((hasLength_iff data).2 ⟨length, h⟩)
    simp only [clauseFailure, hname, hnone]
    rfl
  | oneOf =>
    have hnone : type.equality? = none :=
      Option.eq_none_iff_forall_ne_some.2 fun operator h =>
        ha (isOrdered_iff_equality.2 ⟨operator, h⟩)
    simp only [clauseFailure, hname, hnone]
    rfl
  | matching =>
    have htype : type ≠ .str := ha
    simp only [clauseFailure, hname, if_pos htype]
    rfl

/-- The values to compare with are those for a type that is compared. -/
theorem isOrdered_of_compares (h : type.Compares value) : type.IsOrdered := by
  cases h <;> simp [SchemaType.IsOrdered]

/-- A clause compiles with a value that it takes. -/
theorem clauseFailure_of_takes (hc : Clause.Named clause c) (h : c.Takes type value)
    (data : Text) : ∃ result, clauseFailure type clause value data = .ok result := by
  have hname := Clause.ofName?_eq_some_iff.2 hc
  cases h with
  | @bound bound value hv =>
    obtain ⟨operator, hoperator⟩ := (isOrdered_iff bound).1 (isOrdered_of_compares hv)
    obtain ⟨limit, hlimit⟩ := literal_of_compares clause hv
    simp only [clauseFailure, hname, hoperator, hlimit]
    exact ⟨_, rfl⟩
  | between hl hh =>
    obtain ⟨atLeast, hmin⟩ := (isOrdered_iff .min).1 (isOrdered_of_compares hl)
    obtain ⟨atMost, hmax⟩ := (isOrdered_iff .max).1 (isOrdered_of_compares hl)
    obtain ⟨lowest, hlow⟩ := literal_of_compares clause hl
    obtain ⟨highest, hhigh⟩ := literal_of_compares clause hh
    simp only [clauseFailure, hname, hmin, hmax, hlow, hhigh]
    exact ⟨_, rfl⟩
  | length ht _ =>
    obtain ⟨length, hlength⟩ := (hasLength_iff data).1 ht
    simp only [clauseFailure, hname, hlength]
    exact ⟨_, rfl⟩
  | oneOf ht hi =>
    obtain ⟨equals, hequals⟩ := isOrdered_iff_equality.1 ht
    obtain ⟨allowed, hallowed⟩ := literals_of_compares clause hi
    simp only [clauseFailure, hname, hequals, hallowed]
    exact ⟨_, rfl⟩
  | matching ht hn hr hb =>
    obtain ⟨body, hbody⟩ := patternBody_of_even hn hr hb
    subst ht
    simp only [clauseFailure, hname, hbody]
    exact ⟨_, rfl⟩

/-- A clause that applies to a type does not compile with a value that it refuses. -/
theorem clauseFailure_of_refuses {reason : Text} (hc : Clause.Named clause c)
    (ha : c.AppliesTo type) (h : c.Refuses type value reason) :
    clauseFailure type clause value data = .error (.clauseValue clause reason) := by
  have hname := Clause.ofName?_eq_some_iff.2 hc
  cases h with
  | @bound bound value hv =>
    obtain ⟨operator, hoperator⟩ := (isOrdered_iff bound).1 ha
    simp only [clauseFailure, hname, hoperator, literal_of_not_compares hv]
    rfl
  | betweenShape hv =>
    obtain ⟨atLeast, hmin⟩ := (isOrdered_iff .min).1 ha
    obtain ⟨atMost, hmax⟩ := (isOrdered_iff .max).1 ha
    simp only [clauseFailure, hname, hmin, hmax]
    rfl
  | betweenLow hl =>
    obtain ⟨atLeast, hmin⟩ := (isOrdered_iff .min).1 ha
    obtain ⟨atMost, hmax⟩ := (isOrdered_iff .max).1 ha
    simp only [clauseFailure, hname, hmin, hmax, literal_of_not_compares hl]
    rfl
  | betweenHigh hl hh =>
    obtain ⟨atLeast, hmin⟩ := (isOrdered_iff .min).1 ha
    obtain ⟨atMost, hmax⟩ := (isOrdered_iff .max).1 ha
    obtain ⟨lowest, hlow⟩ := literal_of_compares clause hl
    simp only [clauseFailure, hname, hmin, hmax, hlow, literal_of_not_compares hh]
    rfl
  | length hv =>
    obtain ⟨length, hlength⟩ := (hasLength_iff data).1 ha
    simp only [clauseFailure, hname, hlength]
    split
    next n => exact absurd rfl (hv n)
    next => rfl
  | oneOfShape hv =>
    obtain ⟨equals, hequals⟩ := isOrdered_iff_equality.1 ha
    simp only [clauseFailure, hname, hequals]
    rfl
  | oneOfItem hb hi =>
    obtain ⟨equals, hequals⟩ := isOrdered_iff_equality.1 ha
    simp only [clauseFailure, hname, hequals, literals_of_not_compares hb hi]
    rfl
  | matchingShape hv =>
    obtain rfl : type = .str := ha
    simp only [clauseFailure, hname]
    cases value with
    | string pattern => exact absurd rfl (hv pattern)
    | _ => rfl
  | @matchingLines pattern h =>
    obtain rfl : type = .str := ha
    cases hc
    have hbody : patternBody pattern =
        .error (.clauseValue "match" "pattern must be a single line") := by
      rcases h with h | h <;> simp [patternBody, h]
    simp only [clauseFailure, hname, hbody]
    rfl
  | @matchingEnd pattern hn hr hb =>
    obtain rfl : type = .str := ha
    cases hc
    have hbody : patternBody pattern =
        .error (.clauseValue "match" "pattern ends with a lone backslash") := by
      simp [patternBody, hn, hr, slashed?_eq_none_iff.2 hb]
    simp only [clauseFailure, hname, hbody]
    rfl

/-- A clause that applies to a type takes a value or refuses it. -/
theorem takes_or_refuses (ha : c.AppliesTo type) (hfits : value.fits) :
    c.Takes type value ∨ ∃ reason, c.Refuses type value reason := by
  cases c with
  | bound bound =>
    by_cases hv : type.Compares value
    · exact .inl (.bound hv)
    · exact .inr ⟨_, .bound hv⟩
  | between =>
    by_cases hshape : ∃ low high, value = .array [low, high]
    · obtain ⟨low, high, rfl⟩ := hshape
      by_cases hl : type.Compares low
      · by_cases hh : type.Compares high
        · exact .inl (.between hl hh)
        · exact .inr ⟨_, .betweenHigh hl hh⟩
      · exact .inr ⟨_, .betweenLow hl⟩
    · exact .inr ⟨_, .betweenShape fun low high h => hshape ⟨low, high, h⟩⟩
  | length test =>
    by_cases hshape : ∃ n : Nat, value = .number (.int n)
    · obtain ⟨n, rfl⟩ := hshape
      have hn : (n : Int) < 2 ^ 64 := by
        simp only [Json.Value.fits, Json.Number.fits, Bool.and_eq_true, decide_eq_true_eq] at hfits
        exact hfits.2
      exact .inl (.length ha (by exact_mod_cast hn))
    · exact .inr ⟨_, .length fun n h => hshape ⟨n, h⟩⟩
  | oneOf =>
    by_cases hshape : ∃ items, value = .array items
    · obtain ⟨items, rfl⟩ := hshape
      by_cases hi : ∀ item ∈ items, type.Compares item
      · exact .inl (.oneOf ha hi)
      · obtain ⟨before, item, after, rfl, hbefore, hitem⟩ := exists_first_of_not_forall hi
        exact .inr ⟨_, .oneOfItem hbefore hitem⟩
    · exact .inr ⟨_, .oneOfShape fun items h => hshape ⟨items, h⟩⟩
  | matching =>
    by_cases hshape : ∃ pattern, value = .string pattern
    · obtain ⟨pattern, rfl⟩ := hshape
      by_cases hlines : '\n' ∈ pattern ∨ '\r' ∈ pattern
      · exact .inr ⟨_, .matchingLines hlines⟩
      · obtain ⟨hn, hr⟩ := not_or.1 hlines
        by_cases hb : Even pattern.closingBackslashes
        · exact .inl (.matching ha hn hr hb)
        · exact .inr ⟨_, .matchingEnd hn hr hb⟩
    · exact .inr ⟨_, .matchingShape fun pattern h => hshape ⟨pattern, h⟩⟩

end Schema

end ArgGuard
