import ArgGuard.Proofs.JsonScalars

/-!
# The grammar of JSON texts

The value in front of a text is a scalar, or brackets or braces around items or members with commas
between them, with white space wherever it is allowed. Cutting a text into its outline finds a value
without a break exactly where this grammar has one. What stands behind a value does not change the
value, as long as no number goes on there.
-/

namespace ArgGuard.Json

namespace Outline

mutual

/-- A value in front of a text: its outline, and the text behind it. -/
inductive InFront : Text → Outline → Text → Prop
  /-- A scalar. -/
  | scalar {s rest : Text} {leaf : Scalar} (h : Front.ofText s = .scalar leaf rest) :
      InFront s (.scalar leaf) rest
  /-- An array without items. -/
  | emptyList {s inside rest : Text} (h : Front.ofText s = .openList inside)
      (he : skipSpace inside = ']' :: rest) : InFront s (.list [] .closed) rest
  /-- An array with items. -/
  | list {s inside rest : Text} {items : List Outline} (h : Front.ofText s = .openList inside)
      (hi : ItemsInFront (skipSpace inside) items rest) : InFront s (.list items .closed) rest
  /-- An object without members. -/
  | emptyObject {s inside rest : Text} (h : Front.ofText s = .openObject inside)
      (he : skipSpace inside = '\x7d' :: rest) : InFront s (.object [] .closed) rest
  /-- An object with members. -/
  | object {s inside rest : Text} {members : List (Except Fault Text × Outline)}
      (h : Front.ofText s = .openObject inside)
      (hm : MembersInFront (skipSpace inside) members rest) :
      InFront s (.object members .closed) rest

/-- The items of an array in front of a text, up to its bracket. -/
inductive ItemsInFront : Text → List Outline → Text → Prop
  /-- The last item. -/
  | last {s behind rest : Text} {item : Outline} (h : InFront s item behind)
      (he : skipSpace behind = ']' :: rest) : ItemsInFront s [item] rest
  /-- An item with others behind a comma. -/
  | more {s behind next rest : Text} {item : Outline} {items : List Outline}
      (h : InFront s item behind) (hc : skipSpace behind = ',' :: next)
      (hi : ItemsInFront (skipSpace next) items rest) : ItemsInFront s (item :: items) rest

/-- The members of an object in front of a text, up to its brace. -/
inductive MembersInFront : Text → List (Except Fault Text × Outline) → Text → Prop
  /-- The last member. -/
  | last {s inside colon start behind rest : Text} {name : Except Fault Text} {value : Outline}
      (hq : s = '"' :: inside) (hn : string? inside = .ok (name, colon))
      (hc : skipSpace colon = ':' :: start) (h : InFront start value behind)
      (he : skipSpace behind = '\x7d' :: rest) : MembersInFront s [(name, value)] rest
  /-- A member with others behind a comma. -/
  | more {s inside colon start behind next rest : Text} {name : Except Fault Text} {value : Outline}
      {members : List (Except Fault Text × Outline)}
      (hq : s = '"' :: inside) (hn : string? inside = .ok (name, colon))
      (hc : skipSpace colon = ':' :: start) (h : InFront start value behind)
      (he : skipSpace behind = ',' :: next) (hm : MembersInFront (skipSpace next) members rest) :
      MembersInFront s ((name, value) :: members) rest

end

/-- An array is complete where its items are and its bracket stands behind them. -/
theorem skipFault?_list_eq_none {items : List Outline} {ending : ListEnd} :
    skipFault? (.list items ending) = none ↔ skipItems items = none ∧ ending = .closed := by
  rw [skipFault?, Option.or_eq_none_iff]
  cases ending <;> simp [ListEnd.skipFault?, ListEnd.fault?]

/-- An object is complete where its members are and its brace stands behind them. -/
theorem skipFault?_object_eq_none {members : List (Except Fault Text × Outline)}
    {ending : ObjectEnd} :
    skipFault? (.object members ending) = none ↔ skipMembers members = none ∧ ending = .closed := by
  rw [skipFault?, Option.or_eq_none_iff]
  cases ending <;> simp [ObjectEnd.skipFault?, ObjectEnd.fault?]

section Sound

variable {bound : Nat}

/-- A value that is found complete within a bound is in front by the grammar. -/
def SoundValue (bound : Nat) : Prop :=
  ∀ s o rest, valueWithin bound s = (o, rest) → o.skipFault? = none → InFront s o rest

/-- Items that are found complete within a bound are in front by the grammar. -/
def SoundItems (bound : Nat) : Prop :=
  ∀ s items rest, itemsWithin bound s = (items, .closed, rest) → skipItems items = none →
    ItemsInFront s items rest

/-- Members that are found complete within a bound are in front by the grammar. -/
def SoundMembers (bound : Nat) : Prop :=
  ∀ s members rest, membersWithin bound s = (members, .closed, rest) →
    skipMembers members = none → MembersInFront s members rest

/-- A value is as sound as what it encloses. -/
theorem soundValue_succ (hi : SoundItems bound) (hm : SoundMembers bound) :
    SoundValue (bound + 1) := by
  intro s o rest h ho
  rw [valueWithin] at h
  split at h
  next start gap hfront =>
    obtain ⟨rfl, -⟩ := Prod.mk.inj h
    simp [skipFault?] at ho
  next leaf behind hfront =>
    obtain ⟨rfl, rfl⟩ := Prod.mk.inj h
    exact .scalar hfront
  next inside hfront =>
    split at h
    next =>
      obtain ⟨rfl, -⟩ := Prod.mk.inj h
      simp [skipFault?_list_eq_none] at ho
    next behind hend =>
      obtain ⟨rfl, rfl⟩ := Prod.mk.inj h
      exact .emptyList hfront hend
    next =>
      generalize hitems : itemsWithin bound (skipSpace inside) = found at h
      obtain ⟨items, ending, behind⟩ := found
      obtain ⟨rfl, rfl⟩ := Prod.mk.inj h
      obtain ⟨hclean, rfl⟩ := skipFault?_list_eq_none.1 ho
      exact .list hfront (hi _ _ _ hitems hclean)
  next inside hfront =>
    split at h
    next =>
      obtain ⟨rfl, -⟩ := Prod.mk.inj h
      simp [skipFault?_object_eq_none] at ho
    next behind hend =>
      obtain ⟨rfl, rfl⟩ := Prod.mk.inj h
      exact .emptyObject hfront hend
    next =>
      generalize hmembers : membersWithin bound (skipSpace inside) = found at h
      obtain ⟨members, ending, behind⟩ := found
      obtain ⟨rfl, rfl⟩ := Prod.mk.inj h
      obtain ⟨hclean, rfl⟩ := skipFault?_object_eq_none.1 ho
      exact .object hfront (hm _ _ _ hmembers hclean)

/-- Items are as sound as their values. -/
theorem soundItems_succ (hv : SoundValue bound) (hi : SoundItems bound) :
    SoundItems (bound + 1) := by
  intro s items rest h hclean
  rw [itemsWithin] at h
  generalize hvalue : valueWithin bound s = found at h
  obtain ⟨item, behind⟩ := found
  simp only at h
  split at h
  next => simp at h
  next final hend =>
    simp only [Prod.mk.injEq, true_and] at h
    obtain ⟨rfl, rfl⟩ := h
    rw [skipItems, Option.or_eq_none_iff] at hclean
    exact .last (hv _ _ _ hvalue hclean.1) hend
  next next hcomma =>
    split at h
    next => simp at h
    next => simp at h
    next =>
      generalize hitems : itemsWithin bound (skipSpace next) = others at h
      obtain ⟨others, ending, final⟩ := others
      simp only [Prod.mk.injEq] at h
      obtain ⟨rfl, rfl, rfl⟩ := h
      rw [skipItems, Option.or_eq_none_iff] at hclean
      exact .more (hv _ _ _ hvalue hclean.1) hcomma (hi _ _ _ hitems hclean.2)
  next => simp at h

/-- Members are as sound as their values. -/
theorem soundMembers_succ (hv : SoundValue bound) (hm : SoundMembers bound) :
    SoundMembers (bound + 1) := by
  intro s members rest h hclean
  unfold membersWithin at h
  split at h
  next => simp at h
  next n inside hbound =>
    obtain rfl := Nat.succ.inj hbound
    split at h
    next => simp at h
    next name colon hname =>
      split at h
      next start hcolon =>
        generalize hvalue : valueWithin _ start = found at h
        obtain ⟨value, behind⟩ := found
        simp only at h
        split at h
        next => simp at h
        next final hend =>
          simp only [Prod.mk.injEq, true_and] at h
          obtain ⟨rfl, rfl⟩ := h
          rw [skipMembers, Option.or_eq_none_iff] at hclean
          exact .last rfl hname hcolon (hv _ _ _ hvalue hclean.1) hend
        next next hcomma =>
          split at h
          next => simp at h
          next => simp at h
          next =>
            generalize hmembers : membersWithin _ (skipSpace next) = others at h
            obtain ⟨others, ending, final⟩ := others
            simp only [Prod.mk.injEq] at h
            obtain ⟨rfl, rfl, rfl⟩ := h
            rw [skipMembers, Option.or_eq_none_iff] at hclean
            exact .more rfl hname hcolon (hv _ _ _ hvalue hclean.1) hcomma
              (hm _ _ _ hmembers hclean.2)
        next => simp at h
      next => simp at h
  next => simp at h

/-- What is found complete is in front by the grammar. -/
theorem sound (bound : Nat) : SoundValue bound ∧ SoundItems bound ∧ SoundMembers bound := by
  induction bound with
  | zero =>
    refine ⟨fun s o rest h ho => ?_, fun s items rest h => ?_, fun s members rest h => ?_⟩
    · obtain ⟨rfl, -⟩ := Prod.mk.inj h
      simp [skipFault?] at ho
    · simp [itemsWithin] at h
    · simp [membersWithin] at h
  | succ bound ih =>
    obtain ⟨hv, hi, hm⟩ := ih
    exact ⟨soundValue_succ hi hm, soundItems_succ hv hi, soundMembers_succ hv hm⟩

end Sound

/-- What stands in front of a text takes at least one character of it. -/
theorem length_behind_lt {s : Text} {f : Front} (h : Front.ofText s = f) (hf : f.IsWhole) :
    f.behind.length < s.length := by
  have hnil : EndsNumber [] := by intro c hc; simp at hc
  subst h
  exact (Front.ofText_append hnil hf).2

/-- Where a value is in front of a text, the text does not break off. -/
theorem InFront.isWhole {s rest : Text} {o : Outline} (h : InFront s o rest) :
    (Front.ofText s).IsWhole := by
  cases h with
  | scalar hf => simp [hf, Front.IsWhole]
  | emptyList hf => simp [hf, Front.IsWhole]
  | list hf => simp [hf, Front.IsWhole]
  | emptyObject hf => simp [hf, Front.IsWhole]
  | object hf => simp [hf, Front.IsWhole]

/-- Items do not start with the bracket behind them, and do start. -/
theorem ItemsInFront.starts {s rest : Text} {items : List Outline} (h : ItemsInFront s items rest) :
    s ≠ [] ∧ ∀ r, s ≠ ']' :: r := by
  have hwhole : (Front.ofText s).IsWhole := by
    cases h with
    | last h => exact h.isWhole
    | more h => exact h.isWhole
  refine ⟨?_, fun r => ?_⟩
  · rintro rfl
    refine hwhole none (.both .endInValue) ?_
    simp [Front.ofText, skipSpace]
  · rintro rfl
    refine hwhole (some ']') (.both .valueExpected) ?_
    simp [Front.ofText, skipSpace, isSpace, Text.isDigit]

/-- Members start with the quote of a name. -/
theorem MembersInFront.starts {s rest : Text} {members : List (Except Fault Text × Outline)}
    (h : MembersInFront s members rest) : ∃ inside, s = '"' :: inside := by
  cases h with
  | last hq => exact ⟨_, hq⟩
  | more hq => exact ⟨_, hq⟩

section Bounds

variable {s inside colon start behind next rest : Text} {item : Outline} {items : List Outline}
  {name : Except Fault Text} {members : List (Except Fault Text × Outline)}

/-- A value is found in front of a text within a bound of twice its length. -/
def FindsValue (s : Text) (o : Outline) (rest : Text) : Prop :=
  rest.length < s.length ∧
    ∀ bound, 2 * (s.length - rest.length) ≤ bound → valueWithin bound s = (o, rest)

/-- The items of an array are found in front of a text within a bound of twice their length. -/
def FindsItems (s : Text) (items : List Outline) (rest : Text) : Prop :=
  rest.length < s.length ∧
    ∀ bound, 2 * (s.length - rest.length) ≤ bound → itemsWithin bound s = (items, .closed, rest)

/-- The members of an object are found in front of a text within a bound of twice their length. -/
def FindsMembers (s : Text) (members : List (Except Fault Text × Outline)) (rest : Text) : Prop :=
  rest.length < s.length ∧
    ∀ bound, 2 * (s.length - rest.length) ≤ bound →
      membersWithin bound s = (members, .closed, rest)

/-- A bound of something is a successor. -/
theorem exists_eq_succ {bound n : Nat} (h : n ≤ bound) (hn : 0 < n) : ∃ m, bound = m + 1 :=
  ⟨bound - 1, by omega⟩

/-- A scalar is found. -/
theorem findsValue_scalar {leaf : Scalar} (hf : Front.ofText s = .scalar leaf rest) :
    FindsValue s (.scalar leaf) rest := by
  have hlength : rest.length < s.length := length_behind_lt hf (by simp [Front.IsWhole])
  refine ⟨hlength, fun bound hb => ?_⟩
  obtain ⟨bound, rfl⟩ := exists_eq_succ hb (by omega)
  rw [valueWithin, hf]

/-- An array without items is found. -/
theorem findsValue_emptyList (hf : Front.ofText s = .openList inside)
    (he : skipSpace inside = ']' :: rest) : FindsValue s (.list [] .closed) rest := by
  have hfront : inside.length < s.length := length_behind_lt hf (by simp [Front.IsWhole])
  have hspace := length_skipSpace inside
  rw [he, List.length_cons] at hspace
  refine ⟨by omega, fun bound hb => ?_⟩
  obtain ⟨bound, rfl⟩ := exists_eq_succ hb (by omega)
  simp only [valueWithin, hf, he]

/-- An array is found with its items. -/
theorem findsValue_list (hf : Front.ofText s = .openList inside)
    (hstarts : skipSpace inside ≠ [] ∧ ∀ r, skipSpace inside ≠ ']' :: r)
    (hi : FindsItems (skipSpace inside) items rest) : FindsValue s (.list items .closed) rest := by
  have hfront : inside.length < s.length := length_behind_lt hf (by simp [Front.IsWhole])
  have hspace := length_skipSpace inside
  obtain ⟨hlength, hitems⟩ := hi
  refine ⟨by omega, fun bound hb => ?_⟩
  obtain ⟨bound, rfl⟩ := exists_eq_succ hb (by omega)
  have hfound := hitems bound (by omega)
  simp only [valueWithin, hf]
  split
  next hnil => exact absurd hnil hstarts.1
  next r hbracket => exact absurd hbracket (hstarts.2 r)
  next => rw [hfound]

/-- An object without members is found. -/
theorem findsValue_emptyObject (hf : Front.ofText s = .openObject inside)
    (he : skipSpace inside = '\x7d' :: rest) : FindsValue s (.object [] .closed) rest := by
  have hfront : inside.length < s.length := length_behind_lt hf (by simp [Front.IsWhole])
  have hspace := length_skipSpace inside
  rw [he, List.length_cons] at hspace
  refine ⟨by omega, fun bound hb => ?_⟩
  obtain ⟨bound, rfl⟩ := exists_eq_succ hb (by omega)
  simp only [valueWithin, hf, he]

/-- An object is found with its members. -/
theorem findsValue_object (hf : Front.ofText s = .openObject inside)
    (hstarts : ∃ quoted, skipSpace inside = '"' :: quoted)
    (hm : FindsMembers (skipSpace inside) members rest) :
    FindsValue s (.object members .closed) rest := by
  have hfront : inside.length < s.length := length_behind_lt hf (by simp [Front.IsWhole])
  have hspace := length_skipSpace inside
  obtain ⟨hlength, hmembers⟩ := hm
  obtain ⟨quoted, hquote⟩ := hstarts
  refine ⟨by omega, fun bound hb => ?_⟩
  obtain ⟨bound, rfl⟩ := exists_eq_succ hb (by omega)
  have hfound := hmembers bound (by omega)
  simp only [valueWithin, hf]
  split
  next hnil => simp [hnil] at hquote
  next r hbrace => simp [hbrace] at hquote
  next => rw [hfound]

/-- The last item of an array is found. -/
theorem findsItems_last (h : FindsValue s item behind) (he : skipSpace behind = ']' :: rest) :
    FindsItems s [item] rest := by
  obtain ⟨hlength, hvalue⟩ := h
  have hspace := length_skipSpace behind
  rw [he, List.length_cons] at hspace
  refine ⟨by omega, fun bound hb => ?_⟩
  obtain ⟨bound, rfl⟩ := exists_eq_succ hb (by omega)
  have hfound := hvalue bound (by omega)
  simp only [itemsWithin, hfound, he]

/-- An item is found with those behind it. -/
theorem findsItems_more (h : FindsValue s item behind) (hc : skipSpace behind = ',' :: next)
    (hstarts : skipSpace next ≠ [] ∧ ∀ r, skipSpace next ≠ ']' :: r)
    (hi : FindsItems (skipSpace next) items rest) : FindsItems s (item :: items) rest := by
  obtain ⟨hlength, hvalue⟩ := h
  obtain ⟨hless, hitems⟩ := hi
  have hspace := length_skipSpace behind
  have hnext := length_skipSpace next
  rw [hc, List.length_cons] at hspace
  refine ⟨by omega, fun bound hb => ?_⟩
  obtain ⟨bound, rfl⟩ := exists_eq_succ hb (by omega)
  have hfound := hvalue bound (by omega)
  have hothers := hitems bound (by omega)
  simp only [itemsWithin, hfound, hc]
  split
  next hnil => exact absurd hnil hstarts.1
  next r hbracket => exact absurd hbracket (hstarts.2 r)
  next => rw [hothers]

/-- The last member of an object is found. -/
theorem findsMembers_last (hn : string? inside = .ok (name, colon))
    (hc : skipSpace colon = ':' :: start) (h : FindsValue start item behind)
    (he : skipSpace behind = '\x7d' :: rest) :
    FindsMembers ('"' :: inside) [(name, item)] rest := by
  obtain ⟨hlength, hvalue⟩ := h
  have hstring := length_lt_of_string? hn
  have hcolon := length_skipSpace colon
  have hspace := length_skipSpace behind
  rw [he, List.length_cons] at hspace
  rw [hc, List.length_cons] at hcolon
  refine ⟨by simp only [List.length_cons]; omega, fun bound hb => ?_⟩
  rw [List.length_cons] at hb
  obtain ⟨bound, rfl⟩ := exists_eq_succ hb (by omega)
  have hfound := hvalue bound (by omega)
  simp only [membersWithin, hn, hc, hfound, he]

/-- A member is found with those behind it. -/
theorem findsMembers_more (hn : string? inside = .ok (name, colon))
    (hc : skipSpace colon = ':' :: start) (h : FindsValue start item behind)
    (he : skipSpace behind = ',' :: next) (hstarts : ∃ quoted, skipSpace next = '"' :: quoted)
    (hm : FindsMembers (skipSpace next) members rest) :
    FindsMembers ('"' :: inside) ((name, item) :: members) rest := by
  obtain ⟨hlength, hvalue⟩ := h
  obtain ⟨hless, hmembers⟩ := hm
  obtain ⟨quoted, hquote⟩ := hstarts
  have hstring := length_lt_of_string? hn
  have hcolon := length_skipSpace colon
  have hspace := length_skipSpace behind
  have hnext := length_skipSpace next
  rw [he, List.length_cons] at hspace
  rw [hc, List.length_cons] at hcolon
  refine ⟨by simp only [List.length_cons]; omega, fun bound hb => ?_⟩
  rw [List.length_cons] at hb
  obtain ⟨bound, rfl⟩ := exists_eq_succ hb (by omega)
  have hfound := hvalue bound (by omega)
  have hothers := hmembers bound (by omega)
  simp only [membersWithin, hn, hc, hfound, he]
  split
  next hnil => simp [hnil] at hquote
  next r hbrace => simp [hbrace] at hquote
  next => rw [hothers]

end Bounds

mutual

/-- A value in front of a text is found there. -/
theorem InFront.finds {s rest : Text} {o : Outline} (h : InFront s o rest) :
    FindsValue s o rest := by
  cases h with
  | scalar hf => exact findsValue_scalar hf
  | emptyList hf he => exact findsValue_emptyList hf he
  | list hf hi => exact findsValue_list hf hi.starts hi.finds
  | emptyObject hf he => exact findsValue_emptyObject hf he
  | object hf hm => exact findsValue_object hf hm.starts hm.finds

/-- The items of an array in front of a text are found there. -/
theorem ItemsInFront.finds {s rest : Text} {items : List Outline} (h : ItemsInFront s items rest) :
    FindsItems s items rest := by
  cases h with
  | last h he => exact findsItems_last h.finds he
  | more h hc hi => exact findsItems_more h.finds hc hi.starts hi.finds

/-- The members of an object in front of a text are found there. -/
theorem MembersInFront.finds {s rest : Text} {members : List (Except Fault Text × Outline)}
    (h : MembersInFront s members rest) : FindsMembers s members rest := by
  cases h with
  | last hq hn hc h he => exact hq ▸ findsMembers_last hn hc h.finds he
  | more hq hn hc h he hm => exact hq ▸ findsMembers_more hn hc h.finds he hm.starts hm.finds

end

mutual

/-- A value in front of a text is complete. -/
theorem InFront.complete {s rest : Text} {o : Outline} (h : InFront s o rest) :
    o.skipFault? = none := by
  cases h with
  | scalar _ => rw [skipFault?]
  | emptyList _ _ => exact skipFault?_list_eq_none.2 ⟨rfl, rfl⟩
  | list _ hi => exact skipFault?_list_eq_none.2 ⟨hi.complete, rfl⟩
  | emptyObject _ _ => exact skipFault?_object_eq_none.2 ⟨rfl, rfl⟩
  | object _ hm => exact skipFault?_object_eq_none.2 ⟨hm.complete, rfl⟩

/-- The items of an array in front of a text are complete. -/
theorem ItemsInFront.complete {s rest : Text} {items : List Outline}
    (h : ItemsInFront s items rest) : skipItems items = none := by
  cases h with
  | last h _ => simp [skipItems, h.complete]
  | more h _ hi => simp [skipItems, h.complete, hi.complete]

/-- The members of an object in front of a text are complete. -/
theorem MembersInFront.complete {s rest : Text} {members : List (Except Fault Text × Outline)}
    (h : MembersInFront s members rest) : skipMembers members = none := by
  cases h with
  | last _ _ _ h _ => simp [skipMembers, h.complete]
  | more _ _ _ h _ hm => simp [skipMembers, h.complete, hm.complete]

end

/-- Cutting a text finds a complete value exactly where the grammar has one in front. -/
theorem inFront_iff {s rest : Text} {o : Outline} :
    InFront s o rest ↔ ofText s = (o, rest) ∧ o.skipFault? = none := by
  constructor
  · intro h
    exact ⟨h.finds.2 _ (by omega), h.complete⟩
  · rintro ⟨h, ho⟩
    exact (sound _).1 _ _ _ h ho

section Append

variable {t : Text}

/-- White space in front of something is the same with more text behind. -/
theorem skipSpace_append_of_ne_nil {s : Text} (h : skipSpace s ≠ []) :
    skipSpace (s ++ t) = skipSpace s ++ t := by
  obtain ⟨c, rest, hs⟩ := List.exists_cons_of_ne_nil h
  rw [skipSpace_append hs, hs, List.cons_append]

/-- Members start with something. -/
theorem MembersInFront.ne_nil {s rest : Text} {members : List (Except Fault Text × Outline)}
    (h : MembersInFront s members rest) : s ≠ [] := by
  obtain ⟨inside, rfl⟩ := h.starts
  simp

/-- What opens in front of a text does so with more text behind. -/
theorem ofText_append_of_eq (ht : EndsNumber t) {s : Text} {f : Front} (h : Front.ofText s = f)
    (hf : f.IsWhole) : Front.ofText (s ++ t) = f.append t := by
  subst h
  exact (Front.ofText_append ht hf).1

mutual

/-- A value in front of a text is in front with more text behind, where no number goes on. -/
theorem InFront.append (ht : EndsNumber t) {s rest : Text} {o : Outline} (h : InFront s o rest) :
    InFront (s ++ t) o (rest ++ t) := by
  cases h with
  | scalar hf => exact .scalar (ofText_append_of_eq ht hf (by simp [Front.IsWhole]))
  | emptyList hf he =>
    exact .emptyList (ofText_append_of_eq ht hf (by simp [Front.IsWhole])) (skipSpace_append he)
  | list hf hi =>
    refine .list (ofText_append_of_eq ht hf (by simp [Front.IsWhole])) ?_
    exact skipSpace_append_of_ne_nil hi.starts.1 ▸ hi.append ht
  | emptyObject hf he =>
    exact .emptyObject (ofText_append_of_eq ht hf (by simp [Front.IsWhole])) (skipSpace_append he)
  | object hf hm =>
    refine .object (ofText_append_of_eq ht hf (by simp [Front.IsWhole])) ?_
    exact skipSpace_append_of_ne_nil hm.ne_nil ▸ hm.append ht

/-- The items of an array are in front with more text behind. -/
theorem ItemsInFront.append (ht : EndsNumber t) {s rest : Text} {items : List Outline}
    (h : ItemsInFront s items rest) : ItemsInFront (s ++ t) items (rest ++ t) := by
  cases h with
  | last h he => exact .last (h.append ht) (skipSpace_append he)
  | more h hc hi =>
    refine .more (h.append ht) (skipSpace_append hc) ?_
    exact skipSpace_append_of_ne_nil hi.starts.1 ▸ hi.append ht

/-- The members of an object are in front with more text behind. -/
theorem MembersInFront.append (ht : EndsNumber t) {s rest : Text}
    {members : List (Except Fault Text × Outline)} (h : MembersInFront s members rest) :
    MembersInFront (s ++ t) members (rest ++ t) := by
  cases h with
  | last hq hn hc h he =>
    exact .last (by rw [hq, List.cons_append]) (string?_append hn) (skipSpace_append hc)
      (h.append ht) (skipSpace_append he)
  | more hq hn hc h he hm =>
    refine .more (by rw [hq, List.cons_append]) (string?_append hn) (skipSpace_append hc)
      (h.append ht) (skipSpace_append he) ?_
    exact skipSpace_append_of_ne_nil hm.ne_nil ▸ hm.append ht

end

end Append

end Outline

end ArgGuard.Json
