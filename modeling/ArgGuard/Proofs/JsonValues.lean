import ArgGuard.Json.Members
import ArgGuard.Proofs.JsonGrammar
import Mathlib.Data.List.Forall2
import Mathlib.Data.List.Nodup

/-!
# Values of outlines

An outline has a value where each of its parts has one and nothing of it breaks off. An object keeps
one member for each name in its value, so the value shows all of the outline where no name is
repeated in an object.
-/

namespace ArgGuard

namespace Dictionary

variable {Key Value Other : Type} [DecidableEq Key]

/-- A new key goes to the end. -/
theorem insert_of_not_mem {key : Key} {value : Value} {d : Dictionary Key Value}
    (h : key ∉ keys d) : insert key value d = d ++ [(key, value)] := by
  induction d with
  | nil => rfl
  | cons entry rest ih =>
    obtain ⟨first, old⟩ := entry
    obtain ⟨hfirst, hrest⟩ := not_or.1 (mt List.mem_cons.2 h)
    rw [insert, if_neg (Ne.symm hfirst), ih hrest, List.cons_append]

/-- Pairs with new and distinct keys go to the end of a dictionary. -/
theorem foldl_insert_eq_append {pairs : List (Key × Value)} {d : Dictionary Key Value}
    (h : (keys (d ++ pairs)).Nodup) :
    pairs.foldl (fun d (key, value) => insert key value d) d = d ++ pairs := by
  induction pairs generalizing d with
  | nil => simp
  | cons pair rest ih =>
    obtain ⟨key, value⟩ := pair
    have hkeys : keys (d ++ (key, value) :: rest) = keys d ++ key :: keys rest := by
      simp [keys]
    have hnew : key ∉ keys d := by
      rw [hkeys] at h
      exact fun hk => (List.nodup_append.1 h).2.2 key hk key List.mem_cons_self rfl
    have hrest : (keys ((d ++ [(key, value)]) ++ rest)).Nodup := by simpa using h
    simp only [List.foldl_cons, insert_of_not_mem hnew]
    rw [ih hrest, List.append_assoc, List.singleton_append]

/-- Pairs with distinct keys are a dictionary as they are. -/
theorem ofPairs_eq_self {pairs : List (Key × Value)} (h : (keys pairs).Nodup) :
    ofPairs pairs = pairs :=
  foldl_insert_eq_append h

/-- What a dictionary holds after a key was given is that key's entry, or was there before. -/
theorem eq_or_mem_of_mem_insert {key : Key} {value : Value} {d : Dictionary Key Value}
    {entry : Key × Value} (h : entry ∈ insert key value d) : entry = (key, value) ∨ entry ∈ d := by
  induction d with
  | nil => exact .inl (List.mem_singleton.1 h)
  | cons first rest ih =>
    obtain ⟨other, old⟩ := first
    rw [insert] at h
    split at h
    next =>
      rcases List.mem_cons.1 h with h | h
      · exact .inl h
      · exact .inr (List.mem_cons_of_mem _ h)
    next =>
      rcases List.mem_cons.1 h with h | h
      · exact .inr (h ▸ List.mem_cons_self)
      · exact (ih h).imp_right (List.mem_cons_of_mem _)

/-- What a dictionary holds after pairs were given is among the pairs, or was there before. -/
theorem mem_or_mem_of_mem_foldl_insert {pairs : List (Key × Value)} {d : Dictionary Key Value}
    {entry : Key × Value}
    (h : entry ∈ pairs.foldl (fun d (key, value) => insert key value d) d) :
    entry ∈ d ∨ entry ∈ pairs := by
  induction pairs generalizing d with
  | nil => exact .inl h
  | cons pair rest ih =>
    rcases ih h with h | h
    · rcases eq_or_mem_of_mem_insert h with rfl | h
      · exact .inr List.mem_cons_self
      · exact .inl h
    · exact .inr (List.mem_cons_of_mem _ h)

/-- What a dictionary of pairs holds is among the pairs. -/
theorem mem_of_mem_ofPairs {pairs : List (Key × Value)} {entry : Key × Value}
    (h : entry ∈ ofPairs pairs) : entry ∈ pairs :=
  (mem_or_mem_of_mem_foldl_insert h).resolve_left List.not_mem_nil

/-- Giving a key in two dictionaries keeps a relation between their entries. -/
theorem forall₂_insert {R : Key × Value → Key × Other → Prop} (hR : ∀ a b, R a b → a.1 = b.1)
    {key : Key} {value : Value} {other : Other} (h : R (key, value) (key, other))
    {d : Dictionary Key Value} {e : Dictionary Key Other} (hd : List.Forall₂ R d e) :
    List.Forall₂ R (insert key value d) (insert key other e) := by
  induction hd with
  | nil => exact .cons h .nil
  | @cons a b d e hab hde ih =>
    obtain ⟨first, old⟩ := a
    obtain ⟨first', old'⟩ := b
    obtain rfl : first = first' := hR _ _ hab
    rw [insert, insert]
    split
    next => exact .cons h hde
    next => exact .cons hab ih

/-- Pairs that are related one by one make dictionaries that are. -/
theorem forall₂_ofPairs {R : Key × Value → Key × Other → Prop} (hR : ∀ a b, R a b → a.1 = b.1)
    {pairs : List (Key × Value)} {others : List (Key × Other)} (h : List.Forall₂ R pairs others) :
    List.Forall₂ R (ofPairs pairs) (ofPairs others) := by
  refine List.rel_foldl (P := List.Forall₂ R) ?_ .nil h
  rintro d e hde ⟨key, value⟩ ⟨key', other⟩ hentry
  obtain rfl : key = key' := hR _ _ hentry
  exact forall₂_insert hR hentry hde

/-- Giving a key shows among the entries of some keys exactly if it is one of those. -/
theorem filter_insert (p : Key → Bool) (key : Key) (value : Value) (d : Dictionary Key Value) :
    (insert key value d).filter (fun entry => p entry.1) =
      if p key then insert key value (d.filter fun entry => p entry.1)
      else d.filter fun entry => p entry.1 := by
  induction d with
  | nil => cases hp : p key <;> simp [insert, hp]
  | cons entry rest ih =>
    obtain ⟨first, old⟩ := entry
    rw [insert]
    by_cases hfirst : first = key
    · subst hfirst
      cases hp : p first <;> simp [insert, hp]
    · rw [if_neg hfirst, List.filter_cons, ih]
      cases hp : p key <;> cases hp' : p first <;> simp [insert, hp', hfirst]

/-- Giving pairs shows among the entries of some keys as giving those with these keys. -/
theorem filter_foldl_insert (p : Key → Bool) (pairs : List (Key × Value))
    (d : Dictionary Key Value) :
    (pairs.foldl (fun d (key, value) => insert key value d) d).filter (fun entry => p entry.1) =
      (pairs.filter fun entry => p entry.1).foldl (fun d (key, value) => insert key value d)
        (d.filter fun entry => p entry.1) := by
  induction pairs generalizing d with
  | nil => rfl
  | cons pair rest ih =>
    obtain ⟨key, value⟩ := pair
    rw [List.foldl_cons, ih, filter_insert, List.filter_cons]
    cases hp : p key <;> simp

/-- The entries of some keys are those of the pairs with these keys. -/
theorem filter_ofPairs (p : Key → Bool) (pairs : List (Key × Value)) :
    (ofPairs pairs).filter (fun entry => p entry.1) =
      ofPairs (pairs.filter fun entry => p entry.1) :=
  filter_foldl_insert p pairs []

end Dictionary

namespace Json

/-- The end of an array is no fault exactly if it is its bracket. -/
theorem ListEnd.fault?_eq_none_iff {ending : ListEnd} :
    ending.fault? = none ↔ ending = .closed := by
  cases ending <;> simp [fault?]

/-- The end of an object is no fault exactly if it is its brace. -/
theorem ObjectEnd.fault?_eq_none_iff {ending : ObjectEnd} :
    ending.fault? = none ↔ ending = .closed := by
  rcases ending with _ | _ | _ | _ | _ | _ | _ | ⟨_ | _, _⟩ <;> simp [fault?]

namespace Outline

variable {depth depth' : Nat}

/-- Going on succeeds exactly if there is no fault. -/
theorem unlessFault_eq_ok_iff {α : Type} {fault : Option Fault} {a b : α} :
    unlessFault fault a = .ok b ↔ fault = none ∧ a = b := by
  cases fault <;> simp [unlessFault]

/-- A member of an object has a name and a value. -/
def MemberIs (depth : Nat) (member : Except Fault Text × Outline) (pair : Text × Value) : Prop :=
  member.1 = .ok pair.1 ∧ member.2.value depth = .ok pair.2

/-- The values of items are those of each. -/
theorem values_eq_ok_iff {items : List Outline} {vs : List Value} :
    values depth items = .ok vs ↔ List.Forall₂ (fun o v => o.value depth = .ok v) items vs := by
  induction items generalizing vs with
  | nil => simp [values, eq_comm]
  | cons item rest ih =>
    simp only [values, bind_eq_ok_iff, pure_eq_ok_iff, List.forall₂_cons_left_iff, ih]
    grind

/-- The names and values of members are those of each. -/
theorem memberValues_eq_ok_iff {members : List (Except Fault Text × Outline)}
    {pairs : List (Text × Value)} :
    memberValues depth members = .ok pairs ↔ List.Forall₂ (MemberIs depth) members pairs := by
  induction members generalizing pairs with
  | nil => simp [memberValues, eq_comm]
  | cons member rest ih =>
    obtain ⟨name, o⟩ := member
    simp only [memberValues, bind_eq_ok_iff, pure_eq_ok_iff, List.forall₂_cons_left_iff, ih,
      MemberIs, Prod.exists]
    grind

/-- The value of an outline by its kind. -/
inductive HasValue : Nat → Outline → Value → Prop
  /-- The null. -/
  | null {depth : Nat} : HasValue depth (.scalar .null) .null
  /-- A truth value. -/
  | bool {depth : Nat} (b : Bool) : HasValue depth (.scalar (.bool b)) (.bool b)
  /-- A number that some double holds. -/
  | number {depth : Nat} (n : Number) : HasValue depth (.scalar (.number (.ok n))) (.number n)
  /-- A string with paired surrogates. -/
  | string {depth : Nat} (s : Text) : HasValue depth (.scalar (.string (.ok s))) (.string s)
  /-- An array has the values of its items. -/
  | list {depth : Nat} {items : List Outline} {vs : List Value}
      (h : List.Forall₂ (fun o v => o.value depth = .ok v) items vs) :
      HasValue (depth + 1) (.list items .closed) (.array vs)
  /-- An object has the values of its members by name. -/
  | object {depth : Nat} {members : List (Except Fault Text × Outline)}
      {pairs : List (Text × Value)} (h : List.Forall₂ (MemberIs depth) members pairs) :
      HasValue (depth + 1) (.object members .closed) (.object (Dictionary.ofPairs pairs))

/-- An outline is read as the value that it has. -/
theorem value_eq_ok_iff {o : Outline} {v : Value} :
    o.value depth = .ok v ↔ HasValue depth o v := by
  constructor
  · intro h
    cases o with
    | scalar s =>
      rw [value] at h
      rcases s with _ | b | (_ | n) | (_ | s)
      · obtain rfl := Except.ok.inj h
        exact .null
      · obtain rfl := Except.ok.inj h
        exact .bool b
      · simp [Scalar.value, Except.map] at h
      · obtain rfl := Except.ok.inj h
        exact .number n
      · simp [Scalar.value, Except.map] at h
      · obtain rfl := Except.ok.inj h
        exact .string s
    | broken start gap => simp [value] at h
    | list items ending =>
      cases depth with
      | zero => simp [value] at h
      | succ depth =>
        simp only [value, bind_eq_ok_iff, unlessFault_eq_ok_iff, ListEnd.fault?_eq_none_iff,
          values_eq_ok_iff] at h
        obtain ⟨vs, hvs, rfl, rfl⟩ := h
        exact .list hvs
    | object members ending =>
      cases depth with
      | zero => simp [value] at h
      | succ depth =>
        simp only [value, bind_eq_ok_iff, unlessFault_eq_ok_iff, ObjectEnd.fault?_eq_none_iff,
          memberValues_eq_ok_iff] at h
        obtain ⟨pairs, hpairs, rfl, rfl⟩ := h
        exact .object hpairs
  · intro h
    cases h with
    | null | bool _ | number _ | string _ => rw [value]; rfl
    | list h =>
      simp only [value, bind_eq_ok_iff, unlessFault_eq_ok_iff, ListEnd.fault?_eq_none_iff,
        values_eq_ok_iff, true_and]
      exact ⟨_, h, rfl⟩
    | object h =>
      simp only [value, bind_eq_ok_iff, unlessFault_eq_ok_iff, ObjectEnd.fault?_eq_none_iff,
        memberValues_eq_ok_iff, true_and]
      exact ⟨_, h, rfl⟩

/-- An outline with an object as its value is an object with values of its members. -/
theorem exists_of_value_eq_object {o : Outline} {entries : List (Text × Value)}
    (h : o.value depth = .ok (.object entries)) :
    ∃ inner members pairs, depth = inner + 1 ∧ o = .object members .closed ∧
      List.Forall₂ (MemberIs inner) members pairs ∧ Dictionary.ofPairs pairs = entries := by
  generalize hv : Value.object entries = v at h
  cases value_eq_ok_iff.1 h with
  | object hmembers =>
    obtain rfl := Value.object.inj hv
    exact ⟨_, _, _, rfl, rfl, hmembers, rfl⟩
  | _ => simp at hv

mutual

/-- Where more may nest, the value is the same. -/
theorem value_mono (o : Outline) {depth depth' : Nat} {v : Value} (h : o.value depth = .ok v)
    (hd : depth ≤ depth') : o.value depth' = .ok v := by
  match o, value_eq_ok_iff.1 h with
  | _, .null => exact value_eq_ok_iff.2 .null
  | _, .bool b => exact value_eq_ok_iff.2 (.bool b)
  | _, .number n => exact value_eq_ok_iff.2 (.number n)
  | _, .string s => exact value_eq_ok_iff.2 (.string s)
  | .list items _, .list h =>
    obtain ⟨depth', rfl⟩ : ∃ n, depth' = n + 1 := ⟨depth' - 1, by omega⟩
    exact value_eq_ok_iff.2 (.list (values_mono items h (by omega)))
  | .object members _, .object h =>
    obtain ⟨depth', rfl⟩ : ∃ n, depth' = n + 1 := ⟨depth' - 1, by omega⟩
    exact value_eq_ok_iff.2 (.object (memberValues_mono members h (by omega)))

/-- Where more may nest, the values of items are the same. -/
theorem values_mono (items : List Outline) {depth depth' : Nat} {vs : List Value}
    (h : List.Forall₂ (fun o v => o.value depth = .ok v) items vs) (hd : depth ≤ depth') :
    List.Forall₂ (fun o v => o.value depth' = .ok v) items vs := by
  match items, vs, h with
  | [], _, .nil => exact .nil
  | item :: rest, _, .cons hv hvs => exact .cons (value_mono item hv hd) (values_mono rest hvs hd)

/-- Where more may nest, the values of members are the same. -/
theorem memberValues_mono (members : List (Except Fault Text × Outline)) {depth depth' : Nat}
    {pairs : List (Text × Value)} (h : List.Forall₂ (MemberIs depth) members pairs)
    (hd : depth ≤ depth') : List.Forall₂ (MemberIs depth') members pairs := by
  match members, pairs, h with
  | [], _, .nil => exact .nil
  | (_, o) :: rest, _, .cons hv hvs =>
    exact .cons ⟨hv.1, value_mono o hv.2 hd⟩ (memberValues_mono rest hvs hd)

end

/-- An outline has one value, however much may nest. -/
theorem value_unique {o : Outline} {v v' : Value} (h : o.value depth = .ok v)
    (h' : o.value depth' = .ok v') : v = v' := by
  have hmax := value_mono o h (Nat.le_max_left depth depth')
  rw [value_mono o h' (Nat.le_max_right depth depth')] at hmax
  exact (Except.ok.inj hmax).symm

mutual

/-- An outline with a value is complete. -/
theorem skipFault?_of_value (o : Outline) {depth : Nat} {v : Value} (h : o.value depth = .ok v) :
    o.skipFault? = none := by
  match o, value_eq_ok_iff.1 h with
  | _, .null => rw [skipFault?]
  | _, .bool _ => rw [skipFault?]
  | _, .number _ => rw [skipFault?]
  | _, .string _ => rw [skipFault?]
  | .list items _, .list h => exact skipFault?_list_eq_none.2 ⟨skipItems_of_values items h, rfl⟩
  | .object members _, .object h =>
    exact skipFault?_object_eq_none.2 ⟨skipMembers_of_values members h, rfl⟩

/-- Items with values are complete. -/
theorem skipItems_of_values (items : List Outline) {depth : Nat} {vs : List Value}
    (h : List.Forall₂ (fun o v => o.value depth = .ok v) items vs) : skipItems items = none := by
  match items, vs, h with
  | [], _, .nil => rw [skipItems]
  | item :: rest, _, .cons hv hvs =>
    rw [skipItems, skipFault?_of_value item hv, Option.none_or, skipItems_of_values rest hvs]

/-- Members with values are complete. -/
theorem skipMembers_of_values (members : List (Except Fault Text × Outline)) {depth : Nat}
    {pairs : List (Text × Value)} (h : List.Forall₂ (MemberIs depth) members pairs) :
    skipMembers members = none := by
  match members, pairs, h with
  | [], _, .nil => rw [skipMembers]
  | (_, o) :: rest, _, .cons hv hvs =>
    rw [skipMembers, skipFault?_of_value o hv.2, Option.none_or, skipMembers_of_values rest hvs]

end

section Distinct

/-- The names of members, as far as they are texts. -/
def names (members : List (Except Fault Text × Outline)) : List Text :=
  members.filterMap fun member => member.1.toOption

mutual

/-- No object inside an outline repeats a name. -/
def Distinct : Outline → Prop
  | scalar _ => True
  | broken _ _ => True
  | list items _ => DistinctItems items
  | object members _ => (names members).Nodup ∧ DistinctMembers members

/-- No object inside the items of an array repeats a name. -/
def DistinctItems : List Outline → Prop
  | [] => True
  | item :: rest => Distinct item ∧ DistinctItems rest

/-- No object inside the members of an object repeats a name. -/
def DistinctMembers : List (Except Fault Text × Outline) → Prop
  | [] => True
  | (_, value) :: rest => Distinct value ∧ DistinctMembers rest

end

mutual

/-- Whether an object inside an outline repeats a name. -/
def decideDistinct : (o : Outline) → Decidable o.Distinct
  | scalar _ => .isTrue trivial
  | broken _ _ => .isTrue trivial
  | list items _ => decideDistinctItems items
  | object members _ =>
    have := decideDistinctMembers members
    inferInstanceAs (Decidable (_ ∧ _))

/-- Whether an object inside the items of an array repeats a name. -/
def decideDistinctItems : (items : List Outline) → Decidable (DistinctItems items)
  | [] => .isTrue trivial
  | item :: rest =>
    have := decideDistinct item
    have := decideDistinctItems rest
    inferInstanceAs (Decidable (_ ∧ _))

/-- Whether an object inside the members of an object repeats a name. -/
def decideDistinctMembers :
    (members : List (Except Fault Text × Outline)) → Decidable (DistinctMembers members)
  | [] => .isTrue trivial
  | (_, value) :: rest =>
    have := decideDistinct value
    have := decideDistinctMembers rest
    inferInstanceAs (Decidable (_ ∧ _))

end

instance (o : Outline) : Decidable o.Distinct := decideDistinct o

/-- The names of members are those in the value. -/
theorem names_eq_keys {members : List (Except Fault Text × Outline)} {pairs : List (Text × Value)}
    (h : List.Forall₂ (MemberIs depth) members pairs) : names members = Dictionary.keys pairs := by
  induction h with
  | nil => rfl
  | @cons member pair members pairs hmember _ ih =>
    rw [names] at ih ⊢
    rw [List.filterMap_cons, hmember.1, ih]
    rfl

/-- An object that repeats no name has all its members in its value. -/
theorem ofPairs_of_distinct {members : List (Except Fault Text × Outline)}
    {pairs : List (Text × Value)} (h : List.Forall₂ (MemberIs depth) members pairs)
    (hd : (names members).Nodup) : Dictionary.ofPairs pairs = pairs :=
  Dictionary.ofPairs_eq_self (names_eq_keys h ▸ hd)

end Distinct

end Outline

end Json

end ArgGuard
