import ArgGuard.Text.Basic

/-!
# Dictionaries

A dictionary lists keys with what they stand for, in the order in which the keys were first
given. Giving a key again replaces what it stands for and keeps its place.
-/

namespace ArgGuard

/-- Keys with what they stand for, in order. -/
abbrev Dictionary (Key Value : Type) := List (Key × Value)

namespace Dictionary

variable {Key Value : Type} [DecidableEq Key]

/-- What a key stands for. -/
def get? (d : Dictionary Key Value) (key : Key) : Option Value := d.lookup key

/-- The keys, in order. -/
def keys (d : Dictionary Key Value) : List Key := d.map Prod.fst

/-- Let a key stand for something: in its old place, or at the end. -/
def insert (key : Key) (value : Value) : Dictionary Key Value → Dictionary Key Value
  | [] => [(key, value)]
  | (other, old) :: rest =>
    if other = key then (key, value) :: rest else (other, old) :: insert key value rest

/-- The first pair decides about its own key only. -/
theorem get?_cons (d : Dictionary Key Value) (first key : Key) (value : Value) :
    get? ((first, value) :: d) key = if key = first then some value else get? d key := by
  by_cases h : key = first
  · simp [get?, h]
  · simp [get?, List.lookup_cons, beq_eq_false_iff_ne.2 h, h]

/-- A key stands for something if it is listed. -/
theorem get?_ne_none_iff {d : Dictionary Key Value} {key : Key} :
    get? d key ≠ none ↔ key ∈ keys d := by
  induction d with
  | nil => simp [get?, keys]
  | cons entry rest ih =>
    obtain ⟨first, value⟩ := entry
    rw [get?_cons, keys, List.map_cons, List.mem_cons]
    split
    next h => simp [h]
    next h => rw [ih, keys, or_iff_right h]

/-- Giving a key changes what that key stands for, and nothing else. -/
theorem get?_insert (d : Dictionary Key Value) (key other : Key) (value : Value) :
    get? (insert key value d) other = if other = key then some value else get? d other := by
  induction d with
  | nil => rw [insert, get?_cons]
  | cons entry rest ih =>
    obtain ⟨first, old⟩ := entry
    rw [insert]
    split
    next h => simp only [get?_cons, h]; split <;> rfl
    next h =>
      rw [get?_cons, get?_cons, ih]
      grind

/-- A known key keeps its place, and a new one goes to the end. -/
theorem keys_insert (d : Dictionary Key Value) (key : Key) (value : Value) :
    keys (insert key value d) = if key ∈ keys d then keys d else keys d ++ [key] := by
  induction d with
  | nil => rfl
  | cons entry rest ih =>
    obtain ⟨first, old⟩ := entry
    rw [insert]
    split
    next h => simp [keys, h]
    next h =>
      change first :: keys (insert key value rest) = _
      rw [ih]
      have hne : key ≠ first := fun e => h e.symm
      by_cases hmem : key ∈ keys rest <;> simp_all [keys]

/-- Giving a key never lists a key twice. -/
theorem nodup_keys_insert {d : Dictionary Key Value} (hd : (keys d).Nodup) (key : Key)
    (value : Value) : (keys (insert key value d)).Nodup := by
  rw [keys_insert]
  split
  next => exact hd
  next h =>
    refine List.nodup_append.2 ⟨hd, by simp, ?_⟩
    rintro other ho last hlast rfl
    exact h (List.mem_singleton.1 hlast ▸ ho)

/-- The dictionary of pairs given one after the other. -/
def ofPairs (pairs : List (Key × Value)) : Dictionary Key Value :=
  pairs.foldl (fun d (key, value) => insert key value d) []

/-- A dictionary of pairs lists each key once. -/
theorem nodup_keys_ofPairs (pairs : List (Key × Value)) : (keys (ofPairs pairs)).Nodup := by
  have hfold (d : Dictionary Key Value) (hd : (keys d).Nodup) :
      (keys (pairs.foldl (fun d (key, value) => insert key value d) d)).Nodup := by
    induction pairs generalizing d with
    | nil => exact hd
    | cons pair rest ih => exact ih _ (nodup_keys_insert hd pair.1 pair.2)
  exact hfold [] List.nodup_nil

/-- With distinct keys, each pair says what its key stands for. -/
theorem get?_of_mem {d : Dictionary Key Value} (hd : (keys d).Nodup) {key : Key} {value : Value}
    (h : (key, value) ∈ d) : get? d key = some value := by
  induction d with
  | nil => simp at h
  | cons entry rest ih =>
    obtain ⟨first, old⟩ := entry
    obtain ⟨hfirst, hrest⟩ := List.nodup_cons.1 hd
    rw [get?_cons]
    rcases List.mem_cons.1 h with he | hmem
    · simp_all
    · have hkey : key ∈ keys rest := List.mem_map.2 ⟨(key, value), hmem, rfl⟩
      have hne : key ≠ first := fun e => hfirst (e ▸ hkey)
      rw [if_neg hne, ih hrest hmem]

/-- With distinct keys, what a key stands for is said by one of the pairs. -/
theorem get?_eq_some_iff {d : Dictionary Key Value} (hd : (keys d).Nodup) {key : Key}
    {value : Value} : get? d key = some value ↔ (key, value) ∈ d := by
  refine ⟨fun h => ?_, get?_of_mem hd⟩
  obtain ⟨before, after, rfl, -⟩ := List.lookup_eq_some_iff.1 h
  exact List.mem_append_right _ List.mem_cons_self

end Dictionary

end ArgGuard
