import ArgGuard.Json.Outline

/-!
# Objects as dictionaries

An object whose members are all of one kind is read as a dictionary, either straight from the
outline of a text or from a value that was read before. A name given twice keeps its place and
its last member.
-/

namespace ArgGuard.Json

/-- Read the members of an object, all in one way, after which the object ends. -/
def readMembers {α : Type} (read : Outline → Except Fault α) (ending : ObjectEnd) :
    List (Except Fault Text × Outline) → Except Fault (List (Text × α))
  | [] => Outline.unlessFault ending.fault? []
  | (name, o) :: rest => do
    let name ← name
    let member ← read o
    let rest ← readMembers read ending rest
    return (name, member) :: rest

/-- Read an object whose members are all read in one way, given the nesting left for them. -/
def readDictionary {α : Type} (read : Nat → Outline → Except Fault α) (depth : Nat) :
    Outline → Except Fault (Dictionary Text α)
  | .object members ending =>
    match depth with
    | 0 => .error .tooDeep
    | depth + 1 => return Dictionary.ofPairs (← readMembers (read depth) ending members)
  | o => .error (Outline.mismatch "a map" o.found)

/-- What is read as a dictionary lists each name once. -/
theorem nodup_keys_readDictionary {α : Type} {read : Nat → Outline → Except Fault α} {depth : Nat}
    {o : Outline} {d : Dictionary Text α} (h : readDictionary read depth o = .ok d) :
    (Dictionary.keys d).Nodup := by
  unfold readDictionary at h
  split at h
  next members ending =>
    split at h
    next => simp at h
    next depth =>
      cases hm : readMembers (read depth) ending members with
      | error fault => simp [hm, bind, Except.bind] at h
      | ok pairs =>
        obtain rfl : Dictionary.ofPairs pairs = d := by
          simpa [hm, bind, Except.bind, pure, Except.pure] using h
        exact Dictionary.nodup_keys_ofPairs pairs
  next => simp at h

/-- Read the members of an object value, all in one way. -/
def readMemberValues {α : Type} (read : Value → Except Fault α) :
    List (Text × Value) → Except Fault (List (Text × α))
  | [] => .ok []
  | (name, v) :: rest => do
    let member ← read v
    let rest ← readMemberValues read rest
    return (name, member) :: rest

/-- Read an object value whose members are all read in one way. -/
def readDictionaryValue {α : Type} (read : Value → Except Fault α) :
    Value → Except Fault (Dictionary Text α)
  | .object members => return Dictionary.ofPairs (← readMemberValues read members)
  | v => .error (.wrongType (Found.ofValue v) "a map")

/-- What is read as a dictionary from a value lists each name once. -/
theorem nodup_keys_readDictionaryValue {α : Type} {read : Value → Except Fault α} {v : Value}
    {d : Dictionary Text α} (h : readDictionaryValue read v = .ok d) :
    (Dictionary.keys d).Nodup := by
  unfold readDictionaryValue at h
  split at h
  next members =>
    cases hm : readMemberValues read members with
    | error fault => simp [hm, bind, Except.bind] at h
    | ok pairs =>
      obtain rfl : Dictionary.ofPairs pairs = d := by
        simpa [hm, bind, Except.bind, pure, Except.pure] using h
      exact Dictionary.nodup_keys_ofPairs pairs
  next => simp at h

/-- The values of an object by name, read from its text. -/
def membersOfText (s : Text) : Except Fault (Dictionary Text Value) :=
  readText (readDictionary (fun depth o => o.value depth) Outline.nestingLimit) s

end ArgGuard.Json
