import ArgGuard.Json.Scalar

/-!
# Outlines of JSON texts

The outline of a text is the tree of its arrays, objects and scalars as far as the text goes
without a break, with the place where it breaks off. Every text has an outline. Readers are
recursions over outlines: they visit it in the order of the text, so the first fault they meet
is the first one in the text, and a reader that skips a part can do so without reading it.
-/

namespace ArgGuard.Json

/-- How an array ends. -/
inductive ListEnd where
  /-- With its bracket. -/
  | closed
  /-- The text ends before a comma or the bracket. -/
  | unfinished
  /-- Something else than a comma or the bracket follows an item. -/
  | stray
  /-- The bracket follows a comma. -/
  | danglingComma
  /-- The text ends after a comma. -/
  | commaAtEnd
  deriving DecidableEq, Repr

/-- How an object ends. -/
inductive ObjectEnd where
  /-- With its brace. -/
  | closed
  /-- The text ends before a comma or the brace. -/
  | unfinished
  /-- Something else than a comma or the brace follows a member. -/
  | stray
  /-- The brace follows a comma. -/
  | danglingComma
  /-- The text ends after a comma. -/
  | commaAtEnd
  /-- Something else than a string stands where a member's name should be. -/
  | nameMissing (found : Except Fault Found)
  /-- A member's name breaks off. -/
  | nameBroken (gap : Break)
  /-- No colon follows a member's name, or nothing at all. -/
  | colonMissing (name : Except Fault Text) (atEnd : Bool)

/-- The fault with which reading meets the end of an array. -/
def ListEnd.fault? : ListEnd → Option Fault
  | closed => none
  | unfinished => some .endInList
  | stray => some .commaOrBracketExpected
  | danglingComma => some .trailingComma
  | commaAtEnd => some .endInValue

/-- The fault with which skipping meets the end of an array. -/
def ListEnd.skipFault? : ListEnd → Option Fault
  | danglingComma => some .valueExpected
  | ending => ending.fault?

/-- The fault at a missing colon. -/
def colonFault (atEnd : Bool) : Fault := if atEnd then .endInObject else .colonExpected

/-- The fault with which reading meets the end of an object. -/
def ObjectEnd.fault? : ObjectEnd → Option Fault
  | closed => none
  | unfinished => some .endInObject
  | stray => some .commaOrBraceExpected
  | danglingComma => some .trailingComma
  | commaAtEnd => some .endInValue
  | nameMissing _ => some .nameExpected
  | nameBroken gap => some gap.fault
  | colonMissing (.error fault) _ => some fault
  | colonMissing (.ok _) atEnd => some (colonFault atEnd)

/-- The fault with which skipping meets the end of an object. -/
def ObjectEnd.skipFault? : ObjectEnd → Option Fault
  | danglingComma => some .nameExpected
  | commaAtEnd => some .endInObject
  | nameBroken gap => some gap.skipped
  | colonMissing _ atEnd => some (colonFault atEnd)
  | ending => ending.fault?

/-- The outline of a JSON text. -/
inductive Outline where
  /-- A scalar. -/
  | scalar (scalar : Scalar)
  /-- An array: its items up to its end or a break. -/
  | list (items : List Outline) (ending : ListEnd)
  /-- An object: its members up to its end or a break. -/
  | object (members : List (Except Fault Text × Outline)) (ending : ObjectEnd)
  /-- The text breaks off at a value, which starts with the given character, if any. -/
  | broken (start : Option Char) (gap : Break)

namespace Outline

/-- What an outline is found to be where another type is expected. -/
def found : Outline → Except Fault Found
  | scalar s => s.found
  | list _ _ => .ok .array
  | object _ _ => .ok .object
  | broken _ gap => .error gap.fault

/-- The fault of an outline that is not of the expected type. -/
def mismatch (expected : Text) (found : Except Fault Found) : Fault :=
  match found with
  | .ok found => .wrongType found expected
  | .error fault => fault

mutual

/-- The outline of the value in front of a text, and the text behind it; nothing is left
behind a break. The bound is more than the brackets, commas and scalars of the text. -/
def valueWithin : Nat → Text → Outline × Text
  | 0, _ => (.broken none (.both .endInValue), [])
  | bound + 1, s =>
    match Front.ofText s with
    | .broken start gap => (.broken start gap, [])
    | .scalar leaf rest => (.scalar leaf, rest)
    | .openList rest =>
      match skipSpace rest with
      | [] => (.list [] .unfinished, [])
      | ']' :: rest => (.list [] .closed, rest)
      | rest =>
        let (items, ending, rest) := itemsWithin bound rest
        (.list items ending, rest)
    | .openObject rest =>
      match skipSpace rest with
      | [] => (.object [] .unfinished, [])
      | '\x7d' :: rest => (.object [] .closed, rest)
      | rest =>
        let (members, ending, rest) := membersWithin bound rest
        (.object members ending, rest)

/-- The items of an array from one item on. -/
def itemsWithin : Nat → Text → List Outline × ListEnd × Text
  | 0, _ => ([], .unfinished, [])
  | bound + 1, s =>
    let (item, rest) := valueWithin bound s
    match skipSpace rest with
    | [] => ([item], .unfinished, [])
    | ']' :: rest => ([item], .closed, rest)
    | ',' :: rest =>
      match skipSpace rest with
      | [] => ([item], .commaAtEnd, [])
      | ']' :: _ => ([item], .danglingComma, [])
      | rest =>
        let (items, ending, rest) := itemsWithin bound rest
        (item :: items, ending, rest)
    | _ => ([item], .stray, [])

/-- The members of an object from one name on. -/
def membersWithin : Nat → Text → List (Except Fault Text × Outline) × ObjectEnd × Text
  | 0, _ => ([], .unfinished, [])
  | bound + 1, '"' :: s =>
    match string? s with
    | .error gap => ([], .nameBroken gap, [])
    | .ok (name, rest) =>
      match skipSpace rest with
      | ':' :: rest =>
        let (value, rest) := valueWithin bound rest
        match skipSpace rest with
        | [] => ([(name, value)], .unfinished, [])
        | '\x7d' :: rest => ([(name, value)], .closed, rest)
        | ',' :: rest =>
          match skipSpace rest with
          | [] => ([(name, value)], .commaAtEnd, [])
          | '\x7d' :: _ => ([(name, value)], .danglingComma, [])
          | rest =>
            let (members, ending, rest) := membersWithin bound rest
            ((name, value) :: members, ending, rest)
        | _ => ([(name, value)], .stray, [])
      | rest => ([], .colonMissing name rest.isEmpty, [])
  | _, s => ([], .nameMissing (Front.ofText s).found, [])

end

/-- The outline of the value in front of a text, and the text behind it. -/
def ofText (s : Text) : Outline × Text := valueWithin (2 * s.length + 2) s

mutual

/-- The first fault that skipping an outline meets. -/
def skipFault? : Outline → Option Fault
  | scalar _ => none
  | list items ending => (skipItems items).or ending.skipFault?
  | object members ending => (skipMembers members).or ending.skipFault?
  | broken _ gap => some gap.skipped

/-- The first fault among the items of an array. -/
def skipItems : List Outline → Option Fault
  | [] => none
  | item :: rest => (skipFault? item).or (skipItems rest)

/-- The first fault among the members of an object. -/
def skipMembers : List (Except Fault Text × Outline) → Option Fault
  | [] => none
  | (_, value) :: rest => (skipFault? value).or (skipMembers rest)

end

/-- Skip a part of a text. -/
def skip (o : Outline) : Except Fault Unit :=
  match o.skipFault? with
  | none => .ok ()
  | some fault => .error fault

/-- Go on with a result unless there is a fault. -/
def unlessFault {α : Type} (fault : Option Fault) (result : α) : Except Fault α :=
  match fault with
  | none => .ok result
  | some fault => .error fault

/-- How many arrays and objects may enclose each other in what is read. -/
def nestingLimit : Nat := 127

mutual

/-- The value of an outline in which so many arrays and objects may enclose each other. -/
def value (depth : Nat) : Outline → Except Fault Value
  | scalar s => s.value
  | broken _ gap => .error gap.fault
  | list items ending =>
    match depth with
    | 0 => .error .tooDeep
    | depth + 1 => do
      let items ← values depth items
      unlessFault ending.fault? (.array items)
  | object members ending =>
    match depth with
    | 0 => .error .tooDeep
    | depth + 1 => do
      let members ← memberValues depth members
      unlessFault ending.fault? (.object (Dictionary.ofPairs members))

/-- The values of the items of an array. -/
def values (depth : Nat) : List Outline → Except Fault (List Value)
  | [] => .ok []
  | item :: rest => do
    let item ← value depth item
    let rest ← values depth rest
    return item :: rest

/-- The names and values of the members of an object. -/
def memberValues (depth : Nat) :
    List (Except Fault Text × Outline) → Except Fault (List (Text × Value))
  | [] => .ok []
  | (name, o) :: rest => do
    let name ← name
    let member ← value depth o
    let rest ← memberValues depth rest
    return (name, member) :: rest

end

end Outline

/-- Read a whole text: the value in front of it, and nothing behind but white space. -/
def readText {α : Type} (read : Outline → Except Fault α) (s : Text) : Except Fault α := do
  let (outline, rest) := Outline.ofText s
  let result ← read outline
  Outline.unlessFault (if (skipSpace rest).isEmpty then none else some .trailingCharacters) result

/-- The value that a text writes. -/
def Value.ofText (s : Text) : Except Fault Value := readText (Outline.value Outline.nestingLimit) s

end ArgGuard.Json
