import ArgGuard.Proofs.ReadOnly

/-!
# Trees listed in another order

Two trees may hold the same at every place and list it in different orders. Whatever is asked about
one place has the same answer in both, so a search finds the same paths, and a change that is made
in both leaves them holding the same.
-/

namespace ArgGuard

/-- Lists with the same members, however often and in whatever order. -/
def SameMembers {α : Type} (items others : List α) : Prop := ∀ item, item ∈ items ↔ item ∈ others

namespace SameMembers

variable {α β : Type} {items others rest ends : List α}

/-- A list has its own members. -/
theorem refl (items : List α) : SameMembers items items := fun _ => Iff.rfl

/-- Lists have the same members if each has those of the other one. -/
theorem of_subset (h : items ⊆ others) (h' : others ⊆ items) : SameMembers items others :=
  fun _ => ⟨fun hi => h hi, fun ho => h' ho⟩

/-- Lists with the same members, one after the other. -/
theorem append (h : SameMembers items others) (h' : SameMembers rest ends) :
    SameMembers (items ++ rest) (others ++ ends) := by
  intro item
  rw [List.mem_append, List.mem_append, h, h']

/-- Of the same members the same ones are chosen. -/
theorem filter (h : SameMembers items others) (p : α → Bool) :
    SameMembers (items.filter p) (others.filter p) := by
  intro item
  rw [List.mem_filter, List.mem_filter, h]

/-- The same members stand for the same ones. -/
theorem map (h : SameMembers items others) (f : α → β) :
    SameMembers (items.map f) (others.map f) := by
  intro b
  simp only [List.mem_map, h _]

/-- The same members stand for lists with the same members. -/
theorem flatMap {f g : α → List β} (h : SameMembers items others)
    (hf : ∀ item, SameMembers (f item) (g item)) :
    SameMembers (items.flatMap f) (others.flatMap g) := by
  intro b
  simp only [List.mem_flatMap, h _, hf _ b]

end SameMembers

/-- Results that fail in related ways, or succeed with related values. -/
inductive Alike {ε α β : Type} (E : ε → ε → Prop) (R : α → β → Prop) :
    Except ε α → Except ε β → Prop
  /-- Both fail. -/
  | error {e e' : ε} (h : E e e') : Alike E R (.error e) (.error e')
  /-- Both succeed. -/
  | ok {a : α} {b : β} (h : R a b) : Alike E R (.ok a) (.ok b)

/-- Values that are related are turned into others that are. -/
theorem Alike.map {ε α β α' β' : Type} {E : ε → ε → Prop} {R : α → β → Prop} {S : α' → β' → Prop}
    {x : Except ε α} {y : Except ε β} (h : Alike E R x y) {f : α → α'} {g : β → β'}
    (hf : ∀ a b, R a b → S (f a) (g b)) : Alike E S (x.map f) (y.map g) := by
  cases h with
  | error h => exact .error h
  | ok h => exact .ok (hf _ _ h)

namespace FileTree

variable {tree other : FileTree} {path path' : Text} {place : Place}

/-- A name stands directly below a place if something is there. -/
theorem mem_namesBelow {name : Text} :
    name ∈ tree.namesBelow place ↔ tree.at? (place ++ [name]) ≠ none := by
  have hkey (key : Place) :
      (if key.length = place.length + 1 ∧ key.dropLast = place then key.getLast? else none) =
        some name ↔ key = place ++ [name] := by
    constructor
    · intro h
      split at h
      next hkey =>
        obtain ⟨before, rfl⟩ := List.getLast?_eq_some_iff.1 h
        rw [← hkey.2, List.dropLast_concat]
      next => simp at h
    · rintro rfl
      simp
  rw [at?_eq_get? (by simp), Dictionary.get?_ne_none_iff, namesBelow, List.mem_filterMap]
  simp only [hkey, exists_eq_right]

/-- Trees with one working directory that hold the same at every place, in whatever order they list
it. -/
structure SameEntries (tree other : FileTree) : Prop where
  /-- Relative paths start in the same place. -/
  workingDirectory : tree.workingDirectory = other.workingDirectory
  /-- Every place holds the same. -/
  at? (place : Place) : tree.at? place = other.at? place

namespace SameEntries

/-- A tree holds what it holds. -/
theorem refl (tree : FileTree) : SameEntries tree tree := ⟨rfl, fun _ => rfl⟩

/-- It does not matter in which order a tree lists what it holds. -/
theorem of_perm (hw : tree.workingDirectory = other.workingDirectory)
    (h : tree.entries.Perm other.entries) (hd : (Dictionary.keys tree.entries).Nodup) :
    SameEntries tree other := by
  have hd' : (Dictionary.keys other.entries).Nodup := (h.map Prod.fst).nodup_iff.1 hd
  refine ⟨hw, fun place => ?_⟩
  by_cases hplace : place = []
  · rw [hplace]
    rfl
  · rw [at?_eq_get? hplace, at?_eq_get? hplace]
    refine Option.ext fun entry => ?_
    rw [Dictionary.get?_eq_some_iff hd, Dictionary.get?_eq_some_iff hd', h.mem_iff]

section Looks

/-- Pieces of a path lead to the same place. -/
theorem reach (h : SameEntries tree other) : tree.reach = other.reach := by
  have hfollow : tree.follow = other.follow := by
    funext place piece
    unfold follow
    rw [h.at? place]
  funext path pieces
  rw [FileTree.reach, FileTree.reach, followAll, followAll, hfollow, startOf, startOf,
    h.workingDirectory]

/-- A path leads to the same place. -/
theorem locate (h : SameEntries tree other) : tree.locate = other.locate := by
  funext path
  rw [FileTree.locate, FileTree.locate, h.reach]

/-- A path leads to the same entry. -/
theorem entry (h : SameEntries tree other) : tree.entry = other.entry := by
  funext path
  rw [FileTree.entry, FileTree.entry, h.locate]
  simp only [h.at?]

/-- The same paths lead to files. -/
theorem isFile (h : SameEntries tree other) : tree.isFile = other.isFile := by
  funext path
  rw [FileTree.isFile, FileTree.isFile, h.entry]

/-- The same paths lead to directories. -/
theorem isDirectory (h : SameEntries tree other) : tree.isDirectory = other.isDirectory := by
  funext path
  rw [FileTree.isDirectory, FileTree.isDirectory, h.entry]

/-- The same texts are read. -/
theorem read (h : SameEntries tree other) : tree.read = other.read := by
  funext path
  rw [FileTree.read, FileTree.read, h.entry]

/-- The same names are listed. -/
theorem list (h : SameEntries tree other) (path : Text) :
    Alike Eq SameMembers (tree.list path) (other.list path) := by
  rw [FileTree.list, FileTree.list, h.locate]
  cases other.locate path with
  | error error => exact .error rfl
  | ok place =>
    simp only [bind, Except.bind, h.at? place]
    split
    next =>
      refine .ok fun name => ?_
      rw [mem_namesBelow, mem_namesBelow, h.at?]
    next => exact .error rfl
    next => exact .error rfl

end Looks

section Changes

/-- The same entry is put at a place below the root. -/
theorem put (h : SameEntries tree other) (hne : place ≠ []) (entry : Entry) :
    SameEntries (tree.put place entry) (other.put place entry) := by
  refine ⟨h.workingDirectory, fun found => ?_⟩
  rw [at?_put hne, at?_put hne, h.at?]

/-- The same text is written to paths that lead to the same place. -/
theorem write (h : SameEntries tree other) (hl : tree.locate path = other.locate path')
    (text : Text) : Alike Eq SameEntries (tree.write path text) (other.write path' text) := by
  rw [FileTree.write, FileTree.write, hl]
  cases other.locate path' with
  | error error => exact .error rfl
  | ok place =>
    simp only [bind, Except.bind, h.at? place]
    split
    next => exact .error rfl
    next hno => exact .ok (h.put (ne_nil_of_at? hno) _)

/-- The same directory is made. -/
theorem makeDirectory (h : SameEntries tree other) (path : Text) :
    Alike Eq SameEntries (tree.makeDirectory path) (other.makeDirectory path) := by
  rw [FileTree.makeDirectory, FileTree.makeDirectory, h.reach]
  cases other.reach path (Path.trimmedPieces path) with
  | error error => exact .error rfl
  | ok place =>
    simp only [bind, Except.bind, h.at? place]
    split
    next hnone =>
      have hno : other.at? place ≠ some .directory := by simp [hnone]
      exact .ok (h.put (ne_nil_of_at? hno) _)
    next => exact .error rfl

/-- The same directories are made, as far as that goes. -/
theorem makeDirectories (h : SameEntries tree other) (path : Text)
    (components : List Path.Component) :
    SameEntries (tree.makeDirectories path components).1
        (other.makeDirectories path components).1 ∧
      (tree.makeDirectories path components).2 = (other.makeDirectories path components).2 := by
  induction components generalizing path with
  | nil => exact ⟨h, rfl⟩
  | cons last above ih =>
    rw [FileTree.makeDirectories, FileTree.makeDirectories]
    have hfirst := h.makeDirectory path
    dsimp only
    generalize tree.makeDirectory path = made, other.makeDirectory path = made' at hfirst
    cases hfirst with
    | ok hmade => exact ⟨hmade, rfl⟩
    | @error error _ herror =>
      subst herror
      cases error
      case notFound =>
        have habove := ih (Path.ofComponents above.reverse)
        dsimp only
        generalize tree.makeDirectories (Path.ofComponents above.reverse) above = outer,
          other.makeDirectories (Path.ofComponents above.reverse) above = outer' at habove
        obtain ⟨outer, result⟩ := outer
        obtain ⟨outer', _⟩ := outer'
        obtain ⟨houter, rfl⟩ := habove
        cases result with
        | error error => exact ⟨houter, rfl⟩
        | ok =>
          have hsecond := houter.makeDirectory path
          dsimp only at hsecond ⊢
          generalize outer.makeDirectory path = made, outer'.makeDirectory path = made'
            at hsecond
          cases hsecond with
          | ok hmade => exact ⟨hmade, rfl⟩
          | error herror => exact ⟨houter, by rw [herror, houter.isDirectory]⟩
      all_goals exact ⟨h, by simp only [h.isDirectory]⟩

end Changes

end SameEntries

end FileTree

end ArgGuard
