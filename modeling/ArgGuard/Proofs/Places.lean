import ArgGuard.Files.Tree
import ArgGuard.Proofs.Sequences

/-!
# Places of paths

Where a path leads is told by its components and the working directory, as far as it leads anywhere.
Whether it does depends only on the directories of the tree, so it stays the same when files are
written.
-/

namespace ArgGuard

namespace FileTree

variable {tree changed other : FileTree} {path text piece : Text} {place next : Place}

/-- A path leads to an entry if its place holds that. -/
theorem entry_eq_ok_iff {entry : Entry} :
    tree.entry path = .ok entry ↔
      ∃ place, tree.locate path = .ok place ∧ tree.at? place = some entry := by
  rw [FileTree.entry, bind_eq_ok_iff]
  refine exists_congr fun place => and_congr_right fun _ => ?_
  cases tree.at? place with
  | none => simp [throw_ne_ok]
  | some found => simp [pure_eq_ok_iff]

/-- A path leads to a file if its place holds one. -/
theorem isFile_iff :
    tree.isFile path ↔
      ∃ place content, tree.locate path = .ok place ∧ tree.at? place = some (.file content) := by
  have hfile : tree.isFile path ↔ ∃ content, tree.entry path = .ok (.file content) := by
    unfold isFile
    split
    next content h => simp [h]
    next h => simpa using h
  simp only [hfile, entry_eq_ok_iff]
  exact exists_comm

/-- A path leads to a directory if its place holds one. -/
theorem isDirectory_iff :
    tree.isDirectory path ↔
      ∃ place, tree.locate path = .ok place ∧ tree.at? place = some .directory := by
  rw [← entry_eq_ok_iff]
  unfold isDirectory
  split
  next h => simp [h]
  next h => simpa using h

/-- The text of a file is that of its content. -/
theorem read_eq_of_at? {content : Content} (hp : tree.locate path = .ok place)
    (hc : tree.at? place = some (.file content)) : tree.read path = content.read := by
  have hentry : tree.entry path = .ok (.file content) := entry_eq_ok_iff.2 ⟨place, hp, hc⟩
  simp [read, hentry, bind, Except.bind]

/-- A path leads to a text if its place holds a file with that. -/
theorem read_eq_ok_iff :
    tree.read path = .ok text ↔
      ∃ place, tree.locate path = .ok place ∧ tree.at? place = some (.file (.text text)) := by
  constructor
  · intro h
    obtain ⟨entry, hentry, h⟩ := bind_eq_ok_iff.1 h
    obtain ⟨place, hplace, hat⟩ := entry_eq_ok_iff.1 hentry
    cases entry with
    | directory => exact absurd h throw_ne_ok
    | file content =>
      cases content with
      | bytes bs => simp [Content.read] at h
      | text s =>
        obtain rfl := Except.ok.inj h
        exact ⟨place, hplace, hat⟩
  · rintro ⟨place, hplace, hat⟩
    rw [read_eq_of_at? hplace hat]
    rfl

/-- Paths that lead to the same place have the same text. -/
theorem read_eq_of_locate_eq {path' : Text} (h : tree.locate path = tree.locate path') :
    tree.read path = tree.read path' := by
  rw [read, read, entry, entry, h]

/-- A directory can be listed. -/
theorem exists_list_of_isDirectory (h : tree.isDirectory path) :
    ∃ names, tree.list path = .ok names := by
  obtain ⟨place, hplace, hentry⟩ := isDirectory_iff.1 h
  simp [list, hplace, hentry, bind, Except.bind, pure, Except.pure]

/-- A place below the root holds what is listed for it. -/
theorem at?_eq_get? (hne : place ≠ []) : tree.at? place = Dictionary.get? tree.entries place := by
  cases place with
  | nil => exact absurd rfl hne
  | cons first rest => rfl

/-- An entry is put at its place, below the root, and every other place holds what it held. -/
theorem at?_put (hne : place ≠ []) (entry : Entry) (p : Place) :
    (tree.put place entry).at? p = if p = place then some entry else tree.at? p := by
  by_cases hp : p = []
  · rw [hp, if_neg hne.symm]
    rfl
  · rw [at?_eq_get? hp, at?_eq_get? hp, put, Dictionary.get?_insert]

/-- The root is a directory. -/
theorem ne_nil_of_at? (h : tree.at? place ≠ some .directory) : place ≠ [] := by
  rintro rfl
  exact h rfl

/-- A text is written to the place of its path, unless that is a directory. -/
theorem write_eq_ok_iff :
    tree.write path text = .ok changed ↔
      ∃ place, tree.locate path = .ok place ∧ tree.at? place ≠ some .directory ∧
        changed = tree.put place (.file (.text text)) := by
  rw [write, bind_eq_ok_iff]
  refine exists_congr fun place => and_congr_right fun _ => ?_
  split
  next hdirectory => simp [hdirectory, throw_ne_ok]
  next hno => rw [pure_eq_ok_iff, and_iff_right hno, eq_comm]

/-- A text that is written is what its place holds, and every other place holds what it held. -/
theorem of_write (h : tree.write path text = .ok changed) :
    ∃ place, tree.locate path = .ok place ∧ tree.at? place ≠ some .directory ∧
      ∀ p, changed.at? p = if p = place then some (.file (.text text)) else tree.at? p := by
  obtain ⟨place, hplace, hdirectory, rfl⟩ := write_eq_ok_iff.1 h
  exact ⟨place, hplace, hdirectory, at?_put (ne_nil_of_at? hdirectory) _⟩

/-- A text that is written leaves the working directory as it is. -/
theorem workingDirectory_of_write (h : tree.write path text = .ok changed) :
    changed.workingDirectory = tree.workingDirectory := by
  obtain ⟨place, -, -, rfl⟩ := write_eq_ok_iff.1 h
  rfl

/-- A text can be written to a file. -/
theorem exists_write_of_isFile (h : tree.isFile path) (text : Text) :
    ∃ changed, tree.write path text = .ok changed := by
  obtain ⟨place, content, hplace, hentry⟩ := isFile_iff.1 h
  exact ⟨_, write_eq_ok_iff.2 ⟨place, hplace, by simp [hentry], rfl⟩⟩

/-- The place behind a component, where that leads anywhere. -/
def Place.step (place : Place) : Path.Component → Place
  | .name name => place ++ [name]
  | .parent => place.dropLast
  | _ => place

/-- Following a piece of a path leads behind its component, from a directory. -/
theorem of_follow (h : tree.follow place piece = .ok next) :
    tree.at? place = some .directory ∧
      next = (Path.Component.ofPiece? piece).toList.foldl Place.step place := by
  unfold follow at h
  split at h
  next => simp at h
  next => simp at h
  next hdirectory =>
    refine ⟨hdirectory, ?_⟩
    split at h
    next name hpiece =>
      split at h
      next => simp at h
      next => simpa [hpiece, Place.step] using h.symm
    next hpiece => simpa [hpiece, Place.step] using h.symm
    next hname hparent =>
      obtain rfl := Except.ok.inj h
      cases hpiece : Path.Component.ofPiece? piece with
      | none => rfl
      | some component => cases component <;> simp_all [Place.step]

/-- A path that may be followed at all. -/
structure IsUsable (path : Text) : Prop where
  /-- It is not empty. -/
  ne_nil : path ≠ []
  /-- It holds no null character. -/
  no_null : path.contains (Char.ofNat 0) = false
  /-- It is not too long. -/
  length : Text.byteCount path < 4096

/-- Pieces of a path lead to a place if they do so from the start of the path. -/
theorem reach_eq_ok_iff {pieces : List Text} :
    tree.reach path pieces = .ok place ↔
      IsUsable path ∧ tree.followAll (tree.startOf path) pieces = .ok place := by
  unfold reach
  constructor
  · intro h
    split at h
    next => simp at h
    next hne =>
      split at h
      next => simp at h
      next hnull =>
        split at h
        next => simp at h
        next hlength => exact ⟨⟨hne, Bool.not_eq_true _ ▸ hnull, Nat.not_le.1 hlength⟩, h⟩
  · rintro ⟨husable, h⟩
    rw [if_neg husable.ne_nil, husable.no_null, if_neg Bool.false_ne_true,
      if_neg (Nat.not_le.2 husable.length)]
    exact h

/-- A tree starts where another one does, and has a directory wherever that has one. -/
structure KeepsDirectories (tree other : FileTree) : Prop where
  /-- Relative paths start in the same place. -/
  workingDirectory : tree.workingDirectory = other.workingDirectory
  /-- Directories stay. -/
  directory (place : Place) : tree.at? place = some .directory → other.at? place = some .directory

namespace KeepsDirectories

/-- What holds along two steps holds along both of them. -/
theorem trans (h : KeepsDirectories tree other) (h' : KeepsDirectories other changed) :
    KeepsDirectories tree changed :=
  ⟨h.workingDirectory.trans h'.workingDirectory,
    fun place hplace => h'.directory place (h.directory place hplace)⟩

/-- A piece of a path leads through directories only. -/
theorem follow (h : KeepsDirectories tree other) (hf : tree.follow place piece = .ok next) :
    other.follow place piece = .ok next := by
  have hdirectory := (of_follow hf).1
  unfold FileTree.follow at hf ⊢
  rw [hdirectory] at hf
  rw [h.directory place hdirectory]
  exact hf

/-- The pieces of a path lead through directories only. -/
theorem followAll (h : KeepsDirectories tree other) {pieces : List Text}
    (hf : tree.followAll place pieces = .ok next) : other.followAll place pieces = .ok next := by
  induction pieces generalizing place with
  | nil => exact hf
  | cons piece rest ih =>
    obtain ⟨middle, hmiddle, hrest⟩ := bind_eq_ok_iff.1 hf
    exact bind_eq_ok_iff.2 ⟨middle, h.follow hmiddle, ih hrest⟩

/-- Paths start in the same place. -/
theorem startOf (h : KeepsDirectories tree other) (path : Text) :
    other.startOf path = tree.startOf path := by
  rw [FileTree.startOf, FileTree.startOf, h.workingDirectory]

/-- The pieces of a path lead to the same place. -/
theorem reach (h : KeepsDirectories tree other) {pieces : List Text}
    (hr : tree.reach path pieces = .ok place) : other.reach path pieces = .ok place := by
  obtain ⟨husable, hf⟩ := reach_eq_ok_iff.1 hr
  exact reach_eq_ok_iff.2 ⟨husable, h.startOf path ▸ h.followAll hf⟩

/-- A path leads to the same place. -/
theorem locate (h : KeepsDirectories tree other) (hl : tree.locate path = .ok place) :
    other.locate path = .ok place := h.reach hl

end KeepsDirectories

/-- Trees with one working directory that have directories in the same places. -/
structure SameDirectories (tree other : FileTree) : Prop where
  /-- Relative paths start in the same place. -/
  workingDirectory : tree.workingDirectory = other.workingDirectory
  /-- The directories are the same. -/
  directory (place : Place) : tree.at? place = some .directory ↔ other.at? place = some .directory

namespace SameDirectories

/-- A tree has its own directories. -/
theorem refl (tree : FileTree) : SameDirectories tree tree := ⟨rfl, fun _ => Iff.rfl⟩

/-- It does not matter which tree comes first. -/
theorem symm (h : SameDirectories tree other) : SameDirectories other tree :=
  ⟨h.workingDirectory.symm, fun place => (h.directory place).symm⟩

/-- What holds along two steps holds along both of them. -/
theorem trans (h : SameDirectories tree other) (h' : SameDirectories other changed) :
    SameDirectories tree changed :=
  ⟨h.workingDirectory.trans h'.workingDirectory,
    fun place => (h.directory place).trans (h'.directory place)⟩

/-- The directories of the one tree are directories of the other. -/
theorem keeps (h : SameDirectories tree other) : KeepsDirectories tree other :=
  ⟨h.workingDirectory, fun place => (h.directory place).1⟩

/-- A text that is written replaces no directory. -/
theorem of_write (h : tree.write path text = .ok changed) : SameDirectories tree changed := by
  obtain ⟨place, -, hdirectory, hat⟩ := FileTree.of_write h
  refine ⟨(workingDirectory_of_write h).symm, fun p => ?_⟩
  rw [hat]
  split
  next hp => simp [hp, hdirectory]
  next => exact Iff.rfl

/-- Paths lead to the same places. -/
theorem locate (h : SameDirectories tree other) (hl : tree.locate path = .ok place) :
    other.locate path = .ok place := h.keeps.locate hl

end SameDirectories

/-- Pieces that lead somewhere lead behind the components that they stand for. -/
theorem eq_of_followAll {pieces : List Text} (h : tree.followAll place pieces = .ok next) :
    next = (pieces.filterMap Path.Component.ofPiece?).foldl Place.step place := by
  induction pieces generalizing place with
  | nil => exact (Except.ok.inj h).symm
  | cons piece rest ih =>
    obtain ⟨middle, hmiddle, hrest⟩ := bind_eq_ok_iff.1 h
    rw [ih hrest, (of_follow hmiddle).2, ← List.foldl_append]
    cases hpiece : Path.Component.ofPiece? piece <;> simp [hpiece]

/-- A path that leads somewhere leads behind its components. -/
theorem eq_of_locate (h : tree.locate path = .ok place) :
    place = (Path.components path).foldl Place.step (tree.startOf path) := by
  rw [eq_of_followAll (reach_eq_ok_iff.1 h).2, Path.components, startOf]
  cases habsolute : Path.isAbsolute path with
  | true => rfl
  | false =>
    simp only [Bool.false_eq_true, if_false]
    split <;> rfl

/-- Only an absolute path has the root as its first component. -/
theorem head?_components_eq_root_iff :
    (Path.components path).head? = some .root ↔ Path.isAbsolute path := by
  have hpiece (piece : Text) : Path.Component.ofPiece? piece ≠ some .root := by
    unfold Path.Component.ofPiece?
    split
    next => simp
    next => split <;> simp
  unfold Path.components
  cases habsolute : Path.isAbsolute path with
  | true => simp
  | false =>
    simp only [Bool.false_eq_true, if_false, iff_false]
    split
    next => simp
    next =>
      intro hhead
      obtain ⟨piece, -, hroot⟩ := List.mem_filterMap.1 (List.mem_of_mem_head? hhead)
      exact hpiece piece hroot

/-- Equal paths lead to the same place, where both lead anywhere. -/
theorem eq_of_same {path' : Text} {place' : Place} (h : Path.same path path')
    (hp : tree.locate path = .ok place) (ho : tree.locate path' = .ok place') : place = place' := by
  have hcomponents : Path.components path = Path.components path' := of_decide_eq_true h
  have habsolute : Path.isAbsolute path = Path.isAbsolute path' := by
    rw [Bool.eq_iff_iff, ← head?_components_eq_root_iff, hcomponents, head?_components_eq_root_iff]
  rw [eq_of_locate hp, eq_of_locate ho, hcomponents, startOf, startOf, habsolute]

/-- Equal paths to files lead to the same place. -/
theorem exists_locate_of_same {path' : Text} (h : Path.same path path') (hf : tree.isFile path)
    (hf' : tree.isFile path') :
    ∃ place, tree.locate path = .ok place ∧ tree.locate path' = .ok place := by
  obtain ⟨place, -, hplace, -⟩ := isFile_iff.1 hf
  obtain ⟨place', -, hplace', -⟩ := isFile_iff.1 hf'
  obtain rfl := eq_of_same h hplace hplace'
  exact ⟨place, hplace, hplace'⟩

end FileTree

end ArgGuard
