import ArgGuard.Proofs.Places

/-!
# Names of files in directories

The name of a file is the last component of its path. Inside one directory, different names lead to
different places.
-/

namespace ArgGuard

namespace Path

variable {path other name directory : Text}

/-- A text is cut at a separator as a list is split there. -/
theorem splitAt_eq_splitOn (separator : Char) (s : Text) :
    splitAt separator s = List.splitOn separator s := by
  induction s with
  | nil => rfl
  | cons c rest ih =>
    rw [splitAt, List.splitOn_cons_eq_if_modifyHead, ← ih]
    by_cases hc : c = separator
    · simp [hc]
    · cases hrest : splitAt separator rest with
      | nil => exact absurd hrest (splitAt_ne_nil separator rest)
      | cons piece pieces => simp [hc]

/-- A text is cut into its pieces on both sides of a separator. -/
theorem splitAt_append (separator : Char) (s t : Text) :
    splitAt separator (s ++ separator :: t) = splitAt separator s ++ splitAt separator t := by
  simp only [splitAt_eq_splitOn, List.splitOn_append_cons_self]

/-- A text without a separator is a piece. -/
theorem splitAt_eq_singleton {separator : Char} {s : Text} (h : separator ∉ s) :
    splitAt separator s = [s] := by
  rw [splitAt_eq_splitOn, List.splitOn_eq_singleton h]

/-- A piece holds no separator. -/
theorem not_mem_of_mem_splitAt {separator : Char} {s piece : Text}
    (h : piece ∈ splitAt separator s) : separator ∉ piece := by
  induction s generalizing piece with
  | nil =>
    obtain rfl := List.mem_singleton.1 h
    exact List.not_mem_nil
  | cons c rest ih =>
    rw [splitAt] at h
    split at h
    next =>
      rcases List.mem_cons.1 h with rfl | h
      · exact List.not_mem_nil
      · exact ih h
    next hne =>
      split at h
      next =>
        obtain rfl := List.mem_singleton.1 h
        simpa using fun hc => hne hc.symm
      next first pieces hrest =>
        rw [hrest] at ih
        rcases List.mem_cons.1 h with rfl | h
        · rw [List.mem_cons, not_or]
          exact ⟨fun hc => hne hc.symm, ih List.mem_cons_self⟩
        · exact ih (List.mem_cons_of_mem _ h)

/-- A text that names an entry of a directory. -/
structure IsName (name : Text) : Prop where
  /-- It is one piece. -/
  no_slash : '/' ∉ name
  /-- It does not drop out, and does not lead up. -/
  ofPiece? : Component.ofPiece? name = some (.name name)

/-- The name of the entry that a component leads to. -/
def Component.name? : Component → Option Text
  | .name text => some text
  | _ => none

/-- A piece that is a component with a name is that name. -/
theorem eq_of_ofPiece?_eq_name {piece : Text} (h : Component.ofPiece? piece = some (.name name)) :
    piece = name := by
  unfold Component.ofPiece? at h
  split at h
  next => simp at h
  next =>
    split at h
    next => simp at h
    next => exact Component.name.inj (Option.some.inj h)

/-- Of pieces from the last one on, the first that is a component tells the name. -/
theorem name?_head?_filterMap (l : List Text) :
    (l.filterMap Component.ofPiece?).head?.bind Component.name? =
      (match l.dropWhile fun piece => piece = [] || piece = ['.'] with
      | [] => none
      | piece :: before => if piece = ['.', '.'] then none else some (before.reverse, piece)).map
        Prod.snd := by
  induction l with
  | nil => rfl
  | cons piece rest ih =>
    by_cases hdrops : piece = [] ∨ piece = ['.']
    · simpa [hdrops, Component.ofPiece?] using ih
    · by_cases hparent : piece = ['.', '.'] <;>
        simp [hdrops, hparent, Component.ofPiece?, Component.name?]

/-- The name of a file is its last piece that is a component, if that has a name. -/
theorem fileName?_eq_of_pieces (path : Text) :
    fileName? path =
      ((pieces path).filterMap Component.ofPiece?).getLast?.bind Component.name? := by
  have hpieces := name?_head?_filterMap (pieces path).reverse
  rw [List.filterMap_reverse, List.head?_reverse] at hpieces
  exact hpieces.symm

/-- The name of a file is its last component, if that has a name. -/
theorem fileName?_eq (path : Text) :
    fileName? path = (components path).getLast?.bind Component.name? := by
  -- The component in front of all pieces has no name.
  have hfront (c : Component) (hc : c.name? = none) (rest : List Component) :
      (c :: rest).getLast?.bind Component.name? = rest.getLast?.bind Component.name? := by
    cases rest <;> simp [hc]
  rw [fileName?_eq_of_pieces, components]
  split
  next => rw [hfront .root rfl]
  next =>
    split
    next => rw [hfront .here rfl]
    next => rfl

/-- Equal paths have equal file names. -/
theorem fileName?_eq_of_same (h : same path other) : fileName? path = fileName? other := by
  rw [fileName?_eq, fileName?_eq, of_decide_eq_true h]

/-- A file name names an entry. -/
theorem isName_of_fileName? (h : fileName? path = some name) : IsName name := by
  rw [fileName?_eq_of_pieces] at h
  obtain ⟨c, hlast, hc⟩ := Option.bind_eq_some_iff.1 h
  obtain ⟨piece, hpiece, hname⟩ := List.mem_filterMap.1 (List.mem_of_getLast? hlast)
  obtain rfl : c = .name name := by cases c <;> simp_all [Component.name?]
  obtain rfl := eq_of_ofPiece?_eq_name hname
  exact ⟨not_mem_of_mem_splitAt hpiece, hname⟩

/-- A path that goes on from any directory: it starts neither at the root nor with a dot. -/
structure GoesOn (path : Text) : Prop where
  /-- It starts with no slash. -/
  not_isAbsolute : isAbsolute path = false
  /-- Its first piece is no single dot. -/
  head? : (pieces path).head? ≠ some ['.']

/-- A name is its only piece. -/
theorem IsName.pieces_eq (h : IsName name) : pieces name = [name] := splitAt_eq_singleton h.no_slash

/-- A name goes on from any directory. -/
theorem IsName.goesOn (h : IsName name) : GoesOn name where
  not_isAbsolute := by
    cases name with
    | nil => rfl
    | cons c rest =>
      have hc := List.ne_of_not_mem_cons h.no_slash
      simpa [isAbsolute] using hc.symm
  head? := by
    rw [h.pieces_eq]
    rintro hdot
    obtain rfl := Option.some.inj hdot
    simpa [Component.ofPiece?] using h.ofPiece?

/-- The components of a path that goes on are those of its pieces. -/
theorem GoesOn.components_eq (h : GoesOn path) :
    components path = (pieces path).filterMap Component.ofPiece? := by
  rw [components, if_neg (by simp [h.not_isAbsolute]), if_neg h.head?]

/-- A path inside a directory starts where the directory does. -/
theorem isAbsolute_join (h : GoesOn path) (directory : Text) :
    isAbsolute (join directory path) = isAbsolute directory := by
  rw [join, if_neg (by simp [h.not_isAbsolute])]
  cases directory with
  | nil => exact h.not_isAbsolute
  | cons c rest =>
    split <;> rfl

/-- The pieces of a path inside a directory that count are those of the directory and the path. -/
theorem pieces_join (h : GoesOn path) (directory : Text) :
    (pieces (join directory path)).filterMap Component.ofPiece? =
        (pieces directory).filterMap Component.ofPiece? ++
          (pieces path).filterMap Component.ofPiece? ∧
      ((pieces (join directory path)).head? = some ['.'] ↔
        (pieces directory).head? = some ['.']) := by
  have hcut (s t : Text) : pieces (s ++ '/' :: t) = pieces s ++ pieces t := splitAt_append '/' s t
  have hhead (s t : Text) : (pieces (s ++ '/' :: t)).head? = (pieces s).head? := by
    obtain ⟨piece, rest, hs⟩ := List.exists_cons_of_ne_nil (splitAt_ne_nil '/' s)
    rw [hcut, pieces, hs, List.cons_append, List.head?_cons, List.head?_cons]
  rw [join, if_neg (by simp [h.not_isAbsolute])]
  split
  next hbare =>
    rcases hbare with rfl | hslash
    · rw [List.nil_append]
      exact ⟨rfl, by simpa [pieces, splitAt] using h.head?⟩
    · obtain ⟨init, rfl⟩ := List.getLast?_eq_some_iff.1 hslash
      rw [List.append_assoc, List.singleton_append, hhead, hhead, hcut, hcut]
      refine ⟨?_, Iff.rfl⟩
      rw [List.filterMap_append, List.filterMap_append]
      simp [pieces, splitAt, Component.ofPiece?]
  next => exact ⟨by rw [hcut, List.filterMap_append], by rw [hhead]⟩

/-- A path inside a directory goes on behind that. -/
theorem components_join (h : GoesOn path) (directory : Text) :
    components (join directory path) = components directory ++ components path := by
  obtain ⟨hpieces, hhead⟩ := pieces_join h directory
  rw [h.components_eq, components, components, hpieces, isAbsolute_join h]
  simp only [hhead]
  split
  next => rfl
  next => split <;> rfl

/-- A name is one component. -/
theorem IsName.components_eq (h : IsName name) : components name = [.name name] := by
  rw [h.goesOn.components_eq, h.pieces_eq]
  exact List.filterMap_cons_some h.ofPiece?

end Path

namespace FileTree

variable {tree : FileTree} {directory name other : Text} {place : Place}

/-- The place of an entry of a directory. -/
def entryPlace (tree : FileTree) (directory name : Text) : Place :=
  ((Path.components directory).foldl Place.step (tree.startOf directory)).step (.name name)

/-- An entry of a directory is found at its place. -/
theorem eq_entryPlace (hname : Path.IsName name)
    (h : tree.locate (Path.join directory name) = .ok place) :
    place = tree.entryPlace directory name := by
  rw [eq_of_locate h, Path.components_join hname.goesOn, hname.components_eq, List.foldl_append,
    startOf, Path.isAbsolute_join hname.goesOn]
  rfl

/-- Different entries of a directory have different places. -/
theorem eq_of_entryPlace_eq
    (h : tree.entryPlace directory name = tree.entryPlace directory other) : name = other := by
  simpa [entryPlace, Place.step] using h

end FileTree

end ArgGuard
