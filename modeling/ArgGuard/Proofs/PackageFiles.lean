import ArgGuard.Metadata.Store
import ArgGuard.Proofs.FileNames
import ArgGuard.Proofs.LineForms

/-!
# The files of packages

A package that a line declares has a name whose parts are words. So the path of its file has these
parts for its components, the last one with an extension: it stays inside any directory that it is
joined to, and no two packages share a file. Neither holds for other names: a part may then drop
out, lead up or back to the root, or lose what stands behind its dot.
-/

namespace ArgGuard

namespace Path

variable {names before : List Text} {base name last : Text}

/-- Names with slashes between them are the pieces of that path. -/
theorem pieces_joined (hne : names ≠ []) (h : ∀ name ∈ names, IsName name) :
    pieces (Text.joined "/" names) = names := by
  rw [pieces, splitAt_eq_splitOn]
  exact List.splitOn_intercalate '/' (fun name hname => (h name hname).no_slash) hne

/-- Names with slashes between them go on from any directory. -/
theorem goesOn_joined (hne : names ≠ []) (h : ∀ name ∈ names, IsName name) :
    GoesOn (Text.joined "/" names) := by
  obtain ⟨first, rest, rfl⟩ := List.exists_cons_of_ne_nil hne
  have hfirst := h first List.mem_cons_self
  refine ⟨?_, ?_⟩
  · cases first with
    | nil => simpa [Component.ofPiece?] using hfirst.ofPiece?
    | cons c first =>
      rw [Text.joined_cons]
      exact hfirst.goesOn.not_isAbsolute
  · have hhead := hfirst.goesOn.head?
    rw [hfirst.pieces_eq] at hhead
    rw [pieces_joined hne h]
    exact hhead

/-- Names with slashes between them are components. -/
theorem components_joined (hne : names ≠ []) (h : ∀ name ∈ names, IsName name) :
    components (Text.joined "/" names) = names.map .name := by
  rw [(goesOn_joined hne h).components_eq, pieces_joined hne h, ← List.filterMap_eq_map]
  exact List.filterMap_congr fun name hname => (h name hname).ofPiece?

/-- Names that are joined one by one to a path are put behind slashes. -/
theorem foldl_join_eq (h : ∀ name ∈ names, IsName name) (hne : base ≠ [])
    (hlast : base.getLast? ≠ some '/') :
    names.foldl join base = base ++ names.flatMap ('/' :: ·) := by
  induction names generalizing base with
  | nil => simp
  | cons name rest ih =>
    obtain ⟨hname, hrest⟩ := List.forall_mem_cons.1 h
    have hjoin : join base name = base ++ '/' :: name := by
      rw [join, if_neg (by simp [hname.goesOn.not_isAbsolute]), if_neg (by simp [hne, hlast])]
    have hend : (base ++ '/' :: name).getLast? ≠ some '/' := by
      cases name with
      | nil => simpa [Component.ofPiece?] using hname.ofPiece?
      | cons c tail =>
        rw [List.getLast?_append_cons, List.getLast?_cons_cons]
        exact fun hslash => hname.no_slash (List.mem_of_getLast? hslash)
    rw [List.foldl_cons, hjoin, ih hrest (by simp) hend, List.append_assoc]
    rfl

/-- Names that are joined one by one are put together with slashes. -/
theorem foldl_join_nil (h : ∀ name ∈ names, IsName name) :
    names.foldl join [] = Text.joined "/" names := by
  cases names with
  | nil => rfl
  | cons first rest =>
    obtain ⟨hfirst, hrest⟩ := List.forall_mem_cons.1 h
    have hjoin : join [] first = first := by
      rw [join, if_neg (by simp [hfirst.goesOn.not_isAbsolute])]
      rfl
    have hne : first ≠ [] := by
      rintro rfl
      simpa [Component.ofPiece?] using hfirst.ofPiece?
    have hend : first.getLast? ≠ some '/' :=
      fun hslash => hfirst.no_slash (List.mem_of_getLast? hslash)
    rw [List.foldl_cons, hjoin, foldl_join_eq hrest hne hend, Text.joined_cons]
    rfl

/-- A last name without a dot gets the extension behind it. -/
theorem withExtension_joined (h : ∀ name ∈ before ++ [last], IsName name) (hdot : '.' ∉ last)
    (extension : Text) :
    withExtension (Text.joined "/" (before ++ [last])) extension =
      Text.joined "/" (before ++ [last ++ '.' :: extension]) := by
  have hlast := h last (by simp)
  have hstays : (last = [] || last = ['.']) = false := by
    have hpiece := hlast.ofPiece?
    simp only [Component.ofPiece?] at hpiece
    by_contra hdrops
    simp_all
  have hup : last ≠ ['.', '.'] := by
    rintro rfl
    simp at hdot
  have hpiece : lastPiece? (Text.joined "/" (before ++ [last])) = some (before, last) := by
    rw [lastPiece?, pieces_joined (by simp) h, List.reverse_append, List.reverse_singleton,
      List.singleton_append, List.dropWhile_cons, if_neg (by simpa using hstays)]
    simp [hup]
  have hcut : cutExtension last = (last, none) := by
    rw [cutExtension, Text.cutAtLast?_eq_none_iff.2 hdot]
  rw [withExtension, hpiece]
  simp only [hcut]
  cases before with
  | nil => simp [Text.joined]
  | cons first before =>
    rw [Text.joined_append _ (by simp) (by simp), Text.joined_append _ (by simp) (by simp),
      Text.joined_singleton, Text.joined_singleton, List.append_assoc]

end Path

namespace Metadata

open LineKind (PackageName partsText)

variable {line other part first name package : Text} {others : List Text}

/-- Characters without a colon go to the first part of a name. -/
theorem packageParts_append {rest : Text} (hpart : ':' ∉ part)
    (hrest : packageParts rest = first :: others) :
    packageParts (part ++ rest) = (part ++ first) :: others := by
  induction part with
  | nil => exact hrest
  | cons c part ih =>
    obtain ⟨hc, hpart⟩ := List.ne_and_not_mem_of_not_mem_cons hpart
    rw [List.cons_append, packageParts, ih hpart]
    · rfl
    · rintro tail rfl
      exact absurd rfl hc

/-- A word holds no other character. -/
theorem not_mem_of_isWord {c : Char} (h : part.all Unicode.isWord)
    (hc : Unicode.isWord c = false) : c ∉ part := by
  intro hmem
  rw [List.all_eq_true.1 h c hmem] at hc
  exact Bool.noConfusion hc

/-- The parts of a package name. -/
def partsOf (n : PackageName) : List Text := n.head :: n.parts.map Subtype.val

/-- A package name is its parts with double colons between them. -/
theorem joined_partsOf (n : PackageName) : Text.joined "::" (partsOf n) = n.text := by
  rw [partsOf, Text.joined_cons, List.flatMap_map]
  simp [PackageName.text, partsText]

/-- A part of a package name is a word. -/
theorem isWord_of_mem_partsOf {n : PackageName} (h : part ∈ partsOf n) :
    part ≠ [] ∧ part.all Unicode.isWord := by
  rcases List.mem_cons.1 h with rfl | h
  · have hhead := n.head.2
    constructor
    · intro hnil
      simp [hnil, Identifier.isBareword] at hhead
    · refine List.all_eq_true.2 fun c hc => ?_
      exact (Identifier.of_mem_of_isBareword hhead hc).elim Identifier.isWord_of_isStart id
  · obtain ⟨p, -, rfl⟩ := List.mem_map.1 h
    exact p.2

/-- A package name is cut into its parts. -/
theorem packageParts_text (n : PackageName) : packageParts n.text = partsOf n := by
  have hparts (part : Text) (ps : List LineKind.Part) (hpart : ':' ∉ part) :
      packageParts (part ++ partsText ps) = part :: ps.map Subtype.val := by
    induction ps generalizing part with
    | nil =>
      have hend : packageParts (partsText []) = [[]] := rfl
      rw [packageParts_append hpart hend, List.append_nil]
      rfl
    | cons p ps ih =>
      have hp : ':' ∉ (p : Text) := not_mem_of_isWord p.2.2 (by decide)
      have hbehind : packageParts (partsText (p :: ps)) = [] :: p :: ps.map Subtype.val := by
        rw [← ih p hp]
        rfl
      rw [packageParts_append hpart hbehind, List.append_nil]
      rfl
  exact hparts n.head n.parts
    (not_mem_of_isWord (isWord_of_mem_partsOf List.mem_cons_self).2 (by decide))

/-- A word names an entry, also with something behind it. -/
theorem isName_of_isWord (hne : part ≠ []) (hword : part.all Unicode.isWord) {suffix : Text}
    (hs : '/' ∉ suffix) : Path.IsName (part ++ suffix) := by
  obtain ⟨c, rest, rfl⟩ := List.exists_cons_of_ne_nil hne
  have hdot : c ≠ '.' := by
    rintro rfl
    exact absurd (List.all_eq_true.1 hword '.' List.mem_cons_self) (by decide)
  refine ⟨?_, ?_⟩
  · rw [List.mem_append, not_or]
    exact ⟨not_mem_of_isWord hword (by decide), hs⟩
  · simp [Path.Component.ofPiece?, hdot]

/-- A line that declares a package spells its name. -/
theorem exists_packageName (h : LineKind.ofLine line = .package name) :
    ∃ n : PackageName, name = n.text := by
  have hkind : LineKind.IsKind line (.package name) :=
    h ▸ LineKind.ofLine_eq_byTests line ▸ LineKind.isKind_byTests LineKind.isTestOrder_all line
  cases hkind with
  | form hform =>
    cases hform with
    | package indent gap n version space hc rest => exact ⟨n, rfl⟩

/-- What makes up the path of the file of a package. -/
structure HasFile (name : Text) (before : List Text) (last : Text) : Prop where
  /-- The name is its parts with double colons between them. -/
  joined : Text.joined "::" (before ++ [last]) = name
  /-- These are the parts that it is cut into. -/
  parts : packageParts name = before ++ [last]
  /-- No part is empty or holds a colon. -/
  words : ∀ part ∈ before ++ [last], part ≠ [] ∧ ':' ∉ part
  /-- With the extension behind the last part, they are names of entries. -/
  names : ∀ entry ∈ before ++ [last ++ ".json"], Path.IsName entry
  /-- The path is these names with slashes between them. -/
  path : packageFile name = Text.joined "/" (before ++ [last ++ ".json"])

/-- A package that a line declares has such a file. -/
theorem exists_hasFile (h : LineKind.ofLine line = .package name) :
    ∃ before last, HasFile name before last := by
  obtain ⟨n, rfl⟩ := exists_packageName h
  obtain ⟨before, last, hsplit⟩ : ∃ before last, partsOf n = before ++ [last] :=
    ⟨_, _, (List.dropLast_concat_getLast (List.cons_ne_nil _ _)).symm⟩
  have hword : ∀ part ∈ before ++ [last], part ≠ [] ∧ part.all Unicode.isWord :=
    fun part hpart => isWord_of_mem_partsOf (hsplit ▸ hpart)
  obtain ⟨hbefore, hlast⟩ := List.forall_mem_append.1 hword
  obtain ⟨hne, hlast⟩ := hlast last (List.mem_singleton_self last)
  have hpart (part : Text) (hpart : part ∈ before ++ [last]) : Path.IsName part := by
    have hname := isName_of_isWord (hword part hpart).1 (hword part hpart).2 List.not_mem_nil
    rwa [List.append_nil] at hname
  refine ⟨before, last, ?_, ?_, ?_, ?_, ?_⟩
  · rw [← hsplit, joined_partsOf]
  · rw [packageParts_text, hsplit]
  · exact fun part hpart =>
      ⟨(hword part hpart).1, not_mem_of_isWord (hword part hpart).2 (by decide)⟩
  · refine List.forall_mem_append.2 ⟨fun part hbefore => ?_, List.forall_mem_singleton.2 ?_⟩
    · exact hpart part (List.mem_append_left _ hbefore)
    · exact isName_of_isWord hne hlast (by decide)
  · rw [packageFile, packageParts_text, hsplit, Path.foldl_join_nil hpart]
    exact Path.withExtension_joined hpart (not_mem_of_isWord hlast (by decide)) _

/-- The components of the file of a package are the names that make it up. -/
theorem HasFile.components_eq {before : List Text} {last : Text} (h : HasFile name before last) :
    Path.components (packageFile name) = (before ++ [last ++ ".json"]).map .name := by
  rw [h.path]
  exact Path.components_joined (by simp) h.names

/-- Packages with equal files have equal names. -/
theorem HasFile.eq_of_same {before before' : List Text} {last last' : Text}
    (h : HasFile name before last) (h' : HasFile package before' last')
    (hsame : Path.same (packageFile name) (packageFile package)) : name = package := by
  have hcomponents := of_decide_eq_true hsame
  rw [h.components_eq, h'.components_eq] at hcomponents
  have hnames := List.map_injective_iff.2 (fun _ _ => Path.Component.name.inj) hcomponents
  obtain ⟨rfl, hlast⟩ := List.append_inj' hnames rfl
  obtain rfl := List.append_cancel_right (List.singleton_inj.1 hlast)
  rw [← h.joined, h'.joined]

/-- The file of a package that a line declares has a relative path. Its components are the parts of
the name, the last one with the extension, and each of them names an entry: it is not empty, no dots
alone, and holds no slash. So it lies inside whatever directory it is looked for in. Packages with
equal paths are the same one. -/
theorem packageFile_stays (h : LineKind.ofLine line = .package name) :
    ∃ before last, packageParts name = before ++ [last] ∧
      Text.joined "::" (before ++ [last]) = name ∧
      (∀ part ∈ before ++ [last], part ≠ [] ∧ ':' ∉ part) ∧
      Path.isAbsolute (packageFile name) = false ∧
      Path.components (packageFile name) = (before ++ [last ++ ".json"]).map .name ∧
      (∀ entry ∈ before ++ [last ++ ".json"],
        entry ≠ [] ∧ entry ≠ ['.'] ∧ entry ≠ ['.', '.'] ∧ '/' ∉ entry) ∧
      (∀ directory, Path.components (Path.join directory (packageFile name)) =
        Path.components directory ++ (before ++ [last ++ ".json"]).map .name) ∧
      ∀ other package, LineKind.ofLine other = .package package →
        Path.same (packageFile name) (packageFile package) → name = package := by
  obtain ⟨before, last, hfile⟩ := exists_hasFile h
  have hgoesOn : Path.GoesOn (packageFile name) := by
    rw [hfile.path]
    exact Path.goesOn_joined (by simp) hfile.names
  refine ⟨before, last, hfile.parts, hfile.joined, hfile.words, hgoesOn.not_isAbsolute,
    hfile.components_eq, fun entry hentry => ?_, fun directory => ?_, ?_⟩
  · obtain ⟨hslash, hpiece⟩ := hfile.names entry hentry
    refine ⟨?_, ?_, ?_, hslash⟩ <;> rintro rfl <;> simp [Path.Component.ofPiece?] at hpiece
  · rw [Path.components_join hgoesOn, hfile.components_eq]
  · intro other package hother hsame
    obtain ⟨before', last', hfile'⟩ := exists_hasFile hother
    exact hfile.eq_of_same hfile' hsame

/-- A declaration of a package with a name of three parts. -/
def deepLine : Text := " package Foo::Bär::v2 1.5;"

/-- The file of that package lies two directories down, and no other package has it. -/
theorem packageFile_stays_deepLine :
    LineKind.ofLine deepLine = .package "Foo::Bär::v2" ∧
      packageFile "Foo::Bär::v2" = "Foo/Bär/v2.json" ∧
      ∃ before last, packageParts "Foo::Bär::v2" = before ++ [last] ∧
        Text.joined "::" (before ++ [last]) = "Foo::Bär::v2" ∧
        (∀ part ∈ before ++ [last], part ≠ [] ∧ ':' ∉ part) ∧
        Path.isAbsolute (packageFile "Foo::Bär::v2") = false ∧
        Path.components (packageFile "Foo::Bär::v2") = (before ++ [last ++ ".json"]).map .name ∧
        (∀ entry ∈ before ++ [last ++ ".json"],
          entry ≠ [] ∧ entry ≠ ['.'] ∧ entry ≠ ['.', '.'] ∧ '/' ∉ entry) ∧
        (∀ directory, Path.components (Path.join directory (packageFile "Foo::Bär::v2")) =
          Path.components directory ++ (before ++ [last ++ ".json"]).map .name) ∧
        ∀ other package, LineKind.ofLine other = .package package →
          Path.same (packageFile "Foo::Bär::v2") (packageFile package) →
            "Foo::Bär::v2" = package := by
  have hline : LineKind.ofLine deepLine = .package "Foo::Bär::v2" := by decide +kernel
  exact ⟨hline, by decide, packageFile_stays hline⟩

/-- Other names may share a file, or have one outside of every directory. -/
example : packageFile "a.b" = packageFile "a.c" ∧ packageFile "..::x" = "../x.json" := by decide

end Metadata

end ArgGuard
