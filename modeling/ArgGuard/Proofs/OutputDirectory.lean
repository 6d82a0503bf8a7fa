import ArgGuard.Proofs.BatchSteps
import ArgGuard.Proofs.FileNames

/-!
# Results in a directory

A batch that writes its results into a directory gives each of them the name of its input, so of
the inputs with one name the last one decides what is found there. An input whose name no other
input has is found as what it is processed to.
-/

namespace ArgGuard

namespace FileTree

variable {tree middle changed : FileTree} {path text : Text}

/-- A directory is made at the place of its path, where there is nothing. -/
theorem makeDirectory_eq_ok_iff :
    tree.makeDirectory path = .ok changed ↔
      ∃ place, tree.reach path (Path.trimmedPieces path) = .ok place ∧ tree.at? place = none ∧
        changed = tree.put place .directory := by
  rw [makeDirectory, bind_eq_ok_iff]
  refine exists_congr fun place => and_congr_right fun _ => ?_
  split
  next hnone => rw [pure_eq_ok_iff, and_iff_right hnone, eq_comm]
  next hsome => simp [hsome, throw_ne_ok]

/-- A directory is never made under a path that ends in a dot, which leads to a directory that is
there already or nowhere. -/
theorem makeDirectory_dot_ne_ok (tree changed : FileTree) (path : Text) :
    tree.makeDirectory (path ++ "/.") ≠ .ok changed := by
  have hcut : Path.pieces (path ++ "/.") = Path.pieces path ++ [['.']] :=
    Path.splitAt_append '/' path ['.']
  have hpieces : Path.trimmedPieces (path ++ "/.") = Path.pieces path ++ [['.']] := by
    rw [Path.trimmedPieces, hcut]
    simp
  intro h
  obtain ⟨place, hplace, hnone, -⟩ := makeDirectory_eq_ok_iff.1 h
  rw [hpieces] at hplace
  obtain ⟨-, hfollow⟩ := reach_eq_ok_iff.1 hplace
  rw [followAll, List.foldlM_append] at hfollow
  obtain ⟨above, -, hfollow⟩ := bind_eq_ok_iff.1 hfollow
  obtain ⟨found, hdot, hfound⟩ := bind_eq_ok_iff.1 hfollow
  obtain rfl := pure_eq_ok_iff.1 hfound
  obtain ⟨hdirectory, rfl⟩ := of_follow hdot
  exact Option.some_ne_none _ (hdirectory.symm.trans hnone)

/-- So a missing directory is not made with a dot behind it, though it is with slashes there. -/
example :
    let tree : FileTree := ⟨["w"], [(["w"], .directory)]⟩
    (tree.createDirectories "new/.").2 = .error .notFound ∧
      (tree.createDirectories "new//").1.isDirectory "/w/new" := by decide +kernel

/-- A tree that has the files of another one, and at least its directories. -/
structure AddsDirectories (tree changed : FileTree) : Prop where
  /-- The files are the same. -/
  files : ∀ place content,
    changed.at? place = some (.file content) ↔ tree.at? place = some (.file content)
  /-- No directory is gone. -/
  directories : KeepsDirectories tree changed

namespace AddsDirectories

/-- Nothing has to be added. -/
theorem refl (tree : FileTree) : AddsDirectories tree tree :=
  ⟨fun _ _ => Iff.rfl, rfl, fun _ h => h⟩

/-- Directories may be added one after the other. -/
theorem trans (h : AddsDirectories tree middle) (h' : AddsDirectories middle changed) :
    AddsDirectories tree changed :=
  ⟨fun place content => (h'.files place content).trans (h.files place content),
    h.directories.trans h'.directories⟩

/-- A directory is made where there was nothing. -/
theorem of_makeDirectory (h : tree.makeDirectory path = .ok changed) :
    AddsDirectories tree changed := by
  obtain ⟨place, -, hnone, rfl⟩ := makeDirectory_eq_ok_iff.1 h
  have hno : tree.at? place ≠ some .directory := by simp [hnone]
  have hne := ne_nil_of_at? hno
  refine ⟨fun p content => ?_, rfl, fun p hp => ?_⟩
  · rw [at?_put hne]
    split
    next hp => simp [hp, hnone]
    next => exact Iff.rfl
  · rw [at?_put hne]
    split
    next => rfl
    next => exact hp

/-- Directories are made one inside the other, as far as that goes. -/
theorem of_makeDirectories (tree : FileTree) (path : Text) (components : List Path.Component) :
    AddsDirectories tree (tree.makeDirectories path components).1 := by
  induction components generalizing path with
  | nil => exact refl tree
  | cons last above ih =>
    have habove := ih (Path.ofComponents above.reverse)
    rw [makeDirectories]
    dsimp only
    split
    next made hmade => exact of_makeDirectory hmade
    next =>
      split
      next outer error houter =>
        rw [houter] at habove
        exact habove
      next outer houter =>
        rw [houter] at habove
        split
        next made hmade => exact habove.trans (of_makeDirectory hmade)
        next => exact habove
    next => exact refl tree

/-- What could be read can be read. -/
theorem read (h : AddsDirectories tree changed) (hread : tree.read path = .ok text) :
    changed.read path = .ok text := by
  obtain ⟨place, hplace, hat⟩ := read_eq_ok_iff.1 hread
  exact read_eq_ok_iff.2 ⟨place, h.directories.locate hplace, (h.files place _).2 hat⟩

end AddsDirectories

end FileTree

namespace Batch

open FileTree

variable {layout : Metadata.Layout} {tree current middle next : FileTree}
  {directory path name : Text} {paths : List Text} {report : Report} {place : Place}

/-- A place directly in a directory. -/
def IsInDirectory (directory : Text) (tree : FileTree) (place : Place) : Prop :=
  ∃ name, Path.IsName name ∧ tree.locate (Path.join directory name) = .ok place

/-- A result that is written into a directory lies there under the name of its input. -/
theorem of_writeResult_into {source target : Text}
    (h : writeResult FileAccess.ofTree (.into directory) path source target tree = (none, next)) :
    ∃ name, Path.fileName? path = some name ∧
      tree.write (Path.join directory name) target = .ok next := by
  rw [writeResult_apply] at h
  cases hname : Path.fileName? path with
  | none =>
    simp only [target?, hname] at h
    exact absurd (congrArg Prod.fst h) (Option.some_ne_none _)
  | some name =>
    refine ⟨name, rfl, ?_⟩
    simp only [target?, hname] at h
    split at h
    next changed hwrite => exact hwrite.trans (congrArg Except.ok (congrArg Prod.snd h))
    next => exact absurd (congrArg Prod.fst h) (Option.some_ne_none _)

/-- A file that goes well into a directory is written there under its own name. -/
theorem FileStep.into (h : FileStep layout (.into directory) tree path report next)
    (hok : report.ok = true) (habort : report.abort = none) :
    ∃ source target name, tree.read path = .ok source ∧
      rewrite? (layout.store tree.read) source = some target ∧
      Path.fileName? path = some name ∧
      tree.write (Path.join directory name) target = .ok next := by
  cases h with
  | unreadable hs => simp at hok
  | rejected hs hr => simp at hok
  | processed hs hr hw =>
    dsimp only at habort
    subst habort
    obtain ⟨name, hname, hwrite⟩ := of_writeResult_into hw
    exact ⟨_, _, name, hs, hr, hname, hwrite⟩

/-- A tree that differs from another one only in the texts directly in a directory. -/
structure WrittenInto (directory : Text) (tree current : FileTree) : Prop where
  /-- No directory comes or goes. -/
  directories : SameDirectories tree current
  /-- Every other place holds what it held. -/
  others : ∀ place, ¬ IsInDirectory directory tree place → current.at? place = tree.at? place

/-- What holds of the inputs and the metadata of a batch that writes into a directory: they do not
lie there. -/
structure IsApart (layout : Metadata.Layout) (directory : Text) (tree : FileTree)
    (paths : List Text) : Prop where
  /-- No input lies in the directory. -/
  inputs : ∀ path ∈ paths, ∀ place, tree.locate path = .ok place →
    ¬ IsInDirectory directory tree place
  /-- No metadata lies in the directory. -/
  metadata : ∀ place, IsMetadata layout tree place → ¬ IsInDirectory directory tree place

namespace WrittenInto

/-- Nothing has been written at first. -/
theorem refl (directory : Text) (tree : FileTree) : WrittenInto directory tree tree :=
  ⟨.refl tree, fun _ _ => rfl⟩

/-- One more text is written, at the place of its name. -/
theorem write (h : WrittenInto directory tree current) (hname : Path.IsName name)
    {text : Text} (hwrite : current.write (Path.join directory name) text = .ok next) :
    WrittenInto directory tree next ∧
      tree.locate (Path.join directory name) = .ok (tree.entryPlace directory name) ∧
      ∀ place, next.at? place =
        if place = tree.entryPlace directory name then some (.file (.text text))
        else current.at? place := by
  obtain ⟨found, hfound, -, hat⟩ := of_write hwrite
  have hlocate := h.directories.symm.locate hfound
  obtain rfl := eq_entryPlace hname hlocate
  refine ⟨⟨h.directories.trans (.of_write hwrite), fun place hplace => ?_⟩, hlocate, hat⟩
  have hne : place ≠ tree.entryPlace directory name := by
    rintro rfl
    exact hplace ⟨name, hname, hlocate⟩
  rw [hat, if_neg hne]
  exact h.others place hplace

/-- An input outside of the directory is still what it was. -/
theorem read_eq (h : WrittenInto directory tree current)
    (ha : ∀ place, tree.locate path = .ok place → ¬ IsInDirectory directory tree place)
    {source : Text} (hs : current.read path = .ok source) : tree.read path = .ok source := by
  obtain ⟨place, hplace, hat⟩ := read_eq_ok_iff.1 hs
  have hlocate := h.directories.symm.locate hplace
  exact read_eq_ok_iff.2 ⟨place, hlocate, by rw [← h.others place (ha place hlocate), hat]⟩

/-- A source is rewritten as with the metadata outside of the directory. -/
theorem rewrite?_eq (h : WrittenInto directory tree current)
    (hm : ∀ place, IsMetadata layout tree place → ¬ IsInDirectory directory tree place)
    {source target : Text} (hr : rewrite? (layout.store current.read) source = some target) :
    rewrite? (layout.store tree.read) source = some target := by
  refine rewrite?_of_covers (covers_store h.directories.symm fun place hplace text htext => ?_) hr
  obtain ⟨line, package, hline, hlocate⟩ := hplace
  have hmetadata : IsMetadata layout tree place :=
    ⟨line, package, hline, h.directories.symm.locate hlocate⟩
  rw [← h.others place (hm place hmetadata), htext]

end WrittenInto

/-- An input is processed with the files of a tree, and the result is found under a name in a
directory. -/
def IsResult (layout : Metadata.Layout) (directory : Text) (tree next : FileTree)
    (name path : Text) : Prop :=
  ∃ source y, tree.read path = .ok source ∧
    process ⟨path, layout.store tree.read, Schema.compile⟩ source = .ok y ∧
    next.read (Path.join directory name) = .ok y.text

/-- A batch that goes well into a directory writes there only. -/
theorem Steps.writtenInto (h : Steps layout (.into directory) current paths report next)
    (hw : WrittenInto directory tree current) (hok : report.ok = true)
    (habort : report.abort = none) : WrittenInto directory tree next := by
  induction h with
  | nil current => exact hw
  | ended hstep ha => simp [habort] at ha
  | cons hstep ha _ ih =>
    obtain ⟨hfirst, hothers⟩ := Bool.and_eq_true_iff.1 hok
    obtain ⟨source, target, name, -, -, hname, hwrite⟩ := hstep.into hfirst ha
    exact ih (hw.write (Path.isName_of_fileName? hname) hwrite).1 hothers habort

/-- A batch that goes well into a directory leaves there what has a name that no input has. -/
theorem Steps.into_others (h : Steps layout (.into directory) current paths report next)
    (hw : WrittenInto directory tree current) (hok : report.ok = true)
    (habort : report.abort = none) (hname : ∀ path ∈ paths, Path.fileName? path ≠ some name) :
    next.at? (tree.entryPlace directory name) = current.at? (tree.entryPlace directory name) := by
  induction h with
  | nil current => rfl
  | ended hstep ha => simp [habort] at ha
  | cons hstep ha _ ih =>
    obtain ⟨hfirst, hothers⟩ := Bool.and_eq_true_iff.1 hok
    obtain ⟨hpath, hrest⟩ := List.forall_mem_cons.1 hname
    obtain ⟨source, target, other, -, -, hother, hwrite⟩ := hstep.into hfirst ha
    obtain ⟨hw, -, hat⟩ := hw.write (Path.isName_of_fileName? hother) hwrite
    have hne : tree.entryPlace directory name ≠ tree.entryPlace directory other := by
      intro heq
      rw [eq_of_entryPlace_eq heq] at hpath
      exact hpath hother
    rw [ih hw hothers habort hrest, hat, if_neg hne]

/-- In a batch that goes well into a directory, the last input of a name is what is found there
under that name. -/
theorem Steps.into (h : Steps layout (.into directory) current paths report next)
    (hw : WrittenInto directory tree current) (hapart : IsApart layout directory tree paths)
    (hok : report.ok = true) (habort : report.abort = none) {before after : List Text}
    (hsplit : paths = before ++ path :: after)
    (hlast : ∀ later ∈ after, Path.fileName? later ≠ Path.fileName? path) :
    ∃ name, Path.fileName? path = some name ∧ IsResult layout directory tree next name path := by
  induction h generalizing before with
  | nil current => simp at hsplit
  | ended hstep ha => simp [habort] at ha
  | @cons current middle next first rest _ _ hstep hfirstAbort hrest ih =>
    obtain ⟨hfirst, hothers⟩ := Bool.and_eq_true_iff.1 hok
    obtain ⟨source, target, name, hs, hr, hname, hwrite⟩ := hstep.into hfirst hfirstAbort
    obtain ⟨hmiddle, hlocate, hat⟩ := hw.write (Path.isName_of_fileName? hname) hwrite
    obtain ⟨hhere, hbehind⟩ := List.forall_mem_cons.1 hapart.inputs
    cases before with
    | cons _ before =>
      obtain ⟨-, hsplit⟩ := List.cons.inj hsplit
      exact ih hmiddle ⟨hbehind, hapart.metadata⟩ hothers habort hsplit
    | nil =>
      obtain ⟨rfl, rfl⟩ := List.cons.inj hsplit
      have hread := hw.read_eq hhere hs
      have hrewrite := hw.rewrite?_eq hapart.metadata hr
      obtain ⟨y, hy, rfl⟩ := (rewrite?_eq_some_iff first).1 hrewrite
      have hkept := hrest.into_others hmiddle hothers habort (hname ▸ hlast)
      refine ⟨name, hname, source, y, hread, hy,
        read_eq_ok_iff.2 ⟨tree.entryPlace directory name, ?_, ?_⟩⟩
      · exact (hrest.writtenInto hmiddle hothers habort).directories.locate hlocate
      · rw [hkept, hat, if_pos rfl]

/-- What a run into a directory starts with: the directory has been made. -/
def prepared (tree : FileTree) (directory : Text) : FileTree :=
  (tree.createDirectories directory).1

/-- The directory is made before anything else is done. -/
theorem prepare_into (tree : FileTree) (directory : Text) :
    (prepare FileAccess.ofTree (.into directory) tree).2 = prepared tree directory := by
  have hmade : FileAccess.ofTree.createDirectories directory tree =
      ((tree.createDirectories directory).2, prepared tree directory) := rfl
  rw [prepare, bind_apply, hmade]
  cases (tree.createDirectories directory).2 <;> rfl

/-- The last of the inputs in order that has the name of a path. -/
def namesake? (paths : List Text) (path : Text) : Option Text :=
  (inOrder paths).reverse.find? fun other => Path.fileName? other = Path.fileName? path

/-- The last input with a name has that name, and none behind it does. -/
theorem of_namesake? {last : Text} (h : namesake? paths path = some last) :
    last ∈ paths ∧ Path.fileName? last = Path.fileName? path ∧
      ∃ before after, inOrder paths = before ++ last :: after ∧
        ∀ later ∈ after, Path.fileName? later ≠ Path.fileName? path := by
  obtain ⟨hname, after, before, hsplit, hbehind⟩ := List.find?_eq_some_iff_append.1 h
  have hsplit : inOrder paths = before.reverse ++ last :: after.reverse := by
    rw [← List.reverse_reverse (inOrder paths), hsplit]
    simp
  refine ⟨mem_of_mem_inOrder (hsplit ▸ by simp), of_decide_eq_true hname, _, _, hsplit, ?_⟩
  intro later hlater
  simpa using hbehind later (List.mem_reverse.1 hlater)

/-- An input has a last one with its name. -/
theorem exists_namesake? (h : path ∈ paths) : ∃ last, namesake? paths path = some last := by
  obtain ⟨other, hother, hsame⟩ := exists_same_mem_inOrder h
  refine Option.isSome_iff_exists.1 (List.find?_isSome.2 ⟨other, List.mem_reverse.2 hother, ?_⟩)
  exact decide_eq_true (Path.fileName?_eq_of_same hsame)

/-- In a run into a directory that ends with status zero, the last input with the name of an input
is what is found under that name. -/
theorem exists_isResult_namesake {options : Options} {level : Option Text} {input : Content}
    (hmode : options.mode = some (.into directory))
    (hapart : IsApart (layoutOf tree options.metadata) directory (prepared tree directory)
      (inputs (prepared tree directory) options.files))
    (hstatus : (run FileAccess.ofTree options level (pure input) tree).1.status = 0)
    (hpath : path ∈ inputs (prepared tree directory) options.files) :
    ∃ name, Path.fileName? path = some name ∧
      ∃ last, namesake? (inputs (prepared tree directory) options.files) path = some last ∧
        IsResult (layoutOf tree options.metadata) directory (prepared tree directory)
          (run FileAccess.ofTree options level (pure input) tree).2 name last := by
  have hfiles : options.files ≠ [] := by
    intro hnil
    rw [hnil] at hpath
    exact List.not_mem_nil hpath
  obtain ⟨next, log, hprepare, hfound⟩ := exists_inputs_of_status level input hfiles hmode hstatus
  obtain rfl : prepared tree directory = next :=
    (prepare_into tree directory).symm.trans (congrArg Prod.snd hprepare)
  obtain ⟨report, hsteps, hreport⟩ := run_files level input hfiles hmode hprepare hfound
  obtain ⟨hok, habort⟩ := hreport.1 hstatus
  obtain ⟨last, hlast⟩ := exists_namesake? hpath
  obtain ⟨-, hname, above, below, hsplit, hbelow⟩ := of_namesake? hlast
  rw [← hname] at hbelow ⊢
  obtain ⟨name, hname, hresult⟩ := hsteps.into (.refl directory _)
    ⟨fun path hpath => hapart.inputs path (mem_of_mem_inOrder hpath), hapart.metadata⟩
    hok habort hsplit hbelow
  exact ⟨name, hname, last, hlast, hresult⟩

/-- A run that writes into a directory outside of which its inputs and the metadata lie, and that
ends with status zero, has processed every input, and of the inputs with one name the last one is
what is found there under that name. So every input is found there unless another file has its
name. -/
theorem run_into (tree : FileTree) (options : Options) (level : Option Text) (input : Content)
    (directory : Text) (hmode : options.mode = some (.into directory))
    (hapart : IsApart (layoutOf tree options.metadata) directory (prepared tree directory)
      (inputs (prepared tree directory) options.files)) :
    let layout := layoutOf tree options.metadata
    let before := prepared tree directory
    let paths := inputs before options.files
    let result := run FileAccess.ofTree options level (pure input) tree
    result.1.status = 0 →
      (∀ path source, tree.read path = .ok source → before.read path = .ok source) ∧
      (∀ path ∈ paths, ∃ name, Path.fileName? path = some name ∧
        ∃ last, namesake? paths path = some last ∧
          IsResult layout directory before result.2 name last) ∧
      ∀ path ∈ paths, (∀ other ∈ paths, Path.fileName? other = Path.fileName? path →
          before.locate other = before.locate path) →
        ∃ name, Path.fileName? path = some name ∧
          IsResult layout directory before result.2 name path := by
  intro layout before paths result hstatus
  refine ⟨fun _ _ => (AddsDirectories.of_makeDirectories tree _ _).read,
    fun path hpath => exists_isResult_namesake hmode hapart hstatus hpath,
    fun path hpath halone => ?_⟩
  obtain ⟨name, hname, last, hlast, source, y, hsource, hy, hfinal⟩ :=
    exists_isResult_namesake hmode hapart hstatus hpath
  obtain ⟨hmem, hsame, -⟩ := of_namesake? hlast
  obtain ⟨z, hz, htext⟩ := process_renamed hy path
  have hread : before.read last = before.read path :=
    read_eq_of_locate_eq (halone last hmem hsame)
  exact ⟨name, hname, source, z, hread.symm.trans hsource, hz, htext ▸ hfinal⟩

/-- A tree with two sources of one name, and one that has its name alone. -/
def clashTree : FileTree where
  workingDirectory := ["w"]
  entries :=
    [(["w"], .directory), (["w", "a"], .directory), (["w", "a", "X.pm"], .file (.text "1;\n")),
      (["w", "b"], .directory), (["w", "b", "X.pm"], .file (.text "2;\n")),
      (["w", "b", "Y.pm"], .file (.text "3;\n"))]

/-- Options to write the results for all of the sources into a directory. -/
def clashOptions : Options where
  files := ["a/X.pm", "b/X.pm", "b/Y.pm"]
  metadata := "meta.json"
  mode := some (.into "out")
  name := "-"
  verbosity := 0
  quiet := false

/-- The sample has neither a source nor its metadata in the directory. -/
theorem isApart_clashTree :
    IsApart (.file "meta.json") "out" (prepared clashTree "out") clashOptions.files := by
  have hentry (name : Text) : (prepared clashTree "out").entryPlace "out" name =
      [("w" : Text), ("out" : Text), name] := by
    have hcomponents : Path.components "out" = [.name "out"] := by decide +kernel
    have hstart : (prepared clashTree "out").startOf "out" = ["w"] := by decide +kernel
    rw [entryPlace, hcomponents, hstart]
    rfl
  have hout (place : Place) (hplace : ∀ rest, place ≠ ("w" : Text) :: ("out" : Text) :: rest) :
      ¬ IsInDirectory "out" (prepared clashTree "out") place := by
    rintro ⟨name, hname, hlocate⟩
    exact hplace [name] ((eq_entryPlace hname hlocate).trans (hentry name))
  have hplaces : clashOptions.files.map (prepared clashTree "out").locate =
      [.ok ["w", "a", "X.pm"], .ok ["w", "b", "X.pm"], .ok ["w", "b", "Y.pm"]] := by
    decide +kernel
  have hmeta : (prepared clashTree "out").locate "meta.json" = .ok ["w", "meta.json"] := by
    decide +kernel
  refine ⟨fun path hpath place hplace => ?_, ?_⟩
  · have hmem := List.mem_map_of_mem (f := (prepared clashTree "out").locate) hpath
    rw [hplaces, hplace] at hmem
    refine hout place fun rest hrest => ?_
    simp [hrest] at hmem
  · rintro place ⟨line, package, -, hlocate⟩
    refine hout place fun rest hrest => ?_
    simpa [hrest] using hlocate.symm.trans hmeta

/-- All goes well, but of the sources with one name only the second one is found in the directory
afterwards. -/
theorem run_into_clashTree :
    let layout := Metadata.Layout.file "meta.json"
    let before := prepared clashTree "out"
    let result := run FileAccess.ofTree clashOptions none (pure (.text [])) clashTree
    result.1.status = 0 ∧ inputs before clashOptions.files = clashOptions.files ∧
      IsResult layout "out" before result.2 "Y.pm" "b/Y.pm" ∧
      IsResult layout "out" before result.2 "X.pm" "b/X.pm" ∧
      before.read "a/X.pm" = .ok "1;\n" ∧ result.2.read "out/X.pm" = .ok "2;\n" := by
  have hstatus : (run FileAccess.ofTree clashOptions none (pure (.text [])) clashTree).1.status =
      0 := by decide +kernel
  have hinputs : inputs (prepared clashTree "out") clashOptions.files = clashOptions.files := by
    decide +kernel
  have hlayout : layoutOf clashTree clashOptions.metadata = .file "meta.json" := by decide +kernel
  have hapart : IsApart (layoutOf clashTree clashOptions.metadata) "out"
      (prepared clashTree "out") (inputs (prepared clashTree "out") clashOptions.files) := by
    rw [hlayout, hinputs]
    exact isApart_clashTree
  obtain ⟨-, hlast, halone⟩ :=
    run_into clashTree clashOptions none (.text []) "out" rfl hapart hstatus
  rw [hinputs, hlayout] at hlast halone
  obtain ⟨name, hname, hother⟩ := halone "b/Y.pm" (by decide) (by decide +kernel)
  obtain rfl : name = "Y.pm" := Option.some.inj (hname.symm.trans (by decide +kernel))
  obtain ⟨name, hname, last, hlast, hclash⟩ := hlast "a/X.pm" (by decide)
  obtain rfl : name = "X.pm" := Option.some.inj (hname.symm.trans (by decide +kernel))
  obtain rfl : last = "b/X.pm" := Option.some.inj (hlast.symm.trans (by decide +kernel))
  exact ⟨hstatus, hinputs, hother, hclash, by decide +kernel, by decide +kernel⟩

end Batch

end ArgGuard
