import ArgGuard.Proofs.FileNames
import ArgGuard.Proofs.Findings
import ArgGuard.Proofs.PathOrder

/-!
# Arguments in any order

A batch is a matter of which arguments there are, not of their order or of how often they are given,
and not of the order in which directories are listed. Everything is found before the first file is
written, so two runs find the same inputs up to spelling; from there they go in lockstep, since
equal paths to files lead to the same place and have the same file name.
-/

namespace ArgGuard

namespace FileTree

variable {tree other current next : FileTree} {path path' text : Text}

/-- Equal paths that lead to the same place. -/
structure Meet (tree : FileTree) (path path' : Text) : Prop where
  /-- They are equal up to spelling. -/
  same : Path.same path path'
  /-- They lead somewhere. -/
  locate : ∃ place, tree.locate path = .ok place ∧ tree.locate path' = .ok place

/-- Equal paths to files meet. -/
theorem Meet.of_isFile (hsame : Path.same path path') (h : tree.isFile path)
    (h' : tree.isFile path') : Meet tree path path' :=
  ⟨hsame, exists_locate_of_same hsame h h'⟩

/-- Paths lead to the same place as long as the directories are the same. -/
theorem Meet.of_sameDirectories (h : Meet tree path path') (hd : SameDirectories tree current) :
    Meet current path path' := by
  obtain ⟨place, hplace, hplace'⟩ := h.locate
  exact ⟨h.same, place, hd.locate hplace, hd.locate hplace'⟩

/-- Paths that meet in one tree lead to the same place in trees that hold the same. -/
theorem Meet.locate_eq (h : Meet tree path path') (he : SameEntries tree other) :
    tree.locate path = other.locate path' := by
  obtain ⟨place, hplace, hplace'⟩ := h.locate
  rw [← he.locate, hplace, hplace']

/-- Paths that meet in one tree have the same text in trees that hold the same. -/
theorem Meet.read_eq (h : Meet tree path path') (he : SameEntries tree other) :
    tree.read path = other.read path' := by
  rw [read_eq_of_locate_eq ((h.locate_eq he).trans (congrFun he.locate path').symm), he.read]

/-- A directory is made with the same result. -/
theorem agree_createDirectories (path : Text) :
    Agree Eq (FileAccess.ofTree.createDirectories path)
      (FileAccess.ofTree.createDirectories path) := by
  intro tree other he
  obtain ⟨hentries, hresult⟩ := he.makeDirectories path (Path.components path).reverse
  exact ⟨hresult, hentries⟩

end FileTree

namespace Batch

open FileTree

variable {layout : Metadata.Layout} {mode : Mode} {tree other next next' : FileTree}
  {path path' : Text} {paths paths' : List Text} {report report' : Report}

/-- Reports of two runs that went equally well. -/
structure EndsAlike (report report' : Report) : Prop where
  /-- Either all inputs were processed in both, or not in either. -/
  ok : report.ok = report'.ok
  /-- Either both ended early, or none did. -/
  abort : report.abort.isSome = report'.abort.isSome

/-- A run whose report went equally well ends with the same status. -/
theorem EndsAlike.status (h : EndsAlike report report') (level : LogLevel) (output output' : Text) :
    (Outcome.ofReport level report output).status =
      (Outcome.ofReport level report' output').status := by
  have habort : report.abort.isNone = report'.abort.isNone := by
    rw [← Option.not_isSome, ← Option.not_isSome, h.abort]
  rw [Outcome.ofReport, Outcome.ofReport, h.ok, habort]

section Writing

variable {source text : Text}

/-- The results for paths that meet have targets that lead to the same place. -/
theorem target?_alike (hm : Meet tree path path') (mode : Mode) (modified : Bool) :
    Alike (fun _ _ => True)
      (Option.Rel fun target target' => tree.locate target = tree.locate target')
      (target? mode path modified) (target? mode path' modified) := by
  cases mode with
  | check => exact .ok .none
  | inPlace =>
    cases modified with
    | false => exact .ok .none
    | true => exact .ok (.some (hm.locate_eq (.refl tree)))
  | into directory =>
    rw [target?, target?, Path.fileName?_eq_of_same hm.same]
    cases Path.fileName? path' with
    | none => exact .error trivial
    | some name => exact .ok (.some rfl)

/-- The results for paths that meet are written with equal success. -/
theorem writeResult_alike (mode : Mode) (he : SameEntries tree other)
    (hm : Meet tree path path') :
    let first := writeResult FileAccess.ofTree mode path source text tree
    let second := writeResult FileAccess.ofTree mode path' source text other
    first.1.isSome = second.1.isSome ∧ SameEntries first.2 second.2 := by
  dsimp only
  rw [writeResult_apply, writeResult_apply]
  have htarget := target?_alike hm mode (text ≠ source)
  generalize target? mode path (text ≠ source) = target,
    target? mode path' (text ≠ source) = target' at htarget
  cases htarget with
  | error => exact ⟨rfl, he⟩
  | ok htarget =>
    cases htarget with
    | none => exact ⟨rfl, he⟩
    | @some target target' hlocate =>
      have hwrite := he.write (hlocate.trans (congrFun he.locate target')) text
      dsimp only
      generalize tree.write target text = written, other.write target' text = written' at hwrite
      cases hwrite with
      | error => exact ⟨rfl, he⟩
      | ok hnext => exact ⟨rfl, hnext⟩

end Writing

/-- Two runs that meet at a file go on alike. -/
theorem FileStep.alike (h : FileStep layout mode tree path report next)
    (h' : FileStep layout mode other path' report' next') (he : SameEntries tree other)
    (hm : Meet tree path path') : EndsAlike report report' ∧ SameEntries next next' := by
  have hread := hm.read_eq he
  have hstore : layout.store tree.read = layout.store other.read := by rw [he.read]
  cases h with
  | unreadable hs =>
    rw [hread] at hs
    cases h' with
    | unreadable => exact ⟨⟨rfl, rfl⟩, he⟩
    | rejected hs' => nomatch hs.symm.trans hs'
    | processed hs' => nomatch hs.symm.trans hs'
  | rejected hs hr =>
    rw [hread] at hs
    rw [hstore] at hr
    cases h' with
    | unreadable hs' => nomatch hs.symm.trans hs'
    | rejected => exact ⟨⟨rfl, rfl⟩, he⟩
    | processed hs' hr' =>
      obtain rfl := Except.ok.inj (hs.symm.trans hs')
      nomatch hr.symm.trans hr'
  | processed hs hr hw =>
    rw [hread] at hs
    rw [hstore] at hr
    cases h' with
    | unreadable hs' => nomatch hs.symm.trans hs'
    | rejected hs' hr' =>
      obtain rfl := Except.ok.inj (hs.symm.trans hs')
      nomatch hr.symm.trans hr'
    | processed hs' hr' hw' =>
      obtain rfl := Except.ok.inj (hs.symm.trans hs')
      obtain rfl := Option.some.inj (hr.symm.trans hr')
      obtain ⟨habort, hnext⟩ := writeResult_alike mode he hm
      rw [hw, hw'] at habort hnext
      exact ⟨⟨rfl, habort⟩, hnext⟩

/-- Two runs whose files meet go on alike until both end. -/
theorem Steps.alike (h : Steps layout mode tree paths report next)
    (h' : Steps layout mode other paths' report' next') (he : SameEntries tree other)
    (hm : List.Forall₂ (Meet tree) paths paths') :
    EndsAlike report report' ∧ SameEntries next next' := by
  induction h generalizing other paths' report' with
  | nil tree =>
    cases hm
    cases h'
    exact ⟨⟨rfl, rfl⟩, he⟩
  | ended hstep ha =>
    obtain _ | ⟨hpath, -⟩ := hm
    cases h' with
    | ended hstep' => exact hstep.alike hstep' he hpath
    | cons hstep' ha' =>
      have habort := (hstep.alike hstep' he hpath).1.abort
      rw [ha, ha'] at habort
      nomatch habort
  | cons hstep ha hrest ih =>
    obtain _ | ⟨hpath, hpaths⟩ := hm
    cases h' with
    | ended hstep' ha' =>
      have habort := (hstep.alike hstep' he hpath).1.abort
      rw [ha, ha'] at habort
      nomatch habort
    | cons hstep' ha' hrest' =>
      obtain ⟨hfirst, hmiddle⟩ := hstep.alike hstep' he hpath
      have hmeet := hpaths.imp fun _ _ hm => hm.of_sameDirectories hstep.sameDirectories
      obtain ⟨hothers, hnext⟩ := ih hrest' hmiddle hmeet
      exact ⟨⟨by rw [hfirst.ok, hothers.ok], hothers.abort⟩, hnext⟩

section Runs

variable {arguments others : List Text}

/-- The directory for the results is made alike. -/
theorem agree_prepare (mode : Mode) :
    Agree Eq (prepare FileAccess.ofTree mode) (prepare FileAccess.ofTree mode) := by
  cases mode with
  | into directory =>
    refine (agree_createDirectories directory).bind_eq fun result => ?_
    cases result <;> exact .pure rfl
  | inPlace => exact .pure rfl
  | check => exact .pure rfl

/-- The tree in which a run finds its inputs: the directory for the results has been made. -/
def searched (tree : FileTree) : Option Mode → FileTree
  | some mode => (prepare FileAccess.ofTree mode tree).2
  | none => tree

/-- Trees that hold the same hold the same when the inputs are found. -/
theorem sameEntries_searched (he : SameEntries tree other) (mode : Option Mode) :
    SameEntries (searched tree mode) (searched other mode) := by
  cases mode with
  | none => exact he
  | some mode => exact (agree_prepare mode he).2

/-- The files that arguments stand for, in the order in which they are processed. -/
def expanded (tree : FileTree) (arguments : List Text) : Except Abort (List Text) :=
  (allInputs FileAccess.ofTree arguments tree).1.2.map inOrder

/-- Inputs of two runs, in order and up to spelling the same. -/
structure SameInputs (paths paths' : List Text) : Prop where
  /-- They are equal one by one. -/
  same : SamePaths paths paths'
  /-- The first ones get greater and greater. -/
  first : IsIncreasing paths
  /-- The second ones get greater and greater. -/
  second : IsIncreasing paths'

/-- The same arguments stand for the same inputs, on trees that hold the same. -/
theorem expanded_alike (he : SameEntries tree other) (ha : SameMembers arguments others) :
    Alike (fun _ _ => True) SameInputs (expanded tree arguments) (expanded other others) :=
  (agree_allInputs ha he).1.map fun paths paths' hpaths =>
    ⟨samePaths_inOrder hpaths, isIncreasing_inOrder paths, isIncreasing_inOrder paths'⟩

/-- Inputs that are found in trees that hold the same meet one by one. -/
theorem meet_inOrder (he : SameEntries tree other) (hp : SameMembers paths paths')
    (hf : ∀ path ∈ paths, tree.isFile path) (hf' : ∀ path ∈ paths', other.isFile path) :
    List.Forall₂ (Meet tree) (inOrder paths) (inOrder paths') := by
  obtain ⟨hlength, hsame⟩ := List.forall₂_iff_zip.1 (samePaths_inOrder hp)
  refine List.forall₂_iff_zip.2 ⟨hlength, fun hzip => ?_⟩
  obtain ⟨hpath, hpath'⟩ := List.of_mem_zip hzip
  refine .of_isFile (hsame hzip) (hf _ (mem_of_mem_inOrder hpath)) ?_
  rw [he.isFile]
  exact hf' _ (mem_of_mem_inOrder hpath')

/-- A batch of the same arguments goes equally well, on trees that hold the same. -/
theorem agree_processBatch (layout : Metadata.Layout) (mode : Option Mode)
    (ha : SameMembers arguments others) :
    Agree EndsAlike (processBatch FileAccess.ofTree layout mode arguments)
      (processBatch FileAccess.ofTree layout mode others) := by
  unfold processBatch
  cases mode with
  | none => exact .pure ⟨rfl, rfl⟩
  | some mode =>
    refine (agree_prepare mode).bind_eq fun failed => ?_
    cases failed with
    | some abort => exact .pure ⟨rfl, rfl⟩
    | none =>
      -- The inputs are files of the tree in which they are found, so that tree is kept in view.
      intro tree other he
      obtain ⟨log, found, hfound, hfinds⟩ := finds_allInputs tree arguments
      obtain ⟨log', found', hfound', hfinds'⟩ := finds_allInputs other others
      have halike := (agree_allInputs ha he).1
      dsimp only
      rw [bind_apply, bind_apply, hfound, hfound']
      rw [hfound, hfound'] at halike
      cases halike with
      | error => exact ⟨⟨rfl, rfl⟩, he⟩
      | @ok paths paths' hpaths =>
        have hmeet := meet_inOrder he hpaths (hfinds.isFile paths rfl) (hfinds'.isFile paths' rfl)
        have hsteps := steps layout mode tree (inOrder paths)
        have hsteps' := steps layout mode other (inOrder paths')
        obtain ⟨hends, hnext⟩ := hsteps.alike hsteps' he hmeet
        exact ⟨⟨hends.ok, hends.abort⟩, hnext⟩

/-- The standard input is processed alike on trees that hold the same. -/
theorem agree_processInput (layout : Metadata.Layout) (mode : Option Mode) (name : Text)
    (input : Content) :
    Agree Eq (processInput FileAccess.ofTree layout mode name input)
      (processInput FileAccess.ofTree layout mode name input) := by
  rw [processInput]
  cases input.read with
  | error error => exact .pure rfl
  | ok source =>
    have hstore : Agree Eq (storeFor FileAccess.ofTree layout source)
        (storeFor FileAccess.ofTree layout source) :=
      fun tree other he => ⟨congrArg layout.store he.read, he⟩
    exact hstore.bind_eq fun store => .pure rfl

variable {options : Options} {files : List Text}

/-- A run with the same arguments ends with the same status, on trees that hold the same. -/
theorem agree_run (hf : SameMembers options.files files) (level : Option Text) (input : Content) :
    Agree (fun outcome outcome' => outcome.status = outcome'.status)
      (run FileAccess.ofTree options level (pure input))
      (run FileAccess.ofTree { options with files } level (pure input)) := by
  have hempty : options.files.isEmpty = files.isEmpty := by
    rw [Bool.eq_iff_iff, List.isEmpty_iff, List.isEmpty_iff, List.eq_nil_iff_forall_not_mem,
      List.eq_nil_iff_forall_not_mem]
    exact forall_congr' fun file => not_congr (hf file)
  rw [run, run]
  refine (agree_isDirectory options.metadata).bind_eq fun found => ?_
  dsimp only
  rw [hempty]
  refine .ite _ ?_ ?_
  · have hinput : Agree Eq (pure input) (pure input) := .pure rfl
    exact hinput.bind_eq fun _ => (agree_processInput _ _ _ _).bind_eq fun _ => .pure rfl
  · exact (agree_processBatch _ _ hf).bind fun _ _ hends => .pure (hends.status _ _ _)

/-- A run does not depend on the order of its arguments, on how often they are given, or on the
order in which directories are listed: either both runs find all of their inputs or neither does,
the inputs are the same up to spelling and get greater and greater in both, the runs end with the
same status, and every place holds the same afterwards. -/
theorem run_unordered {options' : Options} (he : SameEntries tree other)
    (hoptions : options' = { options with files := options'.files })
    (hfiles : SameMembers options.files options'.files) (level : Option Text) (input : Content) :
    let first := run FileAccess.ofTree options level (pure input) tree
    let second := run FileAccess.ofTree options' level (pure input) other
    Alike (fun _ _ => True) SameInputs (expanded (searched tree options.mode) options.files)
        (expanded (searched other options'.mode) options'.files) ∧
      first.1.status = second.1.status ∧ SameEntries first.2 second.2 := by
  have hmode : options'.mode = options.mode := by rw [hoptions]
  have hrun := agree_run hfiles level input he
  rw [← hoptions] at hrun
  rw [hmode]
  exact ⟨expanded_alike (sameEntries_searched he options.mode) hfiles, hrun⟩

/-- A tree with two sources of one name, and one that is no text. -/
def listedTree : FileTree where
  workingDirectory := ["w"]
  entries :=
    [(["w"], .directory), (["w", "d"], .directory), (["w", "d", "A.pm"], .file (.text "1;\n")),
      (["w", "d", "C.pm"], .file (.bytes [255])), (["w", "e"], .directory),
      (["w", "e", "A.pm"], .file (.text "2;\n"))]

/-- The same tree, listed backwards. -/
def backwardsTree : FileTree := { listedTree with entries := listedTree.entries.reverse }

/-- Options to write the results for all of the sources into a directory. -/
def listedOptions : Options where
  files := ["d", "e/*.pm", "d//A.pm"]
  metadata := "meta.json"
  mode := some (.into "out")
  name := "-"
  verbosity := 0
  quiet := false

/-- The same options with the arguments in another order, one of them twice. -/
def listedAgain : Options := { listedOptions with files := ["d//A.pm", "e/*.pm", "d", "e/*.pm"] }

/-- Listed backwards, and with its arguments in another order, the tree gives the same inputs in
another spelling. The source that is no text lets both runs fail, and of those with one name the
same one is found in the directory. -/
theorem run_unordered_listedTree :
    let first := run FileAccess.ofTree listedOptions none (pure (.text [])) listedTree
    let second := run FileAccess.ofTree listedAgain none (pure (.text [])) backwardsTree
    expanded (searched listedTree listedOptions.mode) listedOptions.files =
        .ok ["d/A.pm", "d/C.pm", "e/A.pm"] ∧
      expanded (searched backwardsTree listedAgain.mode) listedAgain.files =
        .ok ["d//A.pm", "d/C.pm", "e/A.pm"] ∧
      first.1.status = 1 ∧ second.1.status = 1 ∧ second.2.read "out/A.pm" = .ok "2;\n" := by
  have he : SameEntries listedTree backwardsTree :=
    .of_perm rfl listedTree.entries.reverse_perm.symm (by decide)
  have hoptions : listedAgain = { listedOptions with files := listedAgain.files } := rfl
  have hfiles : SameMembers listedOptions.files listedAgain.files :=
    .of_subset (by decide) (by decide)
  obtain ⟨-, hstatus, hentries⟩ := run_unordered he hoptions hfiles none (.text [])
  have hfirst : (run FileAccess.ofTree listedOptions none (pure (.text [])) listedTree).1.status =
      1 := by decide +kernel
  have hread : (run FileAccess.ofTree listedOptions none (pure (.text [])) listedTree).2.read
      "out/A.pm" = .ok "2;\n" := by decide +kernel
  rw [hentries.read] at hread
  exact ⟨by decide +kernel, by decide +kernel, hfirst, hstatus.symm.trans hfirst, hread⟩

end Runs

end Batch

end ArgGuard
