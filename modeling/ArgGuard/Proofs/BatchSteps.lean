import ArgGuard.Proofs.ReadOnly
import ArgGuard.Proofs.Rewriting

/-!
# Steps of a batch

What happens to one file of a batch is told by what its path leads to and by what the source there
is rewritten to; a batch is a sequence of such steps, which only a result that cannot be written
ends. How a run ends and what it leaves is read off the steps for its files in order.
-/

namespace ArgGuard.Batch

open FileTree

variable {layout : Metadata.Layout} {mode : Mode} {tree middle next current : FileTree}
  {path : Text} {paths rest : List Text} {first others report : Report} {place : Place}
  {content : Content}

section Writing

variable {text : Text}

/-- A text that can be written is written. -/
theorem ofTree_write_of_ok (h : tree.write path text = .ok next) :
    FileAccess.ofTree.write path text tree = (.ok (), next) := by
  simp [FileAccess.ofTree, attempt, h]

/-- A text that cannot be written changes nothing. -/
theorem ofTree_write_of_error {error : FileError} (h : tree.write path text = .error error) :
    FileAccess.ofTree.write path text tree = (.error error, tree) := by
  simp [FileAccess.ofTree, attempt, h]

/-- A result is written to its target, if it has one. -/
theorem writeResult_apply (mode : Mode) (path source text : Text) (tree : FileTree) :
    writeResult FileAccess.ofTree mode path source text tree =
      match target? mode path (text ≠ source) with
      | .error abort => (some abort, tree)
      | .ok none => (none, tree)
      | .ok (some target) =>
        match tree.write target text with
        | .ok next => (none, next)
        | .error error => (some ⟨"failed to write " ++ target, some error.message⟩, tree) := by
  rw [writeResult]
  rcases target? mode path (text ≠ source) with abort | _ | target
  · rfl
  · rfl
  · dsimp only
    rw [bind_apply]
    cases hwrite : tree.write target text with
    | error error => rw [ofTree_write_of_error hwrite]; rfl
    | ok next => rw [ofTree_write_of_ok hwrite]; rfl

/-- A result that is written replaces no directory. -/
theorem sameDirectories_writeResult (mode : Mode) (path source text : Text) (tree : FileTree) :
    SameDirectories tree (writeResult FileAccess.ofTree mode path source text tree).2 := by
  rw [writeResult_apply]
  split
  next => exact .refl tree
  next => exact .refl tree
  next =>
    split
    next hwrite => exact .of_write hwrite
    next => exact .refl tree

end Writing

section Metadata

/-- A place where the metadata of a package is looked for that a line may declare. -/
def IsMetadata (layout : Metadata.Layout) (tree : FileTree) (place : Place) : Prop :=
  ∃ line package, LineKind.ofLine line = .package package ∧
    tree.locate (layout.pathOf package) = .ok place

/-- The metadata of a package is read from the text at its path. -/
theorem store_eq_ok_iff {read : Text → Except FileError Text} {package : Text}
    {index : MetadataIndex} :
    layout.store read package = .ok index ↔
      ∃ text, read (layout.pathOf package) = .ok text ∧
        layout.index package text = .ok index := by
  unfold Metadata.Layout.store
  dsimp only
  split
  next text htext => simp [htext]
  next hmissing => simp [hmissing]
  next error hother => simp [hother]

/-- A tree has the metadata of another one if it has the same directories and the same texts where
that is looked for. -/
theorem covers_store (hd : SameDirectories tree current)
    (hsame : ∀ place, IsMetadata layout tree place → ∀ text,
      tree.at? place = some (.file (.text text)) → current.at? place = some (.file (.text text))) :
    Covers (layout.store current.read) (layout.store tree.read) := by
  intro line package index hline hindex
  obtain ⟨text, hread, hindex⟩ := store_eq_ok_iff.1 hindex
  obtain ⟨place, hplace, hat⟩ := read_eq_ok_iff.1 hread
  have hcurrent := hsame place ⟨line, package, hline, hplace⟩ text hat
  exact store_eq_ok_iff.2 ⟨text, read_eq_ok_iff.2 ⟨place, hd.locate hplace, hcurrent⟩, hindex⟩

end Metadata

/-- Whatever its file is called, a source is processed to what it is rewritten to. -/
theorem map_text_processOne (file source : Text) (store : MetadataStore) :
    (processOne file source store).2.map Yield.text = rewrite? store source := by
  unfold processOne
  cases hp : process ⟨file, store, Schema.compile⟩ source with
  | ok y => exact ((rewrite?_eq_some_iff file).2 ⟨y, hp, rfl⟩).symm
  | error failure =>
    refine (Option.eq_none_iff_forall_not_mem.2 fun target htarget => ?_).symm
    obtain ⟨y, hy, -⟩ := (rewrite?_eq_some_iff file).1 htarget
    simp [hp] at hy

/-- What happens to one file of a batch. -/
inductive FileStep (layout : Metadata.Layout) (mode : Mode) (tree : FileTree) (path : Text) :
    Report → FileTree → Prop
  /-- It cannot be read. -/
  | unreadable {log : List LogLine} {error : FileError} (h : tree.read path = .error error) :
      FileStep layout mode tree path { log, ok := false } tree
  /-- It is not processed. -/
  | rejected {log : List LogLine} {source : Text} (hs : tree.read path = .ok source)
      (hr : rewrite? (layout.store tree.read) source = none) :
      FileStep layout mode tree path { log, ok := false } tree
  /-- It is processed, and the result is written where it belongs. -/
  | processed {log : List LogLine} {source target : Text} {abort : Option Abort} {next : FileTree}
      (hs : tree.read path = .ok source)
      (hr : rewrite? (layout.store tree.read) source = some target)
      (hw : writeResult FileAccess.ofTree mode path source target tree = (abort, next)) :
      FileStep layout mode tree path { log, abort } next

/-- A file is processed by one of these steps. -/
theorem fileStep (layout : Metadata.Layout) (mode : Mode) (tree : FileTree) (path : Text) :
    FileStep layout mode tree path (processFile FileAccess.ofTree layout mode path tree).1
      (processFile FileAccess.ofTree layout mode path tree).2 := by
  have hread : FileAccess.ofTree.read path tree = (tree.read path, tree) := rfl
  rw [processFile, bind_apply, hread]
  cases hs : tree.read path with
  | error error => exact .unreadable hs
  | ok source =>
    have hstore : storeFor FileAccess.ofTree layout source tree =
        (layout.store tree.read, tree) := rfl
    have htext := map_text_processOne path source (layout.store tree.read)
    dsimp only
    rw [bind_apply, hstore]
    cases hone : processOne path source (layout.store tree.read) with
    | mk log result =>
      rw [hone] at htext
      cases result with
      | none => exact .rejected hs htext.symm
      | some y => exact .processed hs htext.symm rfl

/-- No directory comes or goes when a file is processed. -/
theorem FileStep.sameDirectories (h : FileStep layout mode tree path report next) :
    SameDirectories tree next := by
  cases h with
  | unreadable => exact .refl tree
  | rejected => exact .refl tree
  | @processed _ source target _ _ hs hr hw =>
    have hd := sameDirectories_writeResult mode path source target tree
    rw [hw] at hd
    exact hd

/-- What happens to the files of a batch, one after the other. -/
inductive Steps (layout : Metadata.Layout) (mode : Mode) :
    FileTree → List Text → Report → FileTree → Prop
  /-- No file is left. -/
  | nil (tree : FileTree) : Steps layout mode tree [] {} tree
  /-- A file ends the run. -/
  | ended {tree next : FileTree} {path : Text} {rest : List Text} {first : Report}
      (h : FileStep layout mode tree path first next) (ha : first.abort.isSome) :
      Steps layout mode tree (path :: rest) first next
  /-- A file leaves its tree to the files behind it. -/
  | cons {tree middle next : FileTree} {path : Text} {rest : List Text} {first others : Report}
      (h : FileStep layout mode tree path first middle) (ha : first.abort = none)
      (hr : Steps layout mode middle rest others next) :
      Steps layout mode tree (path :: rest)
        ⟨first.log ++ others.log, first.ok && others.ok, others.abort⟩ next

/-- The files of a batch are processed by such steps. -/
theorem steps (layout : Metadata.Layout) (mode : Mode) (tree : FileTree) (paths : List Text) :
    Steps layout mode tree paths (processFiles FileAccess.ofTree layout mode paths tree).1
      (processFiles FileAccess.ofTree layout mode paths tree).2 := by
  induction paths generalizing tree with
  | nil => exact .nil tree
  | cons path rest ih =>
    have hstep := fileStep layout mode tree path
    rw [processFiles, bind_apply]
    cases ha : (processFile FileAccess.ofTree layout mode path tree).1.abort with
    | some abort =>
      simp only [Option.isSome_some, if_true]
      exact .ended hstep (Option.isSome_iff_exists.2 ⟨abort, ha⟩)
    | none =>
      simp only [Option.isSome_none, Bool.false_eq_true, if_false]
      exact .cons hstep ha (ih _)

section Order

/-- A path that is put into a list is there, and so is what was there. -/
theorem mem_of_mem_place {entry : Text} (h : entry ∈ Batch.place path paths) :
    entry = path ∨ entry ∈ paths := by
  induction paths with
  | nil => exact .inl (List.mem_singleton.1 h)
  | cons next rest ih =>
    rw [Batch.place] at h
    split at h
    next => exact (List.mem_cons.1 h).imp_right (List.mem_cons_of_mem _)
    next =>
      split at h
      next => exact List.mem_cons.1 h
      next =>
        rcases List.mem_cons.1 h with rfl | h
        · exact .inr List.mem_cons_self
        · exact (ih h).imp_right (List.mem_cons_of_mem _)

/-- A path that is put into a list is there, and every other path is or is equal to it. -/
theorem exists_same_mem_place (path : Text) {entry : Text} (h : entry = path ∨ entry ∈ paths) :
    ∃ other ∈ Batch.place path paths, Path.same other entry := by
  have hself (p : Text) : Path.same p p := by simp [Path.same]
  induction paths with
  | nil =>
    obtain rfl := h.resolve_right List.not_mem_nil
    exact ⟨entry, List.mem_singleton_self entry, hself entry⟩
  | cons next rest ih =>
    rw [Batch.place]
    split
    next hsame =>
      rcases h with rfl | h
      · exact ⟨entry, List.mem_cons_self, hself entry⟩
      · rcases List.mem_cons.1 h with rfl | h
        · exact ⟨path, List.mem_cons_self, hsame⟩
        · exact ⟨entry, List.mem_cons_of_mem _ h, hself entry⟩
    next =>
      split
      next => exact ⟨entry, List.mem_cons.2 h, hself entry⟩
      next =>
        rcases or_left_comm.1 (h.imp_right List.mem_cons.1) with rfl | h
        · exact ⟨entry, List.mem_cons_self, hself entry⟩
        · obtain ⟨other, hother, hsame⟩ := ih h
          exact ⟨other, List.mem_cons_of_mem _ hother, hsame⟩

/-- Paths in order are some of the given paths. -/
theorem mem_of_mem_inOrder (h : path ∈ inOrder paths) : path ∈ paths := by
  induction paths with
  | nil => exact h
  | cons next rest ih => exact List.mem_cons.2 ((mem_of_mem_place h).imp_right ih)

/-- Every path is equal to one of the paths in order. -/
theorem exists_same_mem_inOrder (h : path ∈ paths) :
    ∃ other ∈ inOrder paths, Path.same other path := by
  induction paths with
  | nil => simp at h
  | cons next rest ih =>
    rcases List.mem_cons.1 h with rfl | h
    · exact exists_same_mem_place path (.inl rfl)
    · obtain ⟨other, hother, hsame⟩ := ih h
      obtain ⟨last, hlast, hsame'⟩ := exists_same_mem_place next (.inr hother)
      refine ⟨last, hlast, ?_⟩
      simp only [Path.same, decide_eq_true_eq] at hsame hsame' ⊢
      rw [hsame', hsame]

/-- Every path to a file leads where one of the paths in order does. -/
theorem exists_locate_eq_mem_inOrder (hfile : ∀ path ∈ paths, tree.isFile path)
    (h : path ∈ paths) : ∃ other ∈ inOrder paths, tree.locate other = tree.locate path := by
  obtain ⟨other, hother, hsame⟩ := exists_same_mem_inOrder h
  obtain ⟨place, hplace, hplace'⟩ :=
    exists_locate_of_same hsame (hfile other (mem_of_mem_inOrder hother)) (hfile path h)
  exact ⟨other, hother, hplace.trans hplace'.symm⟩

end Order

section Runs

/-- How metadata is kept, as far as the path to it tells. -/
def layoutOf (tree : FileTree) (metadata : Text) : Metadata.Layout :=
  if tree.isDirectory metadata then .directory metadata else .file metadata

/-- The files that arguments stand for, if all of them stand for some. -/
def inputs (tree : FileTree) (arguments : List Text) : List Text :=
  (allInputs FileAccess.ofTree arguments tree).1.2.toOption.getD []

/-- The inputs of a batch are found if all patterns can be read. -/
theorem allInputs_eq (h : ∀ argument ∈ paths, IsFindable tree argument) :
    ∃ log, allInputs FileAccess.ofTree paths tree = ((log, .ok (inputs tree paths)), tree) := by
  obtain ⟨log, found, hfound, hfinds⟩ := finds_allInputs tree paths
  obtain ⟨all, rfl⟩ := hfinds.succeeds h
  refine ⟨log, ?_⟩
  rw [inputs, hfound]
  rfl

/-- The inputs of a batch are files. -/
theorem isFile_of_mem_inputs (h : path ∈ inputs tree paths) : tree.isFile path := by
  obtain ⟨log, found, hfound, hfinds⟩ := finds_allInputs tree paths
  rw [inputs, hfound] at h
  cases found with
  | error abort => simp [Except.toOption] at h
  | ok all => exact hfinds.isFile all rfl path h

/-- A run ends with status zero if every input was processed and nothing ended it early. -/
theorem Outcome.status_ofReport (level : LogLevel) (report : Report) (output : Text) :
    (Outcome.ofReport level report output).status = 0 ↔
      report.ok = true ∧ report.abort = none := by
  simp [Outcome.ofReport]

/-- A run ends with status zero or one. -/
theorem status_run_le (options : Options) (level : Option Text) (input : Content)
    (tree : FileTree) :
    (run FileAccess.ofTree options level (pure input) tree).1.status ≤ 1 := by
  have hstatus (level : LogLevel) (report : Report) (output : Text) :
      (Outcome.ofReport level report output).status ≤ 1 := by
    rw [Outcome.ofReport]
    dsimp only
    split <;> decide
  rw [run, bind_apply]
  dsimp only
  split
  next => exact hstatus _ _ _
  next => exact hstatus _ _ _

variable {options : Options} (level : Option Text) (input : Content) {log : List LogLine}

/-- A run over files is its batch. -/
theorem run_eq (hfiles : options.files ≠ []) :
    run FileAccess.ofTree options level (pure input) tree =
      let batch := processBatch FileAccess.ofTree (layoutOf tree options.metadata) options.mode
        options.files tree
      (.ofReport ((level.map LogLevel.ofSetting).getD
        (.ofOptions options.quiet options.verbosity)) batch.1 [], batch.2) := by
  have hne : ¬ options.files.isEmpty = true := by simpa using hfiles
  rw [run, bind_apply, ofTree_isDirectory]
  dsimp only
  rw [if_neg hne]
  rfl

/-- A run over files that are found takes steps for them in order. -/
theorem run_files (hfiles : options.files ≠ []) (hmode : options.mode = some mode)
    (hprepare : prepare FileAccess.ofTree mode tree = (none, next))
    (hfound : allInputs FileAccess.ofTree options.files next = ((log, .ok paths), next)) :
    ∃ report, Steps (layoutOf tree options.metadata) mode next (inOrder paths) report
        (run FileAccess.ofTree options level (pure input) tree).2 ∧
      ((run FileAccess.ofTree options level (pure input) tree).1.status = 0 ↔
        report.ok = true ∧ report.abort = none) := by
  rw [run_eq level input hfiles, hmode, processBatch]
  dsimp only
  rw [bind_apply, hprepare]
  dsimp only
  rw [bind_apply, hfound]
  exact ⟨_, steps _ _ _ _, Outcome.status_ofReport _ _ _⟩

/-- A run over files that ends with status zero has found them. -/
theorem exists_inputs_of_status (hfiles : options.files ≠ []) (hmode : options.mode = some mode)
    (h : (run FileAccess.ofTree options level (pure input) tree).1.status = 0) :
    ∃ next log, prepare FileAccess.ofTree mode tree = (none, next) ∧
      allInputs FileAccess.ofTree options.files next =
        ((log, .ok (inputs next options.files)), next) := by
  rw [run_eq level input hfiles, hmode, processBatch] at h
  dsimp only at h
  rw [bind_apply, Outcome.status_ofReport] at h
  cases hprepare : prepare FileAccess.ofTree mode tree with
  | mk abort next =>
    rw [hprepare] at h
    cases abort with
    | some abort => exact absurd h.2 (Option.some_ne_none abort)
    | none =>
      obtain ⟨log, found, hfound, -⟩ := finds_allInputs next options.files
      dsimp only at h
      rw [bind_apply, hfound] at h
      cases found with
      | error abort => exact absurd h.2 (Option.some_ne_none abort)
      | ok all =>
        refine ⟨next, log, rfl, ?_⟩
        rw [inputs, hfound]
        rfl

/-- The standard input is processed without a change of the tree. -/
theorem processInput_eq (layout : Metadata.Layout) (mode : Option Mode) (name : Text)
    (input : Content) (tree : FileTree) :
    ∃ report output,
      processInput FileAccess.ofTree layout mode name input tree = ((report, output), tree) ∧
        (report.ok = true ∧ report.abort = none ↔
          input.isAccepted (layout.store tree.read)) := by
  rw [processInput]
  cases input with
  | bytes bs => exact ⟨_, _, rfl, by simp [Content.isAccepted]⟩
  | text source =>
    have hstore : storeFor FileAccess.ofTree layout source tree =
        (layout.store tree.read, tree) := rfl
    simp only [Content.read]
    rw [bind_apply, hstore]
    refine ⟨_, _, rfl, ?_⟩
    rw [Content.isAccepted, ← map_text_processOne name, Option.isSome_map]
    exact and_iff_left rfl

/-- A run without files processes the standard input, and leaves the tree as it is. -/
theorem run_input (tree : FileTree) (hfiles : options.files = []) :
    (run FileAccess.ofTree options level (pure input) tree).2 = tree ∧
      ((run FileAccess.ofTree options level (pure input) tree).1.status = 0 ↔
        input.isAccepted ((layoutOf tree options.metadata).store tree.read)) := by
  have hempty : options.files.isEmpty = true := by simp [hfiles]
  obtain ⟨report, output, hinput, hreport⟩ := processInput_eq (layoutOf tree options.metadata)
    options.mode options.name input tree
  have hrun : run FileAccess.ofTree options level (pure input) tree =
      (.ofReport ((level.map LogLevel.ofSetting).getD
        (.ofOptions options.quiet options.verbosity)) report output, tree) := by
    rw [run, bind_apply, ofTree_isDirectory]
    dsimp only
    rw [if_pos hempty, bind_apply, bind_apply]
    dsimp only [Pure.pure, StateT.pure]
    rw [← layoutOf, hinput]
  rw [hrun]
  exact ⟨rfl, (Outcome.status_ofReport _ _ _).trans hreport⟩

end Runs

end ArgGuard.Batch
