import ArgGuard.Proofs.BatchSteps

/-!
# Rewriting in place

A batch in place reads and writes the tree that it goes through, so a file may be met again under
another spelling when it was rewritten already. Since text that was rewritten is rewritten to
itself, and no input is metadata, each file ends as it would on its own.
-/

namespace ArgGuard

/-- What a place holds after it was rewritten. -/
def Entry.rewritten (store : MetadataStore) : Entry → Entry
  | file content => file (content.rewritten store)
  | directory => directory

/-- What has been rewritten holds a directory where there was one, and only there. -/
theorem Entry.map_rewritten_eq_directory_iff {store : MetadataStore} {found : Option Entry} :
    found.map (Entry.rewritten store) = some .directory ↔ found = some .directory := by
  rcases found with _ | _ | _ <;> simp [Entry.rewritten]

namespace Batch

open FileTree

variable {layout : Metadata.Layout} {mode : Mode} {tree current next : FileTree}
  {path : Text} {paths done : List Text} {report : Report} {place : Place} {content : Content}

/-- A file that can be read and processed with a store. -/
def Succeeds (store : MetadataStore) (path : Text) (read : Except FileError Text) : Prop :=
  ∃ source y, read = .ok source ∧ process ⟨path, store, Schema.compile⟩ source = .ok y

/-- A text succeeds if it is rewritten. -/
theorem succeeds_ok_iff (store : MetadataStore) (path source : Text) :
    Succeeds store path (.ok source) ↔ (rewrite? store source).isSome = true := by
  rw [Option.isSome_iff_exists]
  constructor
  · rintro ⟨_, y, hread, hy⟩
    obtain rfl := Except.ok.inj hread
    exact ⟨_, (rewrite?_eq_some_iff path).2 ⟨y, hy, rfl⟩⟩
  · rintro ⟨target, htarget⟩
    obtain ⟨y, hy, -⟩ := (rewrite?_eq_some_iff path).1 htarget
    exact ⟨source, y, rfl, hy⟩

/-- A file succeeds if its content is accepted. -/
theorem succeeds_iff (store : MetadataStore) (path : Text) (content : Content) :
    Succeeds store path content.read ↔ content.isAccepted store = true := by
  cases content with
  | bytes bs => simp [Succeeds, Content.read, Content.isAccepted]
  | text source => exact succeeds_ok_iff store path source

/-- A result in place is what its place holds then, whether or not it has to be written. -/
theorem exists_writeResult_inPlace {source : Text} (target : Text)
    (hp : tree.locate path = .ok place) (hc : tree.at? place = some (.file (.text source))) :
    ∃ next, writeResult FileAccess.ofTree .inPlace path source target tree = (none, next) ∧
      ∀ p, next.at? p = if p = place then some (.file (.text target)) else tree.at? p := by
  simp only [writeResult_apply, target?]
  by_cases hsame : target = source
  · refine ⟨tree, by simp [hsame], fun p => ?_⟩
    split
    next hplace => rw [hplace, hc, hsame]
    next => rfl
  · obtain ⟨changed, hchanged⟩ :=
      exists_write_of_isFile (isFile_iff.2 ⟨place, _, hp, hc⟩) target
    obtain ⟨found, hfound, -, hat⟩ := of_write hchanged
    obtain rfl := Except.ok.inj (hfound.symm.trans hp)
    exact ⟨changed, by simp [hsame, hchanged], hat⟩

/-- A file in place is rewritten, and stays as it is where that fails; nothing ends the run. -/
theorem FileStep.inPlace (h : FileStep layout .inPlace tree path report next)
    (hp : tree.locate path = .ok place) (hc : tree.at? place = some (.file content)) :
    report.abort = none ∧ report.ok = content.isAccepted (layout.store tree.read) ∧
      ∀ p, next.at? p =
        if p = place then some (.file (content.rewritten (layout.store tree.read)))
        else tree.at? p := by
  have hread := read_eq_of_at? hp hc
  have hkept (p : Place) : tree.at? p = if p = place then some (.file content) else tree.at? p := by
    split
    next hp => rw [hp, hc]
    next => rfl
  cases h with
  | unreadable hs =>
    cases content with
    | text source => simp [hs, Content.read] at hread
    | bytes bs => exact ⟨rfl, rfl, hkept⟩
  | rejected hs hr =>
    cases content with
    | bytes bs => simp [hs, Content.read] at hread
    | text source =>
      obtain rfl := Except.ok.inj (hs.symm.trans hread)
      refine ⟨rfl, by simp [Content.isAccepted, hr], ?_⟩
      simpa [Content.rewritten, hr] using hkept
  | processed hs hr hw =>
    cases content with
    | bytes bs => simp [hs, Content.read] at hread
    | text source =>
      obtain rfl := Except.ok.inj (hs.symm.trans hread)
      obtain ⟨changed, hwrite, hat⟩ := exists_writeResult_inPlace _ hp hc
      obtain ⟨rfl, rfl⟩ := Prod.mk.inj (hw.symm.trans hwrite)
      refine ⟨rfl, by simp [Content.isAccepted, hr], ?_⟩
      simpa [Content.rewritten, hr] using hat

/-- A file that is only checked stays as it is; nothing ends the run. -/
theorem FileStep.check (h : FileStep layout .check tree path report next) :
    report.abort = none ∧ next = tree ∧
      (report.ok = true ↔ Succeeds (layout.store tree.read) path (tree.read path)) := by
  cases h with
  | unreadable hs => exact ⟨rfl, rfl, by simp [Succeeds, hs]⟩
  | rejected hs hr => exact ⟨rfl, rfl, by simp [hs, succeeds_ok_iff, hr]⟩
  | processed hs hr hw =>
    obtain ⟨rfl, rfl⟩ := Prod.mk.inj hw
    exact ⟨rfl, rfl, by simp [hs, succeeds_ok_iff, hr]⟩

/-- A batch that is only checked leaves the tree as it is, and all is well if every file
succeeds. -/
theorem Steps.check (h : Steps layout .check tree paths report next) :
    report.abort = none ∧ next = tree ∧
      (report.ok = true ↔
        ∀ path ∈ paths, Succeeds (layout.store tree.read) path (tree.read path)) := by
  induction h with
  | nil tree => simp
  | ended hstep ha => simp [hstep.check.1] at ha
  | cons hstep _ _ ih =>
    obtain ⟨-, rfl, hok⟩ := hstep.check
    obtain ⟨habort, rfl, hall⟩ := ih
    refine ⟨habort, rfl, ?_⟩
    rw [Bool.and_eq_true, List.forall_mem_cons, hok, hall]

/-- A tree in which the files that paths lead to have been rewritten, with the metadata of the
original tree. -/
structure Rewritten (layout : Metadata.Layout) (tree : FileTree) (paths : List Text)
    (current : FileTree) : Prop where
  /-- Relative paths start in the same place. -/
  workingDirectory : tree.workingDirectory = current.workingDirectory
  /-- The place of each path holds what it is rewritten to. -/
  inputs : ∀ path ∈ paths, ∀ place, tree.locate path = .ok place →
    current.at? place = (tree.at? place).map (Entry.rewritten (layout.store tree.read))
  /-- Every other place holds what it held. -/
  others : ∀ place, (∀ path ∈ paths, tree.locate path ≠ .ok place) →
    current.at? place = tree.at? place

/-- A path to a file that holds no metadata. -/
structure IsSource (layout : Metadata.Layout) (tree : FileTree) (path : Text) : Prop where
  /-- It leads to a file. -/
  isFile : tree.isFile path
  /-- Nothing is looked for there. -/
  not_isMetadata : ∀ place, tree.locate path = .ok place → ¬ IsMetadata layout tree place

namespace Rewritten

/-- Nothing has been rewritten at first. -/
theorem nil (layout : Metadata.Layout) (tree : FileTree) : Rewritten layout tree [] tree :=
  ⟨rfl, by simp, fun _ _ => rfl⟩

/-- Each place holds what it held or what that is rewritten to. -/
theorem at?_eq_or (h : Rewritten layout tree paths current) (place : Place) :
    current.at? place = tree.at? place ∨
      current.at? place = (tree.at? place).map (Entry.rewritten (layout.store tree.read)) := by
  by_cases hplace : ∃ path ∈ paths, tree.locate path = .ok place
  · obtain ⟨path, hpath, hlocate⟩ := hplace
    exact .inr (h.inputs path hpath place hlocate)
  · exact .inl (h.others place fun path hpath hlocate => hplace ⟨path, hpath, hlocate⟩)

/-- No directory comes or goes. -/
theorem sameDirectories (h : Rewritten layout tree paths current) :
    SameDirectories tree current := by
  refine ⟨h.workingDirectory, fun place => ?_⟩
  rcases h.at?_eq_or place with hat | hat
  · rw [hat]
  · rw [hat, Entry.map_rewritten_eq_directory_iff]

/-- Sources are still rewritten as with the original metadata. -/
theorem rewrite?_store (h : Rewritten layout tree paths current)
    (hs : ∀ path ∈ paths, IsSource layout tree path) :
    rewrite? (layout.store current.read) = rewrite? (layout.store tree.read) := by
  have hsame (place : Place) (hplace : IsMetadata layout tree place) :
      current.at? place = tree.at? place :=
    h.others place fun path hpath hlocate =>
      (hs path hpath).not_isMetadata place hlocate hplace
  have hcovers : Covers (layout.store current.read) (layout.store tree.read) :=
    covers_store h.sameDirectories fun place hplace text htext => by rw [hsame place hplace, htext]
  have hcovers' : Covers (layout.store tree.read) (layout.store current.read) := by
    refine covers_store h.sameDirectories.symm fun place hplace text htext => ?_
    obtain ⟨line, package, hline, hlocate⟩ := hplace
    rw [← hsame place ⟨line, package, hline, h.sameDirectories.symm.locate hlocate⟩, htext]
  exact funext (rewrite?_eq_of_covers hcovers hcovers')

/-- One more file is rewritten to what it would be at first, even if it was rewritten before. -/
theorem concat (h : Rewritten layout tree done current)
    (hs : ∀ path ∈ done, IsSource layout tree path) (hpath : IsSource layout tree path)
    (hstep : FileStep layout .inPlace current path report next) :
    Rewritten layout tree (done ++ [path]) next ∧ report.abort = none ∧
      (report.ok = true ↔ Succeeds (layout.store tree.read) path (tree.read path)) := by
  obtain ⟨place, content, hplace, hcontent⟩ := isFile_iff.1 hpath.isFile
  -- The file may have been rewritten under another spelling already.
  obtain ⟨now, hnow, hrewritten, haccepted⟩ : ∃ now, current.at? place = some (.file now) ∧
      now.rewritten (layout.store tree.read) = content.rewritten (layout.store tree.read) ∧
      now.isAccepted (layout.store tree.read) = content.isAccepted (layout.store tree.read) := by
    rcases h.at?_eq_or place with hat | hat
    · exact ⟨content, hat.trans hcontent, rfl, rfl⟩
    · refine ⟨content.rewritten (layout.store tree.read), ?_, content.rewritten_rewritten _,
        content.isAccepted_rewritten _⟩
      rw [hat, hcontent]
      rfl
  obtain ⟨habort, hok, hat⟩ := hstep.inPlace (h.sameDirectories.locate hplace) hnow
  have hstore := h.rewrite?_store hs
  rw [now.isAccepted_congr hstore, haccepted] at hok
  rw [now.rewritten_congr hstore, hrewritten] at hat
  refine ⟨⟨h.workingDirectory.trans hstep.sameDirectories.workingDirectory,
    fun other hother found hfound => ?_, fun found hfound => ?_⟩, habort, ?_⟩
  · rw [hat]
    split
    next heq =>
      rw [heq, hcontent]
      rfl
    next hne =>
      rcases List.mem_append.1 hother with hother | hother
      · exact h.inputs other hother found hfound
      · obtain rfl := List.mem_singleton.1 hother
        exact absurd (Except.ok.inj (hfound.symm.trans hplace)) hne
  · have hne : found ≠ place := by
      rintro rfl
      exact hfound path (by simp) hplace
    rw [hat, if_neg hne]
    exact h.others found fun other hother => hfound other (List.mem_append_left _ hother)
  · rw [read_eq_of_at? hplace hcontent, succeeds_iff, hok]

end Rewritten

/-- A batch in place rewrites each file as if it were alone, and all is well if every file
succeeds. -/
theorem Steps.inPlace (h : Steps layout .inPlace current paths report next)
    (hd : Rewritten layout tree done current) (hdone : ∀ path ∈ done, IsSource layout tree path)
    (hs : ∀ path ∈ paths, IsSource layout tree path) :
    Rewritten layout tree (done ++ paths) next ∧ report.abort = none ∧
      (report.ok = true ↔
        ∀ path ∈ paths, Succeeds (layout.store tree.read) path (tree.read path)) := by
  induction h generalizing done with
  | nil current => exact ⟨by rwa [List.append_nil], rfl, by simp⟩
  | ended hstep ha =>
    obtain ⟨hpath, -⟩ := List.forall_mem_cons.1 hs
    simp [(hd.concat hdone hpath hstep).2.1] at ha
  | cons hstep _ _ ih =>
    obtain ⟨hpath, hrest⟩ := List.forall_mem_cons.1 hs
    obtain ⟨hd, -, hok⟩ := hd.concat hdone hpath hstep
    have hdone' := List.forall_mem_append.2 ⟨hdone, List.forall_mem_singleton.2 hpath⟩
    obtain ⟨hnext, habort, hall⟩ := ih hd hdone' hrest
    rw [List.append_assoc, List.singleton_append] at hnext
    refine ⟨hnext, habort, ?_⟩
    rw [Bool.and_eq_true, List.forall_mem_cons, hok, hall]

/-- Files that have been rewritten in order have been rewritten. -/
theorem Rewritten.of_inOrder (h : Rewritten layout tree (inOrder paths) current)
    (hfile : ∀ path ∈ paths, tree.isFile path) : Rewritten layout tree paths current where
  workingDirectory := h.workingDirectory
  inputs path hpath place hplace := by
    obtain ⟨other, hother, hlocate⟩ := exists_locate_eq_mem_inOrder hfile hpath
    exact h.inputs other hother place (hlocate.trans hplace)
  others place hplace := h.others place fun path hpath => hplace path (mem_of_mem_inOrder hpath)

/-- Whether a file succeeds does not depend on how its path is spelled. -/
theorem Succeeds.of_locate_eq {store : MetadataStore} {other : Text}
    (h : Succeeds store path (tree.read path)) (hl : tree.locate path = tree.locate other) :
    Succeeds store other (tree.read other) := by
  obtain ⟨source, y, hsource, hy⟩ := h
  obtain ⟨z, hz, -⟩ := process_renamed hy other
  exact ⟨source, z, read_eq_of_locate_eq hl ▸ hsource, hz⟩

/-- All files in order succeed if all files do. -/
theorem forall_inOrder_succeeds_iff {store : MetadataStore}
    (hfile : ∀ path ∈ paths, tree.isFile path) :
    (∀ path ∈ inOrder paths, Succeeds store path (tree.read path)) ↔
      ∀ path ∈ paths, Succeeds store path (tree.read path) := by
  refine ⟨fun h path hpath => ?_, fun h path hpath => h path (mem_of_mem_inOrder hpath)⟩
  obtain ⟨other, hother, hlocate⟩ := exists_locate_eq_mem_inOrder hfile hpath
  exact (h other hother).of_locate_eq hlocate

section Runs

variable {options : Options} (level : Option Text) (input : Content)

/-- What a run that goes well has processed: its files, or the standard input without any. -/
def AllSucceed (tree : FileTree) (options : Options) (input : Content) : Prop :=
  let store := (layoutOf tree options.metadata).store tree.read
  (∀ path ∈ inputs tree options.files, Succeeds store path (tree.read path)) ∧
    (options.files = [] → Succeeds store options.name input.read)

/-- A run without files goes well if the standard input does. -/
theorem allSucceed_iff_of_nil (hfiles : options.files = []) :
    AllSucceed tree options input ↔
      input.isAccepted ((layoutOf tree options.metadata).store tree.read) = true := by
  have hnil : inputs tree [] = [] := rfl
  simp [AllSucceed, hfiles, hnil, succeeds_iff]

/-- A run over files goes well if all of them do. -/
theorem allSucceed_iff_of_ne_nil (hfiles : options.files ≠ []) :
    AllSucceed tree options input ↔ ∀ path ∈ inOrder (inputs tree options.files),
      Succeeds ((layoutOf tree options.metadata).store tree.read) path (tree.read path) := by
  rw [forall_inOrder_succeeds_iff fun path => isFile_of_mem_inputs]
  simp [AllSucceed, hfiles]

/-- A run in place rewrites its inputs, and goes well if all of them do. -/
theorem rewritten_run (hmode : options.mode = some .inPlace)
    (hpatterns : ∀ argument ∈ options.files, IsFindable tree argument)
    (hs : ∀ path ∈ inputs tree options.files,
      IsSource (layoutOf tree options.metadata) tree path) :
    Rewritten (layoutOf tree options.metadata) tree (inputs tree options.files)
        (run FileAccess.ofTree options level (pure input) tree).2 ∧
      ((run FileAccess.ofTree options level (pure input) tree).1.status = 0 ↔
        AllSucceed tree options input) := by
  by_cases hfiles : options.files = []
  · obtain ⟨hnext, hstatus⟩ := run_input level input tree hfiles
    rw [hnext, hstatus, allSucceed_iff_of_nil input hfiles, hfiles]
    exact ⟨.nil _ _, Iff.rfl⟩
  · obtain ⟨log, hfound⟩ := allInputs_eq hpatterns
    obtain ⟨report, hsteps, hstatus⟩ := run_files level input hfiles hmode rfl hfound
    obtain ⟨hnext, habort, hok⟩ := hsteps.inPlace (.nil _ _) (by simp)
      fun path hpath => hs path (mem_of_mem_inOrder hpath)
    refine ⟨hnext.of_inOrder fun path => isFile_of_mem_inputs, ?_⟩
    rw [hstatus, allSucceed_iff_of_ne_nil input hfiles, hok]
    exact and_iff_left habort

/-- A run that checks leaves the tree as it is, and goes well if all inputs do. -/
theorem check_run (options : Options) (hmode : options.mode = some .check)
    (hpatterns : ∀ argument ∈ options.files, IsFindable tree argument) :
    (run FileAccess.ofTree options level (pure input) tree).2 = tree ∧
      ((run FileAccess.ofTree options level (pure input) tree).1.status = 0 ↔
        AllSucceed tree options input) := by
  by_cases hfiles : options.files = []
  · obtain ⟨hnext, hstatus⟩ := run_input level input tree hfiles
    exact ⟨hnext, hstatus.trans (allSucceed_iff_of_nil input hfiles).symm⟩
  · obtain ⟨log, hfound⟩ := allInputs_eq hpatterns
    obtain ⟨report, hsteps, hstatus⟩ := run_files level input hfiles hmode rfl hfound
    obtain ⟨habort, hnext, hok⟩ := hsteps.check
    refine ⟨hnext, ?_⟩
    rw [hstatus, allSucceed_iff_of_ne_nil input hfiles, hok]
    exact and_iff_left habort

/-- A run in place treats its files independently. For valid patterns, and if no input is
metadata, every input that is text and is processed holds the text that its original content is
processed to; every other input and every place that is no input's holds what it held. The status
is zero exactly if every input is text and is processed, and a run that only checks has the same
status and changes nothing. -/
theorem run_inPlace (tree : FileTree) (options : Options) (level : Option Text) (input : Content)
    (hmode : options.mode = some .inPlace)
    (hpatterns : ∀ argument ∈ options.files, IsFindable tree argument)
    (hmetadata : ∀ path ∈ inputs tree options.files, ∀ place, tree.locate path = .ok place →
      ¬ IsMetadata (layoutOf tree options.metadata) tree place) :
    let store := (layoutOf tree options.metadata).store tree.read
    let paths := inputs tree options.files
    let result := run FileAccess.ofTree options level (pure input) tree
    let checked :=
      run FileAccess.ofTree { options with mode := some .check } level (pure input) tree
    (∃ log, allInputs FileAccess.ofTree options.files tree = ((log, .ok paths), tree)) ∧
      (∀ path ∈ paths, ∀ source y, tree.read path = .ok source →
        process ⟨path, store, Schema.compile⟩ source = .ok y →
          result.2.read path = .ok y.text) ∧
      (∀ path ∈ paths, ¬ Succeeds store path (tree.read path) →
        result.2.entry path = tree.entry path) ∧
      (∀ place, (∀ path ∈ paths, tree.locate path ≠ .ok place) →
        result.2.at? place = tree.at? place) ∧
      (result.1.status = 0 ↔ (∀ path ∈ paths, Succeeds store path (tree.read path)) ∧
        (options.files = [] → Succeeds store options.name input.read)) ∧
      checked.1.status = result.1.status ∧ checked.2 = tree := by
  intro store paths result checked
  have hs : ∀ path ∈ paths, IsSource (layoutOf tree options.metadata) tree path :=
    fun path hpath => ⟨isFile_of_mem_inputs hpath, hmetadata path hpath⟩
  obtain ⟨hnext, hstatus⟩ := rewritten_run level input hmode hpatterns hs
  obtain ⟨hkept, hchecked⟩ :=
    check_run level input { options with mode := some .check } rfl hpatterns
  refine ⟨allInputs_eq hpatterns, ?_, ?_, hnext.others, hstatus, ?_, hkept⟩
  · intro path hpath source y hsource hy
    obtain ⟨place, hplace, hat⟩ := read_eq_ok_iff.1 hsource
    refine read_eq_ok_iff.2 ⟨place, hnext.sameDirectories.locate hplace, ?_⟩
    have hrewrite : rewrite? store source = some y.text :=
      (rewrite?_eq_some_iff path).2 ⟨y, hy, rfl⟩
    rw [hnext.inputs path hpath place hplace, hat]
    simp [Entry.rewritten, Content.rewritten, store, hrewrite]
  · intro path hpath hfails
    obtain ⟨place, content, hplace, hat⟩ := isFile_iff.1 (isFile_of_mem_inputs hpath)
    rw [read_eq_of_at? hplace hat, succeeds_iff, Bool.not_eq_true] at hfails
    have hentry : tree.entry path = .ok (.file content) := entry_eq_ok_iff.2 ⟨place, hplace, hat⟩
    rw [hentry, entry_eq_ok_iff]
    refine ⟨place, hnext.sameDirectories.locate hplace, ?_⟩
    rw [hnext.inputs path hpath place hplace, hat, Option.map_some, Entry.rewritten,
      Content.rewritten_eq_self hfails]
  · have hsame : checked.1.status = 0 ↔ result.1.status = 0 := hchecked.trans hstatus.symm
    have hresult : result.1.status ≤ 1 := status_run_le options level input tree
    have hcheck : checked.1.status ≤ 1 := status_run_le _ level input tree
    omega

/-- A source with a tag. -/
def taggedSource : Text := "package Count;\nsub up \x7b\n  my $n; # VALIDATE_ARG\n\x7d\n"

/-- A tree with metadata for a package above the working directory, and in that a source of the
package, a source of another package, and a file that is no text. -/
def mixedTree : FileTree where
  workingDirectory := ["home", "lib"]
  entries :=
    [(["home"], .directory), (["home", "lib"], .directory),
      (["home", "meta.json"], .file (.text ("\x7b\"Count\":\x7b\"up\":\x7b\"v\":1.1," ++
        "\"args\":\x7b\"n\":\x7b\"schema\":\"int\"\x7d\x7d\x7d\x7d\x7d"))),
      (["home", "lib", "a.pm"], .file (.text taggedSource)),
      (["home", "lib", "b.pm"], .file (.text "package Other;\n")),
      (["home", "lib", "c.pm"], .file (.bytes [255]))]

/-- Options to rewrite all of the sources in place, one of them under two spellings and one by its
absolute path. -/
def mixedOptions : Options where
  files := ["./a.pm", "/home/lib/b.pm", "c.pm", "a.pm"]
  metadata := "../meta.json"
  mode := some .inPlace
  name := "-"
  verbosity := 0
  quiet := false

/-- The source that is met twice gets its guard once, the other ones stay, and the status tells that
not all is well. -/
theorem run_inPlace_mixedTree :
    inputs mixedTree mixedOptions.files = mixedOptions.files ∧
      ∃ y, process ⟨"a.pm", (Metadata.Layout.file "../meta.json").store mixedTree.read,
          Schema.compile⟩ taggedSource = .ok y ∧ y.tags = 1 ∧
        let result := run FileAccess.ofTree mixedOptions none (pure (.text [])) mixedTree
        result.2.read "a.pm" = .ok y.text ∧
          result.2.entry "/home/lib/b.pm" = mixedTree.entry "/home/lib/b.pm" ∧
          result.2.entry "c.pm" = mixedTree.entry "c.pm" ∧ result.1.status ≠ 0 := by
  have hinputs : inputs mixedTree mixedOptions.files = mixedOptions.files := by decide +kernel
  have hlayout : layoutOf mixedTree mixedOptions.metadata = .file "../meta.json" := by
    decide +kernel
  have hpatterns : ∀ argument ∈ mixedOptions.files, IsFindable mixedTree argument := by
    have hfile : ∀ argument ∈ mixedOptions.files, mixedTree.isFile argument := by decide +kernel
    intro argument hargument hno
    simp [hfile argument hargument] at hno
  have hmetadata : ∀ path ∈ inputs mixedTree mixedOptions.files, ∀ place,
      mixedTree.locate path = .ok place →
        ¬ IsMetadata (layoutOf mixedTree mixedOptions.metadata) mixedTree place := by
    have hne : ∀ path ∈ mixedOptions.files,
        mixedTree.locate path ≠ mixedTree.locate "../meta.json" := by decide +kernel
    rw [hinputs, hlayout]
    rintro path hpath place hplace ⟨line, package, -, hlocate⟩
    exact hne path hpath (hplace.trans hlocate.symm)
  obtain ⟨-, hprocessed, hkept, -, hstatus, -⟩ :=
    run_inPlace mixedTree mixedOptions none (.text []) rfl hpatterns hmetadata
  rw [hinputs, hlayout] at hprocessed hkept hstatus
  have htags : ((process ⟨"a.pm", (Metadata.Layout.file "../meta.json").store mixedTree.read,
      Schema.compile⟩ taggedSource).toOption.map Yield.tags) = some 1 := by decide +kernel
  have hread : mixedTree.read "a.pm" = .ok taggedSource := by decide +kernel
  obtain ⟨y, hy, htags⟩ := exists_eq_ok_of_map_toOption htags
  have hother : ¬ Succeeds ((Metadata.Layout.file "../meta.json").store mixedTree.read)
      "/home/lib/b.pm" (mixedTree.read "/home/lib/b.pm") := by
    have hread :
        mixedTree.read "/home/lib/b.pm" = (Content.text "package Other;\n").read := by
      decide +kernel
    rw [hread, succeeds_iff]
    decide +kernel
  have hbytes : ¬ Succeeds ((Metadata.Layout.file "../meta.json").store mixedTree.read) "c.pm"
      (mixedTree.read "c.pm") := by
    have hread : mixedTree.read "c.pm" = (Content.bytes [255]).read := by decide +kernel
    rw [hread, succeeds_iff]
    decide
  refine ⟨hinputs, y, hy, htags, hprocessed "a.pm" (by decide) taggedSource y hread hy,
    hkept "/home/lib/b.pm" (by decide) hother, hkept "c.pm" (by decide) hbytes, fun hzero => ?_⟩
  exact hother ((hstatus.1 hzero).1 "/home/lib/b.pm" (by decide))

end Runs

end Batch

end ArgGuard
