import ArgGuard.Batch.Run
import ArgGuard.Proofs.Places

/-!
# Looking at files

The inputs of a batch are found by looking only: whatever the arguments are, the tree stays as it
is. What is found is a file, and an argument fails only if it is a pattern that cannot be read.
-/

namespace ArgGuard

namespace FileTree

variable {α β : Type} {x : StateM FileTree α} {f : α → StateM FileTree β} {tree : FileTree}

/-- A computation that leaves every tree as it is. -/
def Observes (x : StateM FileTree α) : Prop := ∀ tree, (x tree).2 = tree

/-- A sequence goes on with the result of its first step and the tree behind it. -/
theorem bind_apply (x : StateM FileTree α) (f : α → StateM FileTree β) (tree : FileTree) :
    (x >>= f) tree = f (x tree).1 (x tree).2 := rfl

namespace Observes

/-- A computation whose trees are given is an observation if they are what they were. -/
theorem of_eq {r : FileTree → α} (h : ∀ tree, x tree = (r tree, tree)) : Observes x := by
  intro tree
  rw [h]

/-- Nothing is looked at. -/
theorem pure (a : α) : Observes (Pure.pure a) := fun _ => rfl

/-- Observations one after the other. -/
theorem bind (hx : Observes x) (hf : ∀ a, Observes (f a)) : Observes (x >>= f) := by
  intro tree
  change (f (x tree).1 (x tree).2).2 = tree
  rw [hf, hx]

/-- The result of an observation may be turned into another one. -/
theorem map (hx : Observes x) (g : α → β) : Observes (g <$> x) := fun tree => hx tree

/-- Results of observations may be put together. -/
theorem seq {g : StateM FileTree (α → β)} (hg : Observes g) (hx : Observes x) :
    Observes (g <*> x) := by
  intro tree
  change (x (g tree).2).2 = tree
  rw [hx, hg]

/-- An observation that depends on something known. -/
theorem ite {y : StateM FileTree α} (p : Prop) [Decidable p] (hx : Observes x) (hy : Observes y) :
    Observes (if p then x else y) := by
  split
  next => exact hx
  next => exact hy

/-- Observations for the members of a list are all made on the same tree. -/
theorem mapM_apply (h : ∀ a, Observes (f a)) (items : List α) (tree : FileTree) :
    items.mapM f tree = (items.map fun a => (f a tree).1, tree) := by
  induction items with
  | nil => rfl
  | cons a rest ih =>
    rw [List.mapM_cons, bind_apply, h a tree, bind_apply, ih]
    rfl

/-- Observations for the members of a list. -/
theorem mapM {items : List α} (h : ∀ a, Observes (f a)) : Observes (items.mapM f) :=
  of_eq (mapM_apply h items)

end Observes

/-- It is looked whether a path leads to a file. -/
theorem ofTree_isFile (path : Text) (tree : FileTree) :
    FileAccess.ofTree.isFile path tree = (tree.isFile path, tree) := rfl

/-- It is looked whether a path leads to a directory. -/
theorem ofTree_isDirectory (path : Text) (tree : FileTree) :
    FileAccess.ofTree.isDirectory path tree = (tree.isDirectory path, tree) := rfl

/-- It is looked what a directory holds. -/
theorem ofTree_list (path : Text) (tree : FileTree) :
    FileAccess.ofTree.list path tree = (tree.list path, tree) := rfl

/-- Of paths those that lead to files are chosen by looking at each of them. -/
theorem filterM_isFile (paths : List Text) (tree : FileTree) :
    paths.filterM FileAccess.ofTree.isFile tree = (paths.filter tree.isFile, tree) := by
  have hloop (found : List Text) :
      List.filterAuxM FileAccess.ofTree.isFile paths found tree =
        ((paths.filter tree.isFile).reverse ++ found, tree) := by
    induction paths generalizing found with
    | nil => rfl
    | cons path rest ih =>
      change List.filterAuxM FileAccess.ofTree.isFile rest
        (cond (tree.isFile path) (path :: found) found) tree = _
      rw [ih]
      cases h : tree.isFile path <;> simp [h]
  change ((List.filterAuxM FileAccess.ofTree.isFile paths [] tree).1.reverse, _) = _
  rw [hloop, List.append_nil, List.reverse_reverse]

end FileTree

namespace Glob

open FileTree

/-- Going on behind a directory only looks where visiting does. -/
theorem observes_behind {directoriesOnly : Bool} {bound : Nat} {path name : Text}
    (hvisit : ∀ piece rest,
      Observes (visit FileAccess.ofTree directoriesOnly bound piece rest path name))
    (rest : List (List Token)) (deeper found : List Text) :
    Observes (match rest with
      | [] => pure found
      | next :: rest => do
        return (← visit FileAccess.ofTree directoriesOnly bound next rest path name) ++
          deeper) := by
  cases rest with
  | nil => exact .pure found
  | cons next rest => exact (hvisit next rest).bind fun _ => .pure _

/-- A search only looks, however far it goes. -/
theorem observes_search (directoriesOnly : Bool) (bound : Nat) :
    (∀ pieces path, Observes (search FileAccess.ofTree directoriesOnly bound pieces path)) ∧
      ∀ piece rest path name,
        Observes (visit FileAccess.ofTree directoriesOnly bound piece rest path name) := by
  induction bound with
  | zero =>
    refine ⟨fun pieces path => ?_, fun piece rest path name => ?_⟩
    · rw [search]
      exact .pure []
    · rw [visit]
      exact .pure []
  | succ bound ih =>
    obtain ⟨hsearch, hvisit⟩ := ih
    refine ⟨fun pieces path => ?_, fun piece rest path name => ?_⟩
    · cases pieces with
      | nil =>
        rw [search]
        · exact (Observes.of_eq (ofTree_isDirectory path)).bind fun _ =>
            .ite _ (.pure []) (.pure [path])
        · exact Nat.succ_ne_zero bound
      | cons piece rest =>
        rw [search]
        split
        next name _ =>
          have hnext (found : Bool) : Observes (if found then
              search FileAccess.ofTree directoriesOnly bound rest (below path name) else pure []) :=
            .ite _ (hsearch _ _) (.pure [])
          have hentry := ((Observes.of_eq (ofTree_isFile (below path name))).map (· || ·)).seq
            (Observes.of_eq (ofTree_isDirectory (below path name)))
          exact .ite _ ((Observes.of_eq (ofTree_isDirectory path)).bind hnext) (hentry.bind hnext)
        next =>
          refine (Observes.of_eq (ofTree_list path)).bind fun listed => ?_
          cases listed with
          | error error => exact .pure []
          | ok names =>
            exact (Observes.mapM fun name => hvisit _ _ _ _).bind fun inside =>
              (Observes.mapM fun name => hsearch _ _).bind fun special => .pure _
    · have hbehind := observes_behind fun piece rest =>
        hvisit piece rest path name
      rw [visit]
      refine .ite _ ?_ (.ite _ (hsearch rest path) (.pure []))
      refine (Observes.of_eq (ofTree_isDirectory path)).bind fun found => .ite _ ?_ ?_
      · exact (hsearch (piece :: rest.dropWhile isRecursive) path).bind fun _ => hbehind _ _ _
      · exact hbehind _ _ _

end Glob

namespace Batch

open FileTree

variable {tree : FileTree}

/-- What the search for files may give: files of the tree, and something whenever they can be
found. -/
structure Finds (tree : FileTree) (findable : Prop) (found : Except Abort (List Text)) : Prop where
  /-- Whatever is found is a file. -/
  isFile : ∀ paths, found = .ok paths → ∀ path ∈ paths, tree.isFile path
  /-- The search fails for a reason only. -/
  succeeds : findable → ∃ paths, found = .ok paths

/-- Chosen files are files. -/
theorem Finds.of_filter (findable : Prop) (paths : List Text) :
    Finds tree findable (.ok (paths.filter tree.isFile)) where
  isFile found h path hpath := by
    obtain rfl := Except.ok.inj h
    exact (List.mem_filter.1 hpath).2
  succeeds _ := ⟨_, rfl⟩

/-- A search that fails needs a reason. -/
theorem Finds.of_error {findable : Prop} (h : ¬ findable) (abort : Abort) :
    Finds tree findable (.error abort) :=
  ⟨by simp, fun hf => absurd hf h⟩

/-- The sources in a directory are found by looking. -/
theorem finds_sourcesIn (tree : FileTree) (directory : Text) :
    ∃ found, sourcesIn FileAccess.ofTree directory tree = (found, tree) ∧
      Finds tree (tree.isDirectory directory) found := by
  rw [sourcesIn, bind_apply, ofTree_list]
  cases hlist : tree.list directory with
  | error error =>
    refine ⟨_, rfl, .of_error (fun hdirectory => ?_) _⟩
    obtain ⟨names, hnames⟩ := exists_list_of_isDirectory hdirectory
    simp [hlist] at hnames
  | ok names =>
    dsimp only
    rw [bind_apply, filterM_isFile]
    exact ⟨_, rfl, .of_filter _ _⟩

/-- The matches of a pattern are found by looking. -/
theorem finds_matchesOf (tree : FileTree) (pattern : Text) :
    ∃ found, matchesOf FileAccess.ofTree pattern tree = (found, tree) ∧
      Finds tree (∃ parsed, Glob.Pattern.ofText pattern = .ok parsed) found := by
  rw [matchesOf]
  cases hparsed : Glob.Pattern.ofText pattern with
  | error error => exact ⟨_, rfl, .of_error (by simp) _⟩
  | ok parsed =>
    have hsearch : Observes (parsed.search FileAccess.ofTree) :=
      (Glob.observes_search _ _).1 _ _
    dsimp only
    rw [bind_apply, hsearch tree, bind_apply, filterM_isFile]
    exact ⟨_, rfl, .of_filter _ _⟩

/-- An argument that is no path to a file or a directory must be a pattern that can be read. -/
def IsFindable (tree : FileTree) (argument : Text) : Prop :=
  tree.isFile argument = false → tree.isDirectory argument = false →
    ∃ pattern, Glob.Pattern.ofText argument = .ok pattern

/-- A search stays one when what it may depend on gets more. -/
theorem Finds.mono {findable other : Prop} {found : Except Abort (List Text)}
    (h : Finds tree findable found) (himp : other → findable) : Finds tree other found :=
  ⟨h.isFile, fun hother => h.succeeds (himp hother)⟩

/-- What is found for one argument comes in front of what is found for others. -/
theorem Finds.append {findable others : Prop} {first : List Text}
    {found : Except Abort (List Text)} (hf : Finds tree findable (.ok first))
    (ho : Finds tree others found) :
    Finds tree (findable ∧ others) (found.map (first ++ ·)) := by
  cases found with
  | error abort =>
    refine .of_error (fun h => ?_) abort
    obtain ⟨_, hok⟩ := ho.succeeds h.2
    simp at hok
  | ok paths =>
    refine ⟨fun all hall path hpath => ?_, fun _ => ⟨_, rfl⟩⟩
    obtain rfl := Except.ok.inj hall
    rcases List.mem_append.1 hpath with hpath | hpath
    · exact hf.isFile first rfl path hpath
    · exact ho.isFile paths rfl path hpath

/-- What is put beside a result may be left out again. -/
theorem map_fst_map {ε α β : Type} (r : Except ε α) (f : α → β) :
    (r.map fun a => (a, f a)).map Prod.fst = r := by
  cases r <;> rfl

/-- The files that an argument stands for are found by looking. -/
theorem finds_inputsOf (tree : FileTree) (argument : Text) :
    ∃ found : Except Abort (List Text × List LogLine),
      inputsOf FileAccess.ofTree argument tree = (found, tree) ∧
        Finds tree (IsFindable tree argument) (found.map Prod.fst) := by
  rw [inputsOf, bind_apply, ofTree_isFile]
  cases hfile : tree.isFile argument with
  | true =>
    refine ⟨.ok ([argument], []), rfl, ?_, fun _ => ⟨_, rfl⟩⟩
    intro found hfound path hpath
    obtain rfl := Except.ok.inj hfound
    obtain rfl := List.mem_singleton.1 hpath
    exact hfile
  | false =>
    dsimp only
    rw [if_neg Bool.false_ne_true, bind_apply, ofTree_isDirectory]
    cases hdirectory : tree.isDirectory argument with
    | true =>
      obtain ⟨found, hfound, hfinds⟩ := finds_sourcesIn tree argument
      dsimp only
      rw [if_pos rfl, bind_apply, hfound]
      refine ⟨_, rfl, ?_⟩
      rw [map_fst_map]
      exact hfinds.mono fun _ => hdirectory
    | false =>
      obtain ⟨found, hfound, hfinds⟩ := finds_matchesOf tree argument
      dsimp only
      rw [if_neg Bool.false_ne_true, bind_apply, hfound]
      refine ⟨_, rfl, ?_⟩
      rw [map_fst_map]
      exact hfinds.mono fun h => h hfile hdirectory

/-- The files that arguments stand for are found by looking. -/
theorem finds_allInputs (tree : FileTree) (arguments : List Text) :
    ∃ log found, allInputs FileAccess.ofTree arguments tree = ((log, found), tree) ∧
      Finds tree (∀ argument ∈ arguments, IsFindable tree argument) found := by
  induction arguments with
  | nil => exact ⟨[], .ok [], rfl, by simp, fun _ => ⟨[], rfl⟩⟩
  | cons argument rest ih =>
    obtain ⟨first, hfirst, hfinds⟩ := finds_inputsOf tree argument
    obtain ⟨log, others, hothers, hrest⟩ := ih
    rw [allInputs, bind_apply, hfirst]
    cases first with
    | error abort =>
      refine ⟨[], .error abort, rfl, by simp, fun hall => ?_⟩
      obtain ⟨_, hok⟩ := hfinds.succeeds (hall argument List.mem_cons_self)
      simp [Except.map] at hok
    | ok first =>
      obtain ⟨found, firstLog⟩ := first
      dsimp only
      rw [bind_apply, hothers]
      refine ⟨_, _, rfl, (Finds.append hfinds hrest).mono fun hall => ?_⟩
      obtain ⟨hargument, hothers⟩ := List.forall_mem_cons.1 hall
      exact ⟨hargument, hothers⟩

end Batch

end ArgGuard
