import ArgGuard.Proofs.Listings

/-!
# What is found in any order

A computation on files agrees with another one if, started on trees that hold the same, they give
related results and leave trees that hold the same. Agreement goes through sequences, so a glob
search finds the same paths however the directories are listed, and an argument stands for the same
files.
-/

namespace ArgGuard

namespace FileTree

variable {α β γ δ : Type} {R : α → β → Prop} {S : γ → δ → Prop} {x : StateM FileTree α}
  {y : StateM FileTree β} {tree other : FileTree}

/-- Computations that give related results on trees that hold the same, and leave such trees. -/
def Agree (R : α → β → Prop) (x : StateM FileTree α) (y : StateM FileTree β) : Prop :=
  ∀ ⦃tree other⦄, SameEntries tree other →
    R (x tree).1 (y other).1 ∧ SameEntries (x tree).2 (y other).2

/-- A computation that finds the same on trees that hold the same, in whatever order. -/
abbrev FindsSame (x : StateM FileTree (List α)) : Prop := Agree SameMembers x x

/-- Observations agree if their results are related. -/
theorem Observes.agree (hx : Observes x) (hy : Observes y)
    (h : ∀ tree other, SameEntries tree other → R (x tree).1 (y other).1) : Agree R x y := by
  intro tree other hsame
  refine ⟨h tree other hsame, ?_⟩
  rw [hx, hy]
  exact hsame

namespace Agree

/-- Related values agree. -/
theorem pure {a : α} {b : β} (h : R a b) : Agree R (Pure.pure a) (Pure.pure b) :=
  fun _ _ hsame => ⟨h, hsame⟩

/-- What agrees may be followed by what agrees on its results. -/
theorem bind {f : α → StateM FileTree γ} {g : β → StateM FileTree δ} (h : Agree R x y)
    (hf : ∀ a b, R a b → Agree S (f a) (g b)) : Agree S (x >>= f) (y >>= g) := by
  intro tree other hsame
  obtain ⟨hresult, hleft⟩ := h hsame
  exact hf _ _ hresult hleft

/-- What gives one result in both may be followed by what agrees for that. -/
theorem bind_eq {x y : StateM FileTree α} {f : α → StateM FileTree γ} {g : α → StateM FileTree δ}
    (h : Agree Eq x y) (hf : ∀ a, Agree S (f a) (g a)) : Agree S (x >>= f) (y >>= g) :=
  h.bind fun a _ hab => hab ▸ hf a

/-- What agrees in both cases agrees. -/
theorem ite {x' : StateM FileTree α} {y' : StateM FileTree β} (p : Prop) [Decidable p]
    (h : Agree R x y) (h' : Agree R x' y') :
    Agree R (if p then x else x') (if p then y else y') := by
  split
  next => exact h
  next => exact h'

end Agree

/-- It is seen alike whether a path leads to a file. -/
theorem agree_isFile (path : Text) :
    Agree Eq (FileAccess.ofTree.isFile path) (FileAccess.ofTree.isFile path) :=
  fun _ _ hsame => ⟨congrFun hsame.isFile path, hsame⟩

/-- It is seen alike whether a path leads to a directory. -/
theorem agree_isDirectory (path : Text) :
    Agree Eq (FileAccess.ofTree.isDirectory path) (FileAccess.ofTree.isDirectory path) :=
  fun _ _ hsame => ⟨congrFun hsame.isDirectory path, hsame⟩

/-- A directory is listed with the same names. -/
theorem agree_list (path : Text) :
    Agree (Alike Eq SameMembers) (FileAccess.ofTree.list path) (FileAccess.ofTree.list path) :=
  fun _ _ hsame => ⟨hsame.list path, hsame⟩

/-- Of the same paths the same ones are chosen as files. -/
theorem agree_filterM_isFile {paths others : List Text} (h : SameMembers paths others) :
    Agree SameMembers (paths.filterM FileAccess.ofTree.isFile)
      (others.filterM FileAccess.ofTree.isFile) := by
  intro tree other hsame
  rw [filterM_isFile, filterM_isFile, hsame.isFile]
  exact ⟨h.filter _, hsame⟩

/-- The same members are searched with the same findings, in whatever order they come. -/
theorem agree_mapM {f : α → StateM FileTree (List β)} (hf : ∀ a, Observes (f a))
    (h : ∀ a, FindsSame (f a)) {items others : List α}
    (hitems : SameMembers items others) :
    Agree (fun found others => SameMembers found.flatten others.flatten) (items.mapM f)
      (others.mapM f) := by
  refine (Observes.mapM hf).agree (Observes.mapM hf) fun tree other hsame => ?_
  rw [Observes.mapM_apply hf, Observes.mapM_apply hf, ← List.flatMap_def, ← List.flatMap_def]
  exact hitems.flatMap fun a => (h a hsame).1

end FileTree

namespace Glob

open FileTree

variable {directoriesOnly : Bool} {bound : Nat}

/-- Going on behind a directory finds the same if visiting does. -/
theorem agree_behind {path name : Text}
    (hvisit : ∀ piece rest,
      FindsSame (visit FileAccess.ofTree directoriesOnly bound piece rest path name))
    (rest : List (List Token)) {deeper deeper' found found' : List Text}
    (hdeeper : SameMembers deeper deeper') (hfound : SameMembers found found') :
    Agree SameMembers
      (match rest with
        | [] => pure found
        | next :: rest => do
          return (← visit FileAccess.ofTree directoriesOnly bound next rest path name) ++ deeper)
      (match rest with
        | [] => pure found'
        | next :: rest => do
          return (← visit FileAccess.ofTree directoriesOnly bound next rest path name) ++
            deeper') := by
  cases rest with
  | nil => exact .pure hfound
  | cons next rest => exact (hvisit next rest).bind fun _ _ hnear => .pure (hnear.append hdeeper)

/-- A search finds the same, however far it goes. -/
theorem agree_search (directoriesOnly : Bool) (bound : Nat) :
    (∀ pieces path, FindsSame (search FileAccess.ofTree directoriesOnly bound pieces path)) ∧
      ∀ piece rest path name,
        FindsSame (visit FileAccess.ofTree directoriesOnly bound piece rest path name) := by
  induction bound with
  | zero =>
    refine ⟨fun pieces path => ?_, fun piece rest path name => ?_⟩
    · rw [search]
      exact .pure (.refl [])
    · rw [visit]
      exact .pure (.refl [])
  | succ bound ih =>
    obtain ⟨hsearch, hvisit⟩ := ih
    obtain ⟨hlooks, hvisits⟩ := observes_search directoriesOnly bound
    refine ⟨fun pieces path => ?_, fun piece rest path name => ?_⟩
    · cases pieces with
      | nil =>
        rw [search]
        · exact (agree_isDirectory path).bind_eq fun _ =>
            .ite _ (.pure (.refl [])) (.pure (.refl [path]))
        · exact Nat.succ_ne_zero bound
      | cons piece rest =>
        rw [search]
        split
        next name _ =>
          have hnext (found : Bool) : FindsSame (if found then
              search FileAccess.ofTree directoriesOnly bound rest (below path name) else pure []) :=
            .ite _ (hsearch _ _) (.pure (.refl []))
          have hentry : Agree Eq
              ((· || ·) <$> FileAccess.ofTree.isFile (below path name) <*>
                FileAccess.ofTree.isDirectory (below path name))
              ((· || ·) <$> FileAccess.ofTree.isFile (below path name) <*>
                FileAccess.ofTree.isDirectory (below path name)) :=
            (agree_isFile _).bind_eq fun _ => (agree_isDirectory _).bind_eq fun _ => .pure rfl
          exact .ite _ ((agree_isDirectory path).bind_eq hnext) (hentry.bind_eq hnext)
        next =>
          refine (agree_list path).bind fun _ _ hlisted => ?_
          cases hlisted with
          | error => exact .pure (.refl [])
          | ok hnames =>
            refine (agree_mapM (fun _ => hvisits _ _ _ _) (fun _ => hvisit _ _ _ _) hnames).bind
              fun _ _ hinside => ?_
            exact (agree_mapM (fun _ => hlooks _ _) (fun _ => hsearch _ _) (.refl _)).bind
              fun _ _ hspecial => .pure (hinside.append hspecial)
    · have hhere (found : Bool) {deeper deeper' : List Text} (h : SameMembers deeper deeper') :
          SameMembers (if found then path :: deeper else [])
            (if found then path :: deeper' else []) := by
        split
        next => exact (SameMembers.refl [path]).append h
        next => exact .refl []
      have hbehind (found : Bool) {deeper deeper' : List Text} (h : SameMembers deeper deeper') :=
        agree_behind (fun piece rest => hvisit piece rest path name)
          (rest.dropWhile isRecursive) h (hhere found h)
      rw [visit]
      refine .ite _ ?_ (.ite _ (hsearch rest path) (.pure (.refl [])))
      refine (agree_isDirectory path).bind_eq fun found => .ite _ ?_ ?_
      · exact (hsearch _ _).bind fun _ _ hdeeper => hbehind found hdeeper
      · exact hbehind found (.refl [])

end Glob

namespace Batch

open FileTree

/-- The sources in a directory are the same. -/
theorem agree_sourcesIn (directory : Text) :
    Agree (Alike Eq SameMembers) (sourcesIn FileAccess.ofTree directory)
      (sourcesIn FileAccess.ofTree directory) := by
  rw [sourcesIn]
  refine (agree_list directory).bind fun _ _ hlisted => ?_
  cases hlisted with
  | error herror =>
    subst herror
    exact .pure (.error rfl)
  | ok hnames =>
    exact (agree_filterM_isFile ((hnames.map _).filter _)).bind fun _ _ hfound =>
      .pure (.ok hfound)

/-- The files that match a pattern are the same. -/
theorem agree_matchesOf (pattern : Text) :
    Agree (Alike Eq SameMembers) (matchesOf FileAccess.ofTree pattern)
      (matchesOf FileAccess.ofTree pattern) := by
  rw [matchesOf]
  cases Glob.Pattern.ofText pattern with
  | error error => exact .pure (.error rfl)
  | ok parsed =>
    have hsearch : FindsSame (parsed.search FileAccess.ofTree) := (Glob.agree_search _ _).1 _ _
    exact hsearch.bind fun _ _ hfound =>
      (agree_filterM_isFile hfound).bind fun _ _ hfiles => .pure (.ok hfiles)

/-- The files that an argument stands for are the same, and so is the reason if there are none to
be had. -/
theorem agree_inputsOf (argument : Text) :
    Agree (Alike Eq fun found others => SameMembers found.1 others.1)
      (inputsOf FileAccess.ofTree argument) (inputsOf FileAccess.ofTree argument) := by
  rw [inputsOf]
  refine (agree_isFile argument).bind_eq fun _ => .ite _ (.pure (.ok (.refl [argument]))) ?_
  refine (agree_isDirectory argument).bind_eq fun _ => .ite _ ?_ ?_
  · exact (agree_sourcesIn argument).bind fun _ _ hfound => .pure (hfound.map fun _ _ h => h)
  · exact (agree_matchesOf argument).bind fun _ _ hfound => .pure (hfound.map fun _ _ h => h)

variable {tree other : FileTree} {argument : Text} {arguments others : List Text}
  {found found' : Except Abort (List Text)}

/-- The files that an argument stands for in a tree. -/
def inputsIn (tree : FileTree) (argument : Text) : Except Abort (List Text) :=
  (inputsOf FileAccess.ofTree argument tree).1.map Prod.fst

/-- An argument stands for the same files in trees that hold the same. -/
theorem alike_inputsIn (h : SameEntries tree other) (argument : Text) :
    Alike Eq SameMembers (inputsIn tree argument) (inputsIn other argument) :=
  (agree_inputsOf argument h).1.map fun _ _ hfound => hfound

/-- An argument stands for nothing for the same reason in trees that hold the same. -/
theorem inputsIn_eq_error_iff (h : SameEntries tree other) {abort : Abort} :
    inputsIn tree argument = .error abort ↔ inputsIn other argument = .error abort := by
  have halike := alike_inputsIn h argument
  generalize inputsIn tree argument = found, inputsIn other argument = found' at halike
  cases halike with
  | error herror => rw [herror]
  | ok => simp

/-- A file is one that an argument stands for. -/
def IsInput (tree : FileTree) (argument path : Text) : Prop :=
  ∃ found, inputsIn tree argument = .ok found ∧ path ∈ found

/-- A file is an input in trees that hold the same. -/
theorem isInput_iff (h : SameEntries tree other) {path : Text} :
    IsInput tree argument path ↔ IsInput other argument path := by
  have halike := alike_inputsIn h argument
  unfold IsInput
  generalize inputsIn tree argument = found, inputsIn other argument = found' at halike
  cases halike with
  | error => simp
  | ok hmembers => simpa using hmembers path

/-- What arguments stand for together, in whatever order they are given. -/
inductive Gathers (tree : FileTree) (arguments : List Text) : Except Abort (List Text) → Prop
  /-- One of them stands for nothing that can be had. -/
  | missing {argument : Text} {abort last : Abort} (h : argument ∈ arguments)
      (hm : inputsIn tree argument = .error abort) : Gathers tree arguments (.error last)
  /-- Each of them stands for some files, and these are all there are. -/
  | found {paths : List Text}
      (h : ∀ argument ∈ arguments, ∃ found, inputsIn tree argument = .ok found)
      (hp : ∀ path, path ∈ paths ↔ ∃ argument ∈ arguments, IsInput tree argument path) :
      Gathers tree arguments (.ok paths)

namespace Gathers

/-- An argument that stands for some files is put in front of others. -/
theorem cons {first : List Text} (hf : inputsIn tree argument = .ok first)
    (h : Gathers tree arguments found) :
    Gathers tree (argument :: arguments) (found.map (first ++ ·)) := by
  cases h with
  | missing hmem hm => exact .missing (List.mem_cons_of_mem _ hmem) hm
  | found hall hp =>
    refine .found (List.forall_mem_cons.2 ⟨⟨first, hf⟩, hall⟩) fun path => ?_
    simp [hp, hf, IsInput]

/-- The same arguments in another order, on a tree that holds the same, stand for the same. -/
theorem alike (hsame : SameEntries tree other) (harguments : SameMembers arguments others)
    (h : Gathers tree arguments found) (h' : Gathers other others found') :
    Alike (fun _ _ => True) SameMembers found found' := by
  cases h with
  | missing hmem hm =>
    cases h' with
    | missing => exact .error trivial
    | found hall' =>
      obtain ⟨paths, hpaths⟩ := hall' _ ((harguments _).1 hmem)
      rw [(inputsIn_eq_error_iff hsame).1 hm] at hpaths
      nomatch hpaths
  | found hall hp =>
    cases h' with
    | missing hmem' hm' =>
      obtain ⟨paths, hpaths⟩ := hall _ ((harguments _).2 hmem')
      rw [(inputsIn_eq_error_iff hsame).2 hm'] at hpaths
      nomatch hpaths
    | found _ hp' =>
      refine .ok fun path => ?_
      simp only [hp, hp', harguments _, isInput_iff hsame]

end Gathers

/-- Arguments stand for what they stand for together. -/
theorem gathers_allInputs (tree : FileTree) (arguments : List Text) :
    Gathers tree arguments (allInputs FileAccess.ofTree arguments tree).1.2 := by
  induction arguments with
  | nil => exact .found (by simp) (by simp)
  | cons argument rest ih =>
    obtain ⟨first, hfirst, -⟩ := finds_inputsOf tree argument
    obtain ⟨log, others, hothers, -⟩ := finds_allInputs tree rest
    rw [hothers] at ih
    rw [allInputs, bind_apply, hfirst]
    cases first with
    | error abort =>
      exact .missing List.mem_cons_self (by rw [inputsIn, hfirst]; rfl)
    | ok first =>
      obtain ⟨found, firstLog⟩ := first
      dsimp only
      rw [bind_apply, hothers]
      exact ih.cons (by rw [inputsIn, hfirst]; rfl)

/-- The same arguments in another order stand for the same files, on trees that hold the same. -/
theorem agree_allInputs (h : SameMembers arguments others) :
    Agree (fun found found' => Alike (fun _ _ => True) SameMembers found.2 found'.2)
      (allInputs FileAccess.ofTree arguments) (allInputs FileAccess.ofTree others) := by
  have hobserves (arguments : List Text) : Observes (allInputs FileAccess.ofTree arguments) := by
    intro tree
    obtain ⟨log, found, hfound, -⟩ := finds_allInputs tree arguments
    rw [hfound]
  exact (hobserves arguments).agree (hobserves others) fun tree other hsame =>
    (gathers_allInputs tree arguments).alike hsame h (gathers_allInputs other others)

end Batch

end ArgGuard
