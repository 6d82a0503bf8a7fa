import ArgGuard.Proofs.Program

/-!
# Guards on some of the arguments

A guard on all arguments checks them one by one, in declared order. Where the arguments are cut in
two, it is the guard on the first of them with the guard on the others behind it, and only the first
that has some code declares the error variable. So a guard fails for the first schema that does not
compile, and a declaration that exists already takes nothing but its own text from the code.
-/

namespace ArgGuard

namespace FunctionMetadata

/-- A function with only the first of its arguments. -/
def take (m : FunctionMetadata) (n : Nat) : FunctionMetadata :=
  { m with
    args := m.args.take n
    distinct := m.distinct.sublist ((List.take_sublist n m.args).map Prod.fst) }

/-- A function without the first of its arguments. -/
def drop (m : FunctionMetadata) (n : Nat) : FunctionMetadata :=
  { m with
    args := m.args.drop n
    distinct := m.distinct.sublist ((List.drop_sublist n m.args).map Prod.fst) }

end FunctionMetadata

namespace Guard

/-- A guard with another one behind it. -/
def append (first others : Guard) : Guard :=
  ⟨first.code ++ others.code, first.validated ++ others.validated⟩

/-- A guard with the declaration of the error variable in front of its code, if it has any. -/
def declaring (g : Guard) : Guard :=
  { g with code := if g.code = [] then [] else ("my " ++ errorHolder ++ "; " : Text) ++ g.code }

/-- The arguments of a function inside the variable that holds all of them. -/
def elementTargets (m : FunctionMetadata) (variableName : Text) : List Target :=
  m.args.map fun (argument, spec) => elementTarget m.packing variableName argument spec

/-- A tag for all arguments that can be honoured in a function. -/
structure Honours (m : FunctionMetadata) (tag : Tag) : Prop where
  /-- The metadata is of the version that is understood. -/
  version : m.hasSupportedVersion
  /-- The arguments can be addressed by name. -/
  packing : m.packing.isSupported
  /-- No argument is named. -/
  explicit : tag.explicit = none
  /-- The variable is of the kind that holds all arguments. -/
  sigil : tag.sigil = m.packing.aggregate

/-- Each schema of an argument compiles. -/
def Target.Compiles (compiler : SchemaCompiler) (t : Target) : Prop :=
  ∀ schema ∈ t.spec.schema, ∃ code, compiler (request t schema) = .ok code

/-- The error for the first of some arguments whose schema does not compile. -/
inductive FirstRefused (compiler : SchemaCompiler) : List Target → GuardError → Prop
  /-- An argument behind others with schemas that compile. -/
  | intro {before after : List Target} {t : Target} {schema : Json.Value} {error : CompileError}
      (hbefore : ∀ u ∈ before, u.Compiles compiler) (hschema : t.spec.schema = some schema)
      (herror : compiler (request t schema) = .error error) :
      FirstRefused compiler (before ++ t :: after) (.schema t.name error)

variable {compiler : SchemaCompiler} {function : Text} {m : FunctionMetadata} {tag : Tag}
  {declared : Bool} {exit : Exit} {g : Guard} {t : Target} {ts us : List Target}
  {error : GuardError}

section Checks

/-- An argument has checks if its schema compiles. -/
theorem exists_block_iff : (∃ own, block compiler t = .ok own) ↔ t.Compiles compiler := by
  unfold block Target.Compiles
  cases t.spec.schema with
  | none => simp
  | some schema => cases hcode : compiler (request t schema) <;> simp [hcode]

/-- An argument has no checks for the error of its schema. -/
theorem block_eq_error_iff :
    block compiler t = .error error ↔
      ∃ schema e, t.spec.schema = some schema ∧ compiler (request t schema) = .error e ∧
        error = .schema t.name e := by
  unfold block
  cases t.spec.schema with
  | none => simp
  | some schema => cases hcode : compiler (request t schema) <;> simp [hcode, eq_comm]

/-- The checks of arguments in order are those of the first ones and then those of the others. -/
theorem checks_append (compiler : SchemaCompiler) (ts us : List Target) :
    checks compiler (ts ++ us) = do
      let own ← checks compiler ts
      let others ← checks compiler us
      return own ++ others := by
  induction ts with
  | nil =>
    simp only [List.nil_append, checks]
    cases checks compiler us <;> rfl
  | cons t rest ih =>
    simp only [List.cons_append, checks, ih]
    cases block compiler t with
    | error e => rfl
    | ok first =>
      cases checks compiler rest with
      | error e => rfl
      | ok own =>
        cases checks compiler us with
        | error e => rfl
        | ok others => exact congrArg Except.ok (List.append_assoc first own others).symm

/-- Arguments whose schemas all compile have checks. -/
theorem exists_checks_of_compiles (h : ∀ t ∈ ts, t.Compiles compiler) :
    ∃ own, checks compiler ts = .ok own := by
  induction ts with
  | nil => exact ⟨[], rfl⟩
  | cons t rest ih =>
    obtain ⟨ht, hrest⟩ := List.forall_mem_cons.1 h
    obtain ⟨first, hfirst⟩ := exists_block_iff.2 ht
    obtain ⟨others, hothers⟩ := ih hrest
    exact ⟨first ++ others, checks_cons_eq_ok_iff.2 ⟨first, others, hfirst, hothers, rfl⟩⟩

/-- Arguments have no checks for the error of the first schema that does not compile. -/
theorem checks_of_firstRefused (h : FirstRefused compiler ts error) :
    checks compiler ts = .error error := by
  cases h with
  | @intro before after t schema e hbefore hschema herror =>
    obtain ⟨own, hown⟩ := exists_checks_of_compiles hbefore
    have ht : block compiler t = .error (.schema t.name e) :=
      block_eq_error_iff.2 ⟨schema, e, hschema, herror, rfl⟩
    rw [checks_append, hown, checks, ht]
    rfl

/-- The error for which arguments have no checks is that of the first schema that does not
compile. -/
theorem checks_eq_error_iff :
    checks compiler ts = .error error ↔ FirstRefused compiler ts error := by
  refine ⟨fun h => ?_, checks_of_firstRefused⟩
  by_cases hall : ∀ t ∈ ts, t.Compiles compiler
  · obtain ⟨own, hown⟩ := exists_checks_of_compiles hall
    rw [hown] at h
    cases h
  · obtain ⟨before, t, after, rfl, hbefore, ht⟩ := exists_first_of_not_forall hall
    cases hblock : block compiler t with
    | ok own => exact absurd (exists_block_iff.1 ⟨own, hblock⟩) ht
    | error first =>
      obtain ⟨schema, e, hschema, herror, rfl⟩ := block_eq_error_iff.1 hblock
      have hrefused : FirstRefused compiler (before ++ t :: after) (.schema t.name e) :=
        .intro hbefore hschema herror
      rw [checks_of_firstRefused hrefused] at h
      obtain rfl := Except.error.inj h
      exact hrefused

end Checks

section Opening

/-- Checks with others behind them are opened once: in front of the first that are there. -/
theorem opened_append (declared : Bool) (own others : List Statement) :
    opened declared (own ++ others) =
      opened declared own ++ opened (declared || !own.isEmpty) others := by
  cases declared <;> cases own <;> simp [opened]

/-- The rendering of checks is empty exactly if there are none. -/
theorem isEmpty_render_opened (exit : Exit) (declared : Bool) (own : List Statement) :
    (render exit (opened declared own)).isEmpty = own.isEmpty := by
  rw [Bool.eq_iff_iff, List.isEmpty_iff, List.isEmpty_iff, render_eq_nil_iff, opened_eq_nil_iff]

/-- The guard of arguments is that of the first ones with that of the others behind it. -/
theorem ofTargets_append (compiler : SchemaCompiler) (exit : Exit) (declared : Bool)
    (ts us : List Target) :
    ofTargets compiler exit declared (ts ++ us) = do
      let first ← ofTargets compiler exit declared ts
      let others ← ofTargets compiler exit (declared || !first.code.isEmpty) us
      return first.append others := by
  simp only [ofTargets_eq, checks_append]
  cases checks compiler ts with
  | error e => rfl
  | ok own =>
    simp only [Except.map, bind, Except.bind, isEmpty_render_opened]
    cases checks compiler us with
    | error e => rfl
    | ok others =>
      simp [append, pure, Except.pure, opened_append, render_append]

/-- Without a declaration, the code of a guard starts with one. -/
theorem ofTargets_false (compiler : SchemaCompiler) (exit : Exit) (ts : List Target) :
    ofTargets compiler exit false ts = (ofTargets compiler exit true ts).map declaring := by
  simp only [ofTargets_eq]
  cases checks compiler ts with
  | error e => rfl
  | ok own =>
    have hcode : render exit (opened false own) =
        if render exit own = [] then []
        else ("my " ++ errorHolder ++ "; " : Text) ++ render exit own := by
      cases own with
      | nil => rfl
      | cons first rest =>
        have hne : render exit (first :: rest) ≠ [] := fun h =>
          List.cons_ne_nil first rest (render_eq_nil_iff.1 h)
        rw [if_neg hne]
        rfl
    exact congrArg (fun code => Except.ok (Guard.mk code (ts.map Target.name))) hcode

/-- Without a declaration, the code for a tag starts with one. -/
theorem forTag_false (compiler : SchemaCompiler) (function : Text) (m : FunctionMetadata)
    (tag : Tag) :
    forTag compiler function m tag false = (forTag compiler function m tag true).map declaring := by
  rw [forTag_eq, forTag_eq]
  cases targets function m tag with
  | error e => rfl
  | ok ts => exact ofTargets_false compiler _ ts

end Opening

section All

/-- The first arguments and the others inside a variable are all of them. -/
theorem elementTargets_take_append_drop (m : FunctionMetadata) (variableName : Text) (n : Nat) :
    elementTargets (m.take n) variableName ++ elementTargets (m.drop n) variableName =
      elementTargets m variableName := by
  simp only [elementTargets, FunctionMetadata.take, FunctionMetadata.drop, ← List.map_append,
    List.take_append_drop]

/-- Whether a tag for all arguments can be honoured is told without the arguments. -/
theorem targets_of_same {m' : FunctionMetadata} (hversion : m'.version = m.version)
    (hpacking : m'.packing = m.packing) (hs : tag.scope = .all) (function : Text) :
    targets function m' tag = (targets function m tag).map fun _ => elementTargets m' tag.name := by
  unfold targets checkMetadata FunctionMetadata.hasSupportedVersion
  rw [hversion, hpacking, hs]
  by_cases hv : m.version = FunctionMetadata.supportedVersion
  · cases hp : m.packing.isSupported with
    | false => simp [hv, Except.map]
    | true =>
      cases hname : tag.explicit with
      | some name => simp [hv, Except.map]
      | none =>
        by_cases hsigil : tag.sigil = m.packing.aggregate <;>
          simp [hv, hsigil, Except.map, elementTargets, hpacking]
  · simp [hv, Except.map]

/-- A tag for all arguments that can be honoured asks to check all of them. -/
theorem targets_of_honours (h : Honours m tag) (hs : tag.scope = .all) (function : Text) :
    targets function m tag = .ok (elementTargets m tag.name) := by
  simp [targets, checkMetadata, h.version, h.packing, h.explicit, h.sigil, hs, elementTargets]

/-- What a tag for all arguments asks to check are the arguments inside its variable. -/
theorem eq_elementTargets (h : targets function m { tag with scope := .all } = .ok ts) :
    ts = elementTargets m tag.name :=
  @targets_all function m { tag with scope := .all } ts rfl h

/-- The guard on all arguments is that of the arguments that a tag for all of them asks for. -/
theorem all_eq (compiler : SchemaCompiler) (function : Text) (m : FunctionMetadata) (tag : Tag)
    (declared : Bool) :
    all compiler function m tag declared =
      (targets function m { tag with scope := .all }).bind
        (ofTargets compiler (.ofMetadata m) declared) := by
  rw [← forTag_all, forTag_eq]

/-- The guard on all arguments is that on the first of them with that on the others behind it. -/
theorem all_cut (compiler : SchemaCompiler) (function : Text) (m : FunctionMetadata) (tag : Tag)
    (declared : Bool) (n : Nat) :
    all compiler function m tag declared = do
      let first ← all compiler function (m.take n) tag declared
      let others ← all compiler function (m.drop n) tag (declared || !first.code.isEmpty)
      return first.append others := by
  -- Whether the tag is refused does not depend on the arguments: both parts refuse it or neither.
  have hscope : ({ tag with scope := .all } : Tag).scope = .all := rfl
  have htake := @targets_of_same m _ (m.take n) rfl rfl hscope function
  have hdrop := @targets_of_same m _ (m.drop n) rfl rfl hscope function
  simp only [all_eq, htake, hdrop]
  cases hts : targets function m { tag with scope := .all } with
  | error e => rfl
  | ok ts =>
    obtain rfl := eq_elementTargets hts
    rw [← elementTargets_take_append_drop m tag.name n]
    exact ofTargets_append compiler _ declared _ _

/-- A guard on all arguments is there whether or not the error variable is declared already. -/
theorem exists_all_iff (compiler : SchemaCompiler) (function : Text) (m : FunctionMetadata)
    (tag : Tag) (declared other : Bool) :
    (∃ g, all compiler function m tag declared = .ok g) ↔
      ∃ g, all compiler function m tag other = .ok g := by
  simp only [← forTag_all]
  constructor
  · rintro ⟨g, hg⟩
    obtain ⟨g', hg', -⟩ := forTag_redeclare hg other
    exact ⟨g', hg'⟩
  · rintro ⟨g, hg⟩
    obtain ⟨g', hg', -⟩ := forTag_redeclare hg declared
    exact ⟨g', hg'⟩

/-- The guard on all arguments is there exactly if that on the first of them and that on the others
are, wherever they are cut. -/
theorem exists_all_cut_iff (compiler : SchemaCompiler) (function : Text) (m : FunctionMetadata)
    (tag : Tag) (declared : Bool) (n : Nat) :
    (∃ g, all compiler function m tag declared = .ok g) ↔
      (∃ first, all compiler function (m.take n) tag declared = .ok first) ∧
        ∃ others, all compiler function (m.drop n) tag declared = .ok others := by
  rw [all_cut compiler function m tag declared n]
  simp only [bind_eq_ok_iff, pure_eq_ok_iff]
  constructor
  · rintro ⟨g, first, hfirst, others, hothers, -⟩
    exact ⟨⟨first, hfirst⟩, (exists_all_iff compiler function _ tag _ declared).1 ⟨others, hothers⟩⟩
  · rintro ⟨⟨first, hfirst⟩, hothers⟩
    obtain ⟨others, hothers⟩ :=
      (exists_all_iff compiler function _ tag _ (declared || !first.code.isEmpty)).1 hothers
    exact ⟨first.append others, first, hfirst, others, hothers, rfl⟩

/-- The error for which a tag that can be honoured gets no guard on all arguments is that of the
first schema that does not compile. -/
theorem all_eq_error_iff (h : Honours m tag) :
    all compiler function m tag declared = .error error ↔
      FirstRefused compiler (elementTargets m tag.name) error := by
  have hall : Honours m { tag with scope := .all } := ⟨h.version, h.packing, h.explicit, h.sigil⟩
  rw [← forTag_all, forTag_eq_error_iff, targets_of_honours hall rfl, ← checks_eq_error_iff]
  simp

/-- The guard on all arguments of a tag that can be honoured is made of blocks in declared order.
Wherever the arguments are cut in two, it is there exactly if the guards on both parts are, and it
is the first with the second behind it, where the second declares the error variable if that is not
done before. It checks every argument, or fails for the first schema that does not compile. For all
tags, on one argument as on all, an existing declaration takes its own text from the code and
nothing else. -/
theorem all_inOrder (h : Honours m tag) (compiler : SchemaCompiler) (function : Text)
    (declared : Bool) :
    (∀ n,
      ((∃ g, all compiler function m tag declared = .ok g) ↔
        (∃ first, all compiler function (m.take n) tag declared = .ok first) ∧
          ∃ others, all compiler function (m.drop n) tag declared = .ok others) ∧
      ∀ first others, all compiler function (m.take n) tag declared = .ok first →
        all compiler function (m.drop n) tag (declared || !first.code.isEmpty) = .ok others →
        all compiler function m tag declared =
          .ok ⟨first.code ++ others.code, first.validated ++ others.validated⟩) ∧
    (∀ g, all compiler function m tag declared = .ok g → g.validated = Dictionary.keys m.args) ∧
    (∀ error, all compiler function m tag declared = .error error ↔
      FirstRefused compiler (elementTargets m tag.name) error) ∧
    ∀ (m : FunctionMetadata) (tag : Tag),
      all compiler function m tag false = (all compiler function m tag true).map declaring ∧
      single compiler function m tag false =
        (single compiler function m tag true).map declaring := by
  refine ⟨fun n => ⟨exists_all_cut_iff compiler function m tag declared n, ?_⟩, fun g hg => ?_,
    fun error => all_eq_error_iff h, fun m tag => ⟨?_, ?_⟩⟩
  · intro first others hfirst hothers
    rw [all_cut compiler function m tag declared n]
    exact bind_eq_ok_iff.2 ⟨first, hfirst, bind_eq_ok_iff.2 ⟨others, hothers, rfl⟩⟩
  · rw [← forTag_all] at hg
    exact validated_of_all hg rfl
  · rw [← forTag_all, ← forTag_all, forTag_false]
  · rw [← forTag_single, ← forTag_single, forTag_false]

end All

/-- A function with an argument that nothing is asked of, two others, and two of unknown types. -/
def refusedFunction : FunctionMetadata where
  version := FunctionMetadata.supportedVersion
  args := [("note", {}), ("n", { schema := some (.string "int"), required := true }),
    ("k-1", { schema := some (.string "str") }), ("w", { schema := some (.string "widget") }),
    ("g", { schema := some (.string "gadget") })]

/-- The first three arguments have a guard, which is that of the first two with that of the third
behind it. All of them have none, for the type of the fourth. -/
theorem all_inOrder_refusedFunction :
    Honours refusedFunction countedTag ∧
    (∃ first others : Guard, first.code ≠ [] ∧ first.validated = ["note", "n"] ∧
      others.validated = ["k-1"] ∧
      all Schema.compile "up" (refusedFunction.take 3) countedTag false =
        .ok ⟨first.code ++ others.code, first.validated ++ others.validated⟩) ∧
    FirstRefused Schema.compile (elementTargets refusedFunction countedTag.name)
      (.schema "w" (.unknownType "widget")) := by
  have hwhole : Honours refusedFunction countedTag := ⟨by decide +kernel, rfl, rfl, rfl⟩
  have hfront : Honours (refusedFunction.take 3) countedTag := ⟨by decide +kernel, rfl, rfl, rfl⟩
  have herror : all Schema.compile "up" refusedFunction countedTag false =
      .error (.schema "w" (.unknownType "widget")) := by rfl
  have hfirst : ((all Schema.compile "up" ((refusedFunction.take 3).take 2) countedTag
      false).toOption.map fun g => (g.code.isEmpty, g.validated)) =
        some (false, [("note" : Text), "n"]) := by decide +kernel
  have hothers : ((all Schema.compile "up" ((refusedFunction.take 3).drop 2) countedTag
      true).toOption.map fun g => g.validated) = some [("k-1" : Text)] := by decide +kernel
  obtain ⟨first, hfirst, hparts⟩ := exists_eq_ok_of_map_toOption hfirst
  obtain ⟨others, hothers, hlast⟩ := exists_eq_ok_of_map_toOption hothers
  obtain ⟨hempty, hnames⟩ := Prod.mk.inj hparts
  have hdeclared : (false || !first.code.isEmpty) = true := by rw [hempty]; rfl
  have hboth := ((all_inOrder hfront Schema.compile "up" false).1 2).2 first others hfirst
    (hdeclared ▸ hothers)
  have hne : first.code ≠ [] := by simpa using hempty
  exact ⟨hwhole, ⟨first, others, hne, hnames, hlast, hboth⟩,
    ((all_inOrder hwhole Schema.compile "up" false).2.2.1 _).1 herror⟩

end Guard

end ArgGuard
