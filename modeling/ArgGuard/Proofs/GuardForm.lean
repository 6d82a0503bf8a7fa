import ArgGuard.Guard
import ArgGuard.Proofs.Sequences

/-!
# The form of guards

A tag asks for the checks of some arguments, whatever else its function declares. The guard is
these checks on one line, with the declaration of the error variable in front of them where it
is still missing. So neither success nor the checked arguments depend on that declaration, and
code that is not empty ends with the closing brace of a check.
-/

namespace ArgGuard

namespace Guard

/-- The guard that a tag asks for in a function. -/
def forTag (compiler : SchemaCompiler) (function : Text) (m : FunctionMetadata) (tag : Tag)
    (declared : Bool) : Except GuardError Guard :=
  match tag.scope with
  | .single => single compiler function m tag declared
  | .all => all compiler function m tag declared

/-- The guard on one argument is what a tag for one argument asks for. -/
theorem forTag_single (compiler : SchemaCompiler) (function : Text) (m : FunctionMetadata)
    (tag : Tag) (declared : Bool) :
    forTag compiler function m { tag with scope := .single } declared =
      single compiler function m tag declared := rfl

/-- The guard on all arguments is what a tag for all of them asks for. -/
theorem forTag_all (compiler : SchemaCompiler) (function : Text) (m : FunctionMetadata)
    (tag : Tag) (declared : Bool) :
    forTag compiler function m { tag with scope := .all } declared =
      all compiler function m tag declared := rfl

/-- The arguments that a tag asks to check. -/
def targets (function : Text) (m : FunctionMetadata) (tag : Tag) :
    Except GuardError (List Target) :=
  match checkMetadata function m with
  | .error error => .error error
  | .ok () =>
    match tag.scope with
    | .single =>
      if tag.sigil ≠ .scalar then .error (.wrongVariable .single .scalar tag.declared)
      else
        match m.args.get? tag.argumentName with
        | none => .error (.unknownArgument function tag.argumentName)
        | some spec =>
          if spec.schema.isNone then .error (.missingSchema function tag.argumentName)
          else .ok [boundTarget tag.name tag.argumentName spec]
    | .all =>
      match tag.explicit with
      | some name => .error (.explicitNameOnAll name)
      | none =>
        if tag.sigil ≠ m.packing.aggregate then
          .error (.wrongVariable .all m.packing.aggregate tag.declared)
        else
          .ok (m.args.map fun (argument, spec) => elementTarget m.packing tag.name argument spec)

/-- A check leaves the function with its message under its condition. -/
theorem text_leaveIf (exit : Exit) (condition message : Text) :
    (Statement.leaveIf condition message).text exit =
      "if (" ++ condition ++ ") \x7b " ++ exit.leave message ++ " \x7d" := rfl

/-- The checks of an argument are the one for its presence and those of some code for its schema,
which may be empty. -/
theorem eq_of_block {compiler : SchemaCompiler} {t : Target} {own : List Statement}
    (h : block compiler t = .ok own) :
    ∃ code, own = presence t ++ conformance t (Text.squash code) := by
  unfold block at h
  cases hs : t.spec.schema with
  | none =>
    rw [hs] at h
    have hempty : conformance t (Text.squash []) = [] := rfl
    exact ⟨[], by rw [hempty, List.append_nil, Except.ok.inj h]⟩
  | some schema =>
    rw [hs] at h
    cases hcode : compiler (request t schema) with
    | error e => simp [hcode] at h
    | ok code =>
      simp only [hcode] at h
      exact ⟨code, (Except.ok.inj h).symm⟩

/-- The checks of arguments in order, without the declaration of the error variable. -/
def checks (compiler : SchemaCompiler) : List Target → Except GuardError (List Statement)
  | [] => .ok []
  | t :: rest => do
    let own ← block compiler t
    let others ← checks compiler rest
    return own ++ others

/-- The checks of an argument come in front of those of the others. -/
theorem checks_cons_eq_ok_iff {compiler : SchemaCompiler} {t : Target} {rest : List Target}
    {own : List Statement} :
    checks compiler (t :: rest) = .ok own ↔
      ∃ first others, block compiler t = .ok first ∧ checks compiler rest = .ok others ∧
        own = first ++ others := by
  simp only [checks, bind_eq_ok_iff, pure_eq_ok_iff, eq_comm (a := own)]
  simp only [exists_and_left]

/-- Checks with the declaration of the error variable in front, unless there are none or the
variable is declared already. -/
def opened (declared : Bool) (statements : List Statement) : List Statement :=
  if declared || statements.isEmpty then statements else .declareHolder :: statements

/-- The declaration comes in front of all checks, however late the first of them comes. -/
theorem blocks_eq (compiler : SchemaCompiler) (declared : Bool) (ts : List Target) :
    blocks compiler declared ts = (checks compiler ts).map (opened declared) := by
  induction ts generalizing declared with
  | nil => cases declared <;> rfl
  | cons t rest ih =>
    simp only [blocks, checks, ih]
    cases block compiler t with
    | error e => rfl
    | ok own =>
      cases checks compiler rest with
      | error e => rfl
      | ok others =>
        cases own <;> cases declared <;> cases others <;>
          simp [opened, bind, Except.bind, pure, Except.pure, Except.map]

/-- The guard of arguments is their checks on one line. -/
theorem ofTargets_eq (compiler : SchemaCompiler) (exit : Exit) (declared : Bool)
    (ts : List Target) :
    ofTargets compiler exit declared ts =
      (checks compiler ts).map fun own =>
        ⟨render exit (opened declared own), ts.map Target.name⟩ := by
  rw [ofTargets, blocks_eq]
  cases checks compiler ts <;> rfl

/-- A tag gets the guard of the arguments that it asks to check. -/
theorem forTag_eq (compiler : SchemaCompiler) (function : Text) (m : FunctionMetadata)
    (tag : Tag) (declared : Bool) :
    forTag compiler function m tag declared =
      (targets function m tag).bind (ofTargets compiler (.ofMetadata m) declared) := by
  unfold forTag targets single all
  cases checkMetadata function m with
  | error e => cases tag.scope <;> rfl
  | ok u =>
    cases tag.scope with
    | single =>
      by_cases hsigil : tag.sigil = .scalar
      · cases hspec : m.args.get? tag.argumentName with
        | none => simp [hsigil, hspec, bind, Except.bind, throw, throwThe, MonadExceptOf.throw]
        | some spec =>
          by_cases hschema : spec.schema.isNone <;>
            simp [hsigil, hspec, hschema, bind, Except.bind, throw, throwThe, MonadExceptOf.throw]
      · simp [hsigil, bind, Except.bind, throw, throwThe, MonadExceptOf.throw]
    | all =>
      cases hname : tag.explicit with
      | some name => simp [bind, Except.bind, throw, throwThe, MonadExceptOf.throw]
      | none =>
        by_cases hsigil : tag.sigil = m.packing.aggregate <;>
          simp [hsigil, bind, Except.bind, throw, throwThe, MonadExceptOf.throw]

/-- A guard is the checks of the arguments that its tag asks for, whether or not the error
variable is declared already. -/
theorem forTag_eq_ok_iff {compiler : SchemaCompiler} {function : Text} {m : FunctionMetadata}
    {tag : Tag} {declared : Bool} {g : Guard} :
    forTag compiler function m tag declared = .ok g ↔
      ∃ ts own, targets function m tag = .ok ts ∧ checks compiler ts = .ok own ∧
        g = ⟨render (.ofMetadata m) (opened declared own), ts.map Target.name⟩ := by
  rw [forTag_eq]
  cases targets function m tag with
  | error e => simp [Except.bind]
  | ok ts =>
    simp only [Except.bind, ofTargets_eq]
    cases hown : checks compiler ts with
    | error e => simp [Except.map, hown]
    | ok own => simp [Except.map, hown, eq_comm]

/-- A tag gets no guard if it asks for arguments that cannot be checked, or if one of their schemas
does not compile. Whether the error variable is declared already does not matter. -/
theorem forTag_eq_error_iff {compiler : SchemaCompiler} {function : Text} {m : FunctionMetadata}
    {tag : Tag} {declared : Bool} {error : GuardError} :
    forTag compiler function m tag declared = .error error ↔
      targets function m tag = .error error ∨
        ∃ ts, targets function m tag = .ok ts ∧ checks compiler ts = .error error := by
  rw [forTag_eq]
  cases targets function m tag with
  | error e => simp [Except.bind]
  | ok ts =>
    simp only [Except.bind, ofTargets_eq]
    cases hown : checks compiler ts with
    | error e => simp [Except.map, hown]
    | ok own => simp [Except.map, hown]

/-- The rendering of statements one after the other. -/
theorem render_append (exit : Exit) (first others : List Statement) :
    render exit (first ++ others) = render exit first ++ render exit others := by
  simp [render]

/-- Only no statements have an empty rendering. -/
theorem render_eq_nil_iff {exit : Exit} {statements : List Statement} :
    render exit statements = [] ↔ statements = [] := by
  cases statements <;> simp [render]

/-- Checks are opened to nothing only if there are none. -/
theorem opened_eq_nil_iff {declared : Bool} {own : List Statement} :
    opened declared own = [] ↔ own = [] := by
  cases own <;> cases declared <;> simp [opened]

/-- With the error variable declared or not, a tag gets a guard for the same arguments, and has
code to add in the same cases. -/
theorem forTag_redeclare {compiler : SchemaCompiler} {function : Text} {m : FunctionMetadata}
    {tag : Tag} {declared : Bool} {g : Guard} (h : forTag compiler function m tag declared = .ok g)
    (other : Bool) :
    ∃ g', forTag compiler function m tag other = .ok g' ∧ g'.validated = g.validated ∧
      (g'.code = [] ↔ g.code = []) := by
  obtain ⟨ts, own, hts, hown, rfl⟩ := forTag_eq_ok_iff.1 h
  refine ⟨_, forTag_eq_ok_iff.2 ⟨ts, own, hts, hown, rfl⟩, rfl, ?_⟩
  simp only [render_eq_nil_iff, opened_eq_nil_iff]

/-- What a tag for one argument asks to check. -/
theorem targets_single {function : Text} {m : FunctionMetadata} {tag : Tag} {ts : List Target}
    (hs : tag.scope = .single) (h : targets function m tag = .ok ts) :
    ∃ spec, m.args.get? tag.argumentName = some spec ∧
      ts = [boundTarget tag.name tag.argumentName spec] := by
  unfold targets at h
  cases hc : checkMetadata function m with
  | error e => simp [hc] at h
  | ok u =>
    cases hspec : m.args.get? tag.argumentName with
    | none => by_cases hsigil : tag.sigil = .scalar <;> simp [hc, hs, hspec, hsigil] at h
    | some spec =>
      by_cases hsigil : tag.sigil = .scalar <;> by_cases hschema : spec.schema.isNone <;>
        simp_all

/-- What a tag for all arguments asks to check. -/
theorem targets_all {function : Text} {m : FunctionMetadata} {tag : Tag} {ts : List Target}
    (hs : tag.scope = .all) (h : targets function m tag = .ok ts) :
    ts = m.args.map fun (argument, spec) => elementTarget m.packing tag.name argument spec := by
  unfold targets at h
  cases hc : checkMetadata function m with
  | error e => simp [hc] at h
  | ok u =>
    cases hname : tag.explicit with
    | some name => simp [hc, hs, hname] at h
    | none => by_cases hsigil : tag.sigil = m.packing.aggregate <;> simp_all

end Guard

end ArgGuard
