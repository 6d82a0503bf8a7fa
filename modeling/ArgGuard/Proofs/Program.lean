import ArgGuard.Proofs.Compiled
import ArgGuard.Proofs.TagLine

/-!
# What guards do

A guard is a program: it may leave the function with a message, and it records the message of a
check that fails in the error variable, from where the next statement takes it. Run from an error
variable without a value, it leaves the function at the first argument that is missing or does not
fit its schema, whatever the conditions of its checks come to, and otherwise it passes with the
variable still without a value.
-/

namespace ArgGuard.Guard

/-- A command of a guard. -/
inductive Command where
  /-- Declare the error variable, which has no value then. -/
  | declare
  /-- Leave with a message when a condition holds. -/
  | leaveIf (condition message : Text)
  /-- Record the message of the first check that fails, if there is one. -/
  | record (first : Check) (others : List Check)
  /-- Record the message of the first check that fails when some data is defined. -/
  | recordIfDefined (data : Text) (first : Check) (others : List Check)
  /-- Leave with what is recorded behind some words, if it counts as true. -/
  | leaveIfRecorded (lead : Text)

/-- The statement that carries out a command. -/
def Command.statement : Command → Statement
  | declare => .declareHolder
  | leaveIf condition message => .leaveIf condition (Text.quoted message)
  | record first others => .run (Schema.chain errorHolder (first :: others))
  | recordIfDefined data first others =>
    .run (Schema.guarded data (Schema.chain errorHolder (first :: others)))
  | leaveIfRecorded lead => .leaveIf errorHolder (Text.quoted lead ++ " . " ++ errorHolder)

/-- How a program ends. -/
inductive Outcome where
  /-- It leaves the function with a message. -/
  | left (message : Text)
  /-- It goes on to what follows, with what the error variable holds, if anything. -/
  | passed (holder : Option Text)
  deriving DecidableEq, Repr

/-- The message of the first check whose condition holds. -/
def firstFailure? (truth : Text → Bool) (checks : List Check) : Option Text :=
  (checks.find? fun check => truth check.failure).map Check.message

/-- The condition that some data is defined. -/
def definedTest (data : Text) : Text := "defined(" ++ data ++ ")"

/-- Leave with a message, if there is one, and go on otherwise. -/
def leaveWith? (failure : Option Text) (next : Outcome) : Outcome :=
  match failure with
  | some message => .left message
  | none => next

/-- What a command does, given which conditions hold and what the error variable holds. -/
def Command.exec (truth : Text → Bool) (holder : Option Text) : Command → Outcome
  | declare => .passed none
  | leaveIf condition message => if truth condition then .left message else .passed holder
  | record first others => .passed ((firstFailure? truth (first :: others)).or holder)
  | recordIfDefined data first others =>
    if truth (definedTest data) then
      .passed ((firstFailure? truth (first :: others)).or holder)
    else .passed holder
  | leaveIfRecorded lead =>
    match holder with
    | none => .passed none
    | some message => if message.isTrue then .left (lead ++ message) else .passed (some message)

/-- What commands do one after the other. -/
def exec (truth : Text → Bool) (holder : Option Text) : List Command → Outcome
  | [] => .passed holder
  | command :: rest =>
    match command.exec truth holder with
    | .left message => .left message
    | .passed next => exec truth next rest

/-- The message of the first check of a schema that some data fails. Without `req` the checks are
made only when the data is defined. -/
def schemaFailure? (truth : Text → Bool) (schema : Schema) (data : Text) (checks : List Check) :
    Option Text :=
  if schema.required || truth (definedTest data) then firstFailure? truth checks else none

/-- The commands for the checks of a schema, which leave with a message behind some words. -/
def schemaCommands (schema : Schema) (data lead : Text) : List Check → List Command
  | [] => []
  | first :: others =>
    [if schema.required then .record first others else .recordIfDefined data first others,
     .leaveIfRecorded lead]

namespace Target

/-- What stands in front of a message about the value of an argument. -/
def lead (t : Target) : Text := "Invalid value for argument '" ++ t.name ++ "': "

/-- The message about an argument that was not passed. -/
def missingMessage (t : Target) : Text := "Missing required argument '" ++ t.name ++ "'"

/-- The schema of an argument with its checks, if the argument has one. -/
def schemaChecks (t : Target) : Except CompileError (Option (Schema × List Check)) :=
  match t.spec.schema with
  | none => .ok none
  | some value => do
    let schema ← Schema.ofValue value
    let checks ← schema.checks t.data
    return some (schema, checks)

/-- The message about an argument that is required and missing, or does not fit its schema. -/
def failure? (truth : Text → Bool) (t : Target) : Option Text :=
  if t.spec.required && truth t.missing then some t.missingMessage
  else
    match t.schemaChecks with
    | .ok (some (schema, checks)) =>
      (schemaFailure? truth schema t.data checks).map fun message => t.lead ++ message
    | _ => none

/-- The commands that check an argument. -/
def commands (t : Target) : List Command :=
  (if t.spec.required then [.leaveIf t.missing t.missingMessage] else []) ++
    match t.schemaChecks with
    | .ok (some (schema, checks)) => schemaCommands schema t.data t.lead checks
    | _ => []

end Target

/-- Code that checks arguments in order and leaves at the first of them that fails. -/
structure FailsFirst (exit : Exit) (ts : List Target) (code : Text) : Prop where
  /-- The schemas of the arguments amount to checks. -/
  schemaChecks : ∀ t ∈ ts, ∃ checks, t.schemaChecks = .ok checks
  /-- The code is a program that does so, whatever its conditions come to. -/
  program : ∃ program : List Command, code = render exit (program.map Command.statement) ∧
    ∀ truth, exec truth none program =
      leaveWith? (ts.findSome? (Target.failure? truth)) (.passed none)

/-- The error variable may stand at the start of a line. -/
theorem isErrTerm_errorHolder : Schema.IsErrTerm errorHolder :=
  ⟨by decide, '$', "arg_err", rfl, rfl, by decide⟩

/-- An argument without a schema has nothing to fit. -/
theorem Target.schemaChecks_of_none {t : Target} (h : t.spec.schema = none) :
    t.schemaChecks = .ok none := by
  rw [schemaChecks, h]

/-- An argument has the checks of its schema. -/
theorem Target.schemaChecks_eq_ok_iff {t : Target} {value : Json.Value}
    (h : t.spec.schema = some value) {found : Option (Schema × List Check)} :
    t.schemaChecks = .ok found ↔
      ∃ schema checks, Schema.ofValue value = .ok schema ∧ schema.checks t.data = .ok checks ∧
        some (schema, checks) = found := by
  simp only [schemaChecks, h, bind_eq_ok_iff, pure_eq_ok_iff, exists_and_left]

/-- What an argument is checked for comes from its schema. -/
theorem Target.checks_of_schemaChecks {t : Target} {found : Schema × List Check}
    (h : t.schemaChecks = .ok (some found)) : found.1.checks t.data = .ok found.2 := by
  cases hv : t.spec.schema with
  | none => simp [Target.schemaChecks_of_none hv] at h
  | some value =>
    obtain ⟨schema, checks, -, hchecks, hfound⟩ := (Target.schemaChecks_eq_ok_iff hv).1 h
    obtain rfl := Option.some.inj hfound
    exact hchecks

/-- The checks of an argument fit it. -/
theorem Target.fits_of_schemaChecks {t : Target} {found : Schema × List Check}
    (h : t.schemaChecks = .ok (some found)) : ∀ check ∈ found.2, check.Fits t.data :=
  Schema.fits_of_checks (Target.checks_of_schemaChecks h)

/-- An argument is checked for its presence and, if its schema amounts to checks, for these. -/
theorem Target.cases_of_mem_commands {t : Target} {command : Command} (h : command ∈ t.commands) :
    command = .leaveIf t.missing t.missingMessage ∨
      ∃ schema first others, t.schemaChecks = .ok (some (schema, first :: others)) ∧
        (command = .record first others ∨ command = .recordIfDefined t.data first others ∨
          command = .leaveIfRecorded t.lead) := by
  rcases List.mem_append.1 h with h | h
  · split at h
    next => exact .inl (List.mem_singleton.1 h)
    next => simp at h
  · split at h
    next schema checks hfound =>
      cases checks with
      | nil => simp [schemaCommands] at h
      | cons first others =>
        refine .inr ⟨schema, first, others, hfound, ?_⟩
        rcases List.mem_cons.1 h with rfl | h
        · cases schema.required with
          | true => exact .inl rfl
          | false => exact .inr (.inl rfl)
        · exact .inr (.inr (List.mem_singleton.1 h))
    next => simp at h

/-- The squashed code of checks is their commands, each as its statement. -/
theorem conformance_squash {t : Target} (hd : '\n' ∉ t.data) (schema : Schema)
    {checks : List Check} (hfits : ∀ check ∈ checks, check.Fits t.data) (value : Json.Value) :
    conformance t (Text.squash (schema.code checks (request t value))) =
      (schemaCommands schema t.data t.lead checks).map Command.statement := by
  have hsquash : Text.squash (schema.code checks (request t value)) =
      if checks.isEmpty then []
      else if schema.required then Schema.chain errorHolder checks
      else Schema.guarded t.data (Schema.chain errorHolder checks) :=
    Schema.squash_code schema isErrTerm_errorHolder hd hfits
  have hleave (code : Text) (hne : code ≠ []) : conformance t code =
      [.run code, (Command.leaveIfRecorded t.lead).statement] := by
    rw [conformance, if_neg (by simpa using hne)]
    rfl
  rw [hsquash]
  cases checks with
  | nil => rfl
  | cons first others =>
    have hchain : Schema.chain errorHolder (first :: others) ≠ [] :=
      Schema.chain_ne_nil first others
    have hguarded : Schema.guarded t.data (Schema.chain errorHolder (first :: others)) ≠ [] :=
      List.cons_ne_nil _ _
    unfold schemaCommands
    cases schema.required with
    | true => exact hleave _ hchain
    | false => exact hleave _ hguarded

/-- The checks of an argument are its commands, each as its statement. -/
theorem block_compile {t : Target} {own : List Statement} (hd : '\n' ∉ t.data)
    (h : block Schema.compile t = .ok own) :
    (∃ found, t.schemaChecks = .ok found) ∧ own = t.commands.map Command.statement := by
  have hpresence : presence t =
      (if t.spec.required then [Command.leaveIf t.missing t.missingMessage] else []).map
        Command.statement := by
    unfold presence
    cases t.spec.required <;> rfl
  unfold block at h
  unfold Target.commands
  rw [List.map_append, ← hpresence]
  cases hv : t.spec.schema with
  | none =>
    rw [hv] at h
    obtain rfl := Except.ok.inj h
    have hfound := Target.schemaChecks_of_none hv
    rw [hfound]
    exact ⟨⟨none, rfl⟩, (List.append_nil _).symm⟩
  | some value =>
    simp only [hv] at h
    cases hcode : Schema.compile (request t value) with
    | error e => simp [hcode] at h
    | ok code =>
      rw [hcode] at h
      obtain rfl := Except.ok.inj h
      obtain ⟨schema, checks, hschema, hchecks, rfl⟩ := (Schema.compile_eq_ok_iff rfl).1 hcode
      have hfound := (Target.schemaChecks_eq_ok_iff hv).2 ⟨schema, checks, hschema, hchecks, rfl⟩
      rw [hfound]
      exact ⟨⟨_, rfl⟩, congrArg (presence t ++ ·)
        (conformance_squash hd schema (Schema.fits_of_checks hchecks) value)⟩

/-- The checks of arguments are their commands, each as its statement. -/
theorem checks_compile {ts : List Target} {own : List Statement} (hd : ∀ t ∈ ts, '\n' ∉ t.data)
    (h : checks Schema.compile ts = .ok own) :
    (∀ t ∈ ts, ∃ found, t.schemaChecks = .ok found) ∧
      own = (ts.flatMap Target.commands).map Command.statement := by
  induction ts generalizing own with
  | nil =>
    obtain rfl := Except.ok.inj h
    exact ⟨by simp, rfl⟩
  | cons t rest ih =>
    obtain ⟨first, others, hfirst, hothers, rfl⟩ := checks_cons_eq_ok_iff.1 h
    obtain ⟨hfound, rfl⟩ := block_compile (hd t List.mem_cons_self) hfirst
    obtain ⟨hrest, rfl⟩ := ih (fun t ht => hd t (List.mem_cons_of_mem _ ht)) hothers
    exact ⟨List.forall_mem_cons.2 ⟨hfound, hrest⟩, by rw [List.flatMap_cons, List.map_append]⟩

section Exec

variable {truth : Text → Bool} {rest : List Command} {checks : List Check} {data : Text}

/-- A command that passes goes on with the next one. -/
theorem exec_of_passed {holder next : Option Text} {command : Command}
    (h : command.exec truth holder = .passed next) :
    exec truth holder (command :: rest) = exec truth next rest := by
  rw [exec, h]

/-- A command that leaves the function ends the program. -/
theorem exec_of_left {holder : Option Text} {command : Command} {message : Text}
    (h : command.exec truth holder = .left message) :
    exec truth holder (command :: rest) = .left message := by
  rw [exec, h]

/-- A message that is recorded counts as true. -/
theorem isTrue_of_firstFailure? {message : Text} (hfits : ∀ check ∈ checks, check.Fits data)
    (h : firstFailure? truth checks = some message) : message.isTrue := by
  obtain ⟨check, hfind, rfl⟩ := Option.map_eq_some_iff.1 h
  exact (hfits check (List.mem_of_find?_eq_some hfind)).isTrue

/-- Behind a record the function is left with the message, if there is one. -/
theorem exec_leaveIfRecorded (lead : Text) {failure : Option Text}
    (h : ∀ message, failure = some message → message.isTrue) :
    exec truth failure (.leaveIfRecorded lead :: rest) =
      leaveWith? (failure.map fun message => lead ++ message) (exec truth none rest) := by
  cases failure with
  | none => rfl
  | some message => simp [exec, Command.exec, leaveWith?, h message rfl]

/-- The commands for a schema leave the function with the first check that fails, and without
one they leave no trace. -/
theorem exec_schemaCommands (schema : Schema) (lead : Text)
    (hfits : ∀ check ∈ checks, check.Fits data) :
    exec truth none (schemaCommands schema data lead checks ++ rest) =
      leaveWith? ((schemaFailure? truth schema data checks).map fun message => lead ++ message)
        (exec truth none rest) := by
  cases checks with
  | nil =>
    have hnone : schemaFailure? truth schema data [] = none := ite_self none
    rw [hnone]
    rfl
  | cons first others =>
    have hrecorded : exec truth ((firstFailure? truth (first :: others)).or none)
        (.leaveIfRecorded lead :: rest) =
          leaveWith? ((firstFailure? truth (first :: others)).map fun message => lead ++ message)
            (exec truth none rest) := by
      rw [Option.or_none]
      exact exec_leaveIfRecorded lead fun message hm => isTrue_of_firstFailure? hfits hm
    unfold schemaCommands schemaFailure?
    cases schema.required with
    | true => exact (exec_of_passed rfl).trans hrecorded
    | false =>
      cases hd : truth (definedTest data) with
      | true =>
        have hrun : Command.exec truth none (.recordIfDefined data first others) =
            .passed ((firstFailure? truth (first :: others)).or none) := if_pos hd
        exact (exec_of_passed hrun).trans hrecorded
      | false =>
        have hskip : Command.exec truth none (.recordIfDefined data first others) = .passed none :=
          if_neg (by simp [hd])
        exact exec_of_passed hskip

/-- The commands for an argument leave the function if it is missing or does not fit. -/
theorem exec_commands {t : Target} {found : Option (Schema × List Check)}
    (h : t.schemaChecks = .ok found) :
    exec truth none (t.commands ++ rest) =
      leaveWith? (t.failure? truth) (exec truth none rest) := by
  have hschema : exec truth none ((match t.schemaChecks with
      | .ok (some (schema, checks)) => schemaCommands schema t.data t.lead checks
      | _ => []) ++ rest) = leaveWith? (match t.schemaChecks with
      | .ok (some (schema, checks)) =>
        (schemaFailure? truth schema t.data checks).map fun message => t.lead ++ message
      | _ => none) (exec truth none rest) := by
    rw [h]
    cases found with
    | none => rfl
    | some found => exact exec_schemaCommands found.1 t.lead (t.fits_of_schemaChecks h)
  unfold Target.commands Target.failure?
  rw [List.append_assoc]
  cases t.spec.required with
  | false => exact hschema
  | true =>
    cases hm : truth t.missing with
    | true =>
      have hleave : Command.exec truth none (.leaveIf t.missing t.missingMessage) =
          .left t.missingMessage := if_pos hm
      exact exec_of_left hleave
    | false =>
      have hpass : Command.exec truth none (.leaveIf t.missing t.missingMessage) =
          .passed none := if_neg (by simp [hm])
      exact (exec_of_passed hpass).trans hschema

/-- The commands for arguments leave the function at the first argument that fails. -/
theorem exec_flatMap_commands {ts : List Target}
    (h : ∀ t ∈ ts, ∃ found, t.schemaChecks = .ok found) :
    exec truth none (ts.flatMap Target.commands) =
      leaveWith? (ts.findSome? (Target.failure? truth)) (.passed none) := by
  induction ts with
  | nil => rfl
  | cons t rest ih =>
    obtain ⟨found, hfound⟩ := h t List.mem_cons_self
    rw [List.flatMap_cons, exec_commands hfound, ih fun t ht => h t (List.mem_cons_of_mem _ ht),
      List.findSome?_cons]
    cases t.failure? truth <;> rfl

end Exec

section Targets

variable {function name : Text} {m : FunctionMetadata} {tag : Tag} {ts : List Target}

/-- The expression for an element is one over nothing else. -/
theorem expression_elementTerm (hname : Identifier.isBareword name) (packing : Packing)
    (key : Text) : Expression [] (elementTerm packing name key) := by
  have hvariable : Expression [] ('$' :: name) :=
    .append (.plain ['$'] rfl) (.plain name (Text.isPlain_of_isBareword hname))
  have harrow : Expression [] (if packing = .hashRef then "->" else "" : Text) := by
    split
    next => exact .plain _ rfl
    next => exact .plain _ rfl
  have hsubscript : Expression [] (if Identifier.isBareword key then key else Text.quoted key) := by
    split
    next hword => exact .plain key (Text.isPlain_of_isBareword hword)
    next => exact .quoted key
  have hterm := Expression.append (.append hvariable harrow) (.braces hsubscript)
  simpa [elementTerm] using hterm

/-- The expressions for the values of the arguments that a tag asks to check are expressions over
nothing else, and those for their absence are expressions over the values. -/
theorem expression_of_targets (hname : Identifier.isBareword tag.name)
    (h : targets function m tag = .ok ts) :
    ∀ t ∈ ts, Expression [] t.data ∧ Expression t.data t.missing := by
  intro t ht
  cases hs : tag.scope with
  | single =>
    obtain ⟨spec, -, rfl⟩ := targets_single hs h
    obtain rfl := List.mem_singleton.1 ht
    have hcall : Expression ('$' :: tag.name) ("!defined" ++ ('(' :: '$' :: tag.name ++ [')'])) :=
      .append (.plain _ rfl) (.parens .data)
    exact ⟨.append (.plain ['$'] rfl) (.plain _ (Text.isPlain_of_isBareword hname)), hcall⟩
  | all =>
    obtain rfl := targets_all hs h
    obtain ⟨⟨argument, spec⟩, -, rfl⟩ := List.mem_map.1 ht
    have hcall (term : Text) : Expression term ("!exists" ++ ('(' :: term ++ [')'])) :=
      .append (.plain _ rfl) (.parens .data)
    exact ⟨expression_elementTerm hname m.packing argument, hcall _⟩

/-- The guard of a tag leaves at the first of its arguments that fails. -/
theorem failsFirst_of_forTag {declared : Bool} {g : Guard}
    (h : forTag Schema.compile function m tag declared = .ok g)
    (hname : Identifier.isBareword tag.name) :
    ∃ ts, targets function m tag = .ok ts ∧ FailsFirst (.ofMetadata m) ts g.code := by
  obtain ⟨ts, own, hts, hown, rfl⟩ := forTag_eq_ok_iff.1 h
  have hdata (t : Target) (ht : t ∈ ts) : '\n' ∉ t.data :=
    (expression_of_targets hname hts t ht).1.not_mem rfl List.not_mem_nil
  obtain ⟨hfound, rfl⟩ := checks_compile hdata hown
  refine ⟨ts, hts, hfound, ?_⟩
  -- The declaration of the error variable comes in front, if at all.
  by_cases hopen : declared || ((ts.flatMap Target.commands).map Command.statement).isEmpty
  · refine ⟨ts.flatMap Target.commands, ?_, fun truth => exec_flatMap_commands hfound⟩
    rw [opened, if_pos hopen]
  · refine ⟨.declare :: ts.flatMap Target.commands, ?_, fun truth => ?_⟩
    · rw [opened, if_neg hopen]
      rfl
    · exact (exec_of_passed rfl).trans (exec_flatMap_commands hfound)

end Targets

/-- The checks of a schema that asks for a defined value start with the one for that. -/
theorem head?_checks_of_required {schema : Schema} {data : Text} {checks : List Check}
    (h : schema.checks data = .ok checks) (hr : schema.required) :
    checks.head? = some (Schema.definedCheck data) := by
  simp only [Schema.checks, bind_eq_ok_iff, pure_eq_ok_iff, hr, if_true] at h
  obtain ⟨clauses, -, rfl⟩ := h
  rfl

/-- The guard for a tag of a line checks its arguments in declared order, whether or not the error
variable is declared already. It is a program that leaves the function at the first argument that
is required and missing or fails a check of its schema, with the message about that, and it passes
without a trace if there is none. -/
theorem fails_first {line : Text} {tag : Tag} (ht : Tag.ofLine? line = some tag) (function : Text)
    (m : FunctionMetadata) (declared : Bool) :
    (∀ g, single Schema.compile function m tag declared = .ok g →
      ∃ spec, m.args.get? tag.argumentName = some spec ∧
        FailsFirst (.ofMetadata m) [boundTarget tag.name tag.argumentName spec] g.code) ∧
    (∀ g, all Schema.compile function m tag declared = .ok g →
      FailsFirst (.ofMetadata m)
        (m.args.map fun (argument, spec) => elementTarget m.packing tag.name argument spec)
        g.code) ∧
    ∀ schema data checks, Schema.checks schema data = .ok checks → schema.required →
      checks.head? = some (Schema.definedCheck data) := by
  have hname := (Tag.declaration?_eq_some (Tag.ofLine?_eq_some ht).2.1).2.2
  refine ⟨fun g hg => ?_, fun g hg => ?_, fun _ _ _ => head?_checks_of_required⟩
  · rw [← forTag_single] at hg
    obtain ⟨ts, hts, hfirst⟩ := failsFirst_of_forTag hg hname
    obtain ⟨spec, hspec, rfl⟩ := targets_single rfl hts
    exact ⟨spec, hspec, hfirst⟩
  · rw [← forTag_all] at hg
    obtain ⟨ts, hts, hfirst⟩ := failsFirst_of_forTag hg hname
    obtain rfl := targets_all rfl hts
    exact hfirst

/-- A function with a required count of at least one and a kind that may be left out. -/
def countedFunction : FunctionMetadata where
  version := FunctionMetadata.supportedVersion
  args := [("n", {
      schema := some (.array [.string "int*", .object [("min", .number (.int 1))]])
      required := true }),
    ("kind", { schema := some (.string "str") })]

/-- A line that asks for all checks of the sample. -/
def countedLine : Text := "my %h = @_; # VALIDATE_ARGS"

/-- The tag of the line. -/
def countedTag : Tag where
  scope := .all
  sigil := .hash
  name := "h"
  explicit := none
  lead := "my %h = @_; "
  comment := "# VALIDATE_ARGS"

/-- The sample gets a guard with code that leaves at its first argument that fails. -/
theorem fails_first_countedFunction :
    Tag.ofLine? countedLine = some countedTag ∧
      ∃ g, all Schema.compile "up" countedFunction countedTag false = .ok g ∧ g.code ≠ [] ∧
        FailsFirst (.ofMetadata countedFunction)
          (countedFunction.args.map fun (argument, spec) =>
            elementTarget countedFunction.packing countedTag.name argument spec) g.code := by
  have ht : Tag.ofLine? countedLine = some countedTag := by decide +kernel
  have hcode : ((all Schema.compile "up" countedFunction countedTag false).toOption.map
      fun g => g.code.isEmpty) = some false := by decide +kernel
  obtain ⟨g, hg, hempty⟩ := exists_eq_ok_of_map_toOption hcode
  have hne : g.code ≠ [] := by simpa using hempty
  exact ⟨ht, g, hg, hne, (fails_first ht "up" countedFunction false).2.1 g hg⟩

end ArgGuard.Guard
