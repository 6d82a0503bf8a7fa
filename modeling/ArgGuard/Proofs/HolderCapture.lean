import ArgGuard.Proofs.GuardForm
import ArgGuard.Proofs.TagGrammar

/-!
# The error variable and the data

A guard declares its error variable in front of its checks, and the checks look at the variable that
the line of the tag declares. The expressions for the data of one tag all refer to that variable:
to a scalar, or to a hash of which they take an element. So the error variable takes the place of
the data exactly if the line declares a scalar of the same name. A hash of that name is another
variable, and stays what it is.
-/

namespace ArgGuard.Guard

/-- The variable that an expression refers to, with its sigil. An element in braces is one of a hash
and an element in brackets one of an array; any other expression refers to a scalar. -/
def referent? : Text → Option Text
  | '$' :: term => do
    let (name, behind) ← Identifier.read? term
    let sigil : Sigil :=
      match behind with
      | '\x7b' :: _ => .hash
      | '[' :: _ => .array
      | _ => .scalar
    return sigil.char :: name
  | _ => none

/-- Some code checks an argument. -/
def Target.IsChecked (compiler : SchemaCompiler) (t : Target) : Prop :=
  ∃ own, block compiler t = .ok own ∧ own ≠ []

/-- The checks of some argument look at the error variable instead of its value. -/
def Captured (compiler : SchemaCompiler) (ts : List Target) : Prop :=
  ∃ t ∈ ts, t.IsChecked compiler ∧ referent? t.data = some errorHolder

/-- A guard checks arguments whose values are in a variable. -/
structure LooksAt (compiler : SchemaCompiler) (exit : Exit) (declared : Bool) (ts : List Target)
    (variableName : Text) (g : Guard) : Prop where
  /-- It is the checks of the arguments, with the declaration of the error variable in front if that
  is missing. -/
  checked : ∃ own, checks compiler ts = .ok own ∧
    g = ⟨render exit (opened declared own), ts.map Target.name⟩
  /-- All values are looked up in the variable. -/
  data : ∀ t ∈ ts, referent? t.data = some variableName
  /-- The error variable takes its place only if it is the same. -/
  captured_iff : Captured compiler ts ↔ variableName = errorHolder

variable {compiler : SchemaCompiler} {function name : Text} {m : FunctionMetadata} {tag : Tag}
  {declared : Bool} {g : Guard} {ts : List Target}

/-- The variable of an expression is told by its name and what stands behind it. -/
theorem referent?_append (hname : Identifier.isBareword name) {behind : Text}
    (hstop : Text.StopsAt Unicode.isWord behind) :
    referent? ('$' :: name ++ behind) =
      some ((match behind with
        | '\x7b' :: _ => Sigil.hash
        | '[' :: _ => .array
        | _ => .scalar).char :: name) := by
  have hread := Identifier.read?_eq_some_iff.2 ⟨hname, rfl, hstop⟩
  simp only [List.cons_append, referent?, hread]
  rfl

/-- The expression for a bound argument refers to the scalar that it is bound to. -/
theorem referent?_bound (hname : Identifier.isBareword name) :
    referent? ('$' :: name) = some (Sigil.scalar.char :: name) := by
  have h := referent?_append hname Text.stopsAt_nil
  rwa [List.append_nil] at h

/-- The expression for an element refers to the variable that holds all arguments. -/
theorem referent?_elementTerm {packing : Packing} (hp : packing.isSupported)
    (hname : Identifier.isBareword name) (key : Text) :
    referent? (elementTerm packing name key) = some (packing.aggregate.char :: name) := by
  have hbrace : Unicode.isWord '\x7b' = false := by decide
  have hdash : Unicode.isWord '-' = false := by decide
  cases packing with
  | hash =>
    have h := referent?_append hname (Text.stopsAt_cons hbrace
      ((if Identifier.isBareword key then key else Text.quoted key) ++ ['\x7d']))
    simpa [elementTerm, Packing.aggregate] using h
  | hashRef =>
    have h := referent?_append hname (Text.stopsAt_cons hdash
      ('>' :: '\x7b' :: (if Identifier.isBareword key then key else Text.quoted key) ++ ['\x7d']))
    simpa [elementTerm, Packing.aggregate] using h
  | array => cases hp
  | arrayRef => cases hp

/-- A tag asks for no checks unless the arguments can be addressed by name. -/
theorem isSupported_of_targets (h : targets function m tag = .ok ts) : m.packing.isSupported := by
  cases hp : m.packing.isSupported with
  | true => rfl
  | false =>
    unfold targets checkMetadata at h
    by_cases hversion : m.hasSupportedVersion <;> simp [hversion, hp] at h

/-- A tag asks for no checks unless its line declares a variable of the kind that holds what it
asks to check. -/
theorem sigil_of_targets (h : targets function m tag = .ok ts) :
    tag.sigil = match tag.scope with
      | .single => .scalar
      | .all => m.packing.aggregate := by
  unfold targets at h
  cases hc : checkMetadata function m with
  | error e => simp [hc] at h
  | ok u =>
    cases hs : tag.scope with
    | single =>
      by_contra hsigil
      simp [hc, hs, hsigil] at h
    | all =>
      by_contra hsigil
      cases hname : tag.explicit <;> simp [hc, hs, hsigil, hname] at h

/-- The values of the arguments that a tag asks to check are in the variable that its line
declares. -/
theorem referent?_of_targets (h : targets function m tag = .ok ts)
    (hname : Identifier.isBareword tag.name) :
    ∀ t ∈ ts, referent? t.data = some tag.declared := by
  intro t ht
  have hsigil := sigil_of_targets h
  cases hs : tag.scope with
  | single =>
    obtain ⟨spec, -, rfl⟩ := targets_single hs h
    obtain rfl := List.mem_singleton.1 ht
    rw [hs] at hsigil
    rw [Tag.declared, hsigil]
    exact referent?_bound hname
  | all =>
    obtain rfl := targets_all hs h
    obtain ⟨⟨argument, spec⟩, -, rfl⟩ := List.mem_map.1 ht
    rw [hs] at hsigil
    rw [Tag.declared, hsigil]
    exact referent?_elementTerm (isSupported_of_targets h) hname argument

/-- Checks that are not empty check some argument. -/
theorem exists_isChecked {own : List Statement} (h : checks compiler ts = .ok own)
    (hne : own ≠ []) : ∃ t ∈ ts, t.IsChecked compiler := by
  induction ts generalizing own with
  | nil =>
    obtain rfl := Except.ok.inj h
    exact absurd rfl hne
  | cons t rest ih =>
    obtain ⟨first, others, hfirst, hothers, rfl⟩ := checks_cons_eq_ok_iff.1 h
    by_cases hempty : first = []
    · subst hempty
      obtain ⟨u, hu, hchecked⟩ := ih hothers hne
      exact ⟨u, List.mem_cons_of_mem _ hu, hchecked⟩
    · exact ⟨t, List.mem_cons_self, first, hfirst, hempty⟩

/-- The guard of a tag looks at the variable that the line declares. -/
theorem looksAt_of_forTag (h : forTag compiler function m tag declared = .ok g)
    (hname : Identifier.isBareword tag.name) (hne : g.code ≠ []) :
    ∃ ts, targets function m tag = .ok ts ∧
      LooksAt compiler (.ofMetadata m) declared ts tag.declared g := by
  obtain ⟨ts, own, hts, hown, rfl⟩ := forTag_eq_ok_iff.1 h
  have hdata := referent?_of_targets hts hname
  refine ⟨ts, hts, ⟨own, hown, rfl⟩, hdata, ?_⟩
  constructor
  · rintro ⟨t, ht, -, hholder⟩
    exact Option.some.inj ((hdata t ht).symm.trans hholder)
  · intro hholder
    have hown' : own ≠ [] := fun hempty => hne (by rw [hempty]; cases declared <;> rfl)
    obtain ⟨t, ht, hchecked⟩ := exists_isChecked hown hown'
    exact ⟨t, ht, hchecked, (hdata t ht).trans (congrArg some hholder)⟩

/-- A guard with some code looks at the variable that the line of its tag declares, for one argument
as for all of them, and whether or not the error variable is declared already. So its error variable
captures the data of a check exactly if the line declares a scalar of the same name. -/
theorem looksAt_declared {line : Text} (ht : Tag.ofLine? line = some tag)
    (compiler : SchemaCompiler) (function : Text) (m : FunctionMetadata) (declared : Bool)
    (g : Guard) (hne : g.code ≠ []) :
    (single compiler function m tag declared = .ok g →
      ∃ spec, m.args.get? tag.argumentName = some spec ∧
        LooksAt compiler (.ofMetadata m) declared [boundTarget tag.name tag.argumentName spec]
          tag.declared g) ∧
    (all compiler function m tag declared = .ok g →
      LooksAt compiler (.ofMetadata m) declared
        (m.args.map fun (argument, spec) => elementTarget m.packing tag.name argument spec)
        tag.declared g) := by
  have hname := (Tag.declaration?_eq_some (Tag.ofLine?_eq_some ht).2.1).2.2
  refine ⟨fun hg => ?_, fun hg => ?_⟩
  · rw [← forTag_single] at hg
    obtain ⟨ts, hts, hlooks⟩ := looksAt_of_forTag hg hname hne
    obtain ⟨spec, hspec, rfl⟩ := targets_single rfl hts
    exact ⟨spec, hspec, hlooks⟩
  · rw [← forTag_all] at hg
    obtain ⟨ts, hts, hlooks⟩ := looksAt_of_forTag hg hname hne
    obtain rfl := targets_all rfl hts
    exact hlooks

/-- A line that keeps an argument in a scalar with the name of the error variable. -/
def holderLine : Text := "my $arg_err = $args{x}; # VALIDATE_ARG x"

/-- The tag of the line. -/
def holderTag : Tag where
  scope := .single
  sigil := .scalar
  name := "arg_err"
  explicit := some ['x']
  lead := "my $arg_err = $args{x}; "
  comment := "# VALIDATE_ARG x"

/-- A function with one argument, which is required. -/
def holderFunction : FunctionMetadata where
  version := FunctionMetadata.supportedVersion
  args := [("x", { schema := some (.string "int"), required := true })]

/-- The guard of the line declares its error variable and then looks at it for the argument. -/
theorem looksAt_declared_holderLine :
    Tag.ofLine? holderLine = some holderTag ∧
    ∃ g spec, single Schema.compile "bar" holderFunction holderTag false = .ok g ∧ g.code ≠ [] ∧
      ("my $arg_err; if (!defined($arg_err)) \x7b " : Text) <+: g.code ∧
      holderFunction.args.get? ['x'] = some spec ∧
      Captured Schema.compile [boundTarget "arg_err" "x" spec] := by
  have ht : Tag.ofLine? holderLine = some holderTag := by decide +kernel
  have hcode : ((single Schema.compile "bar" holderFunction holderTag false).toOption.map
      fun g => ("my $arg_err; if (!defined($arg_err)) \x7b " : Text).isPrefixOf g.code) =
      some true := by
    decide +kernel
  obtain ⟨g, hg, hprefix⟩ := exists_eq_ok_of_map_toOption hcode
  have hstart := List.isPrefixOf_iff_prefix.1 hprefix
  have hne : g.code ≠ [] := by
    intro hempty
    rw [hempty] at hstart
    cases List.prefix_nil.1 hstart
  obtain ⟨spec, hspec, hlooks⟩ :=
    (looksAt_declared ht Schema.compile "bar" holderFunction false g hne).1 hg
  exact ⟨ht, g, spec, hg, hne, hstart, hspec, hlooks.captured_iff.2 rfl⟩

end ArgGuard.Guard
