import ArgGuard.Proofs.GuardForm

/-!
# Checks for missing arguments

A guard for a tag that refers to a required argument contains the check that the argument was
passed, whether or not the argument has a schema and whatever the compiler makes of it.
-/

namespace ArgGuard.Guard

/-- The check that an argument was passed, as the tag that refers to it asks for it. The function
is left with a message if it was not. -/
def missingCheck (m : FunctionMetadata) (tag : Tag) (argument : Text) : Text :=
  let missing : Text :=
    match tag.scope with
    | .single => "!defined($" ++ tag.name ++ ")"
    | .all => "!exists(" ++ elementTerm m.packing tag.name argument ++ ")"
  let message := Text.quoted ("Missing required argument '" ++ argument ++ "'")
  let leave : Text :=
    if m.naked then "die " ++ message ++ ";" else "return [400, " ++ message ++ "];"
  "if (" ++ missing ++ ") \x7b " ++ leave ++ " \x7d"

/-- Whether a tag refers to an argument. -/
def covers (tag : Tag) (argument : Text) : Bool :=
  tag.scope = .all || tag.argumentName = argument

/-- A function is left by raising the message or by returning it with the status. -/
theorem leave_ofMetadata (m : FunctionMetadata) (message : Text) :
    (Exit.ofMetadata m).leave message =
      if m.naked then ("die " ++ message ++ ";" : Text)
      else "return [400, " ++ message ++ "];" := by
  unfold Exit.ofMetadata
  cases m.naked with
  | true => rfl
  | false => rfl

/-- Statements are rendered with their whole texts. -/
theorem text_infix_render (exit : Exit) {statements : List Statement} {s : Statement}
    (h : s ∈ statements) : s.text exit <:+: render exit statements := by
  obtain ⟨before, after, rfl⟩ := List.append_of_mem h
  refine ⟨render exit before, [' '] ++ render exit after, ?_⟩
  simp [render]

/-- The check that an argument was passed is among the checks. -/
theorem mem_checks_of_mem_presence {compiler : SchemaCompiler} {ts : List Target}
    {own : List Statement} (h : checks compiler ts = .ok own) {t : Target} (ht : t ∈ ts)
    {s : Statement} (hs : s ∈ presence t) : s ∈ own := by
  induction ts generalizing own with
  | nil => simp at ht
  | cons first rest ih =>
    obtain ⟨front, others, hfront, hothers, rfl⟩ := checks_cons_eq_ok_iff.1 h
    rcases List.mem_cons.1 ht with rfl | ht
    · obtain ⟨code, rfl⟩ := eq_of_block hfront
      exact List.mem_append_left _ (List.mem_append_left _ hs)
    · exact List.mem_append_right _ (ih hothers ht)

/-- Opening checks keeps them. -/
theorem mem_opened (declared : Bool) {own : List Statement} {s : Statement} (h : s ∈ own) :
    s ∈ opened declared own := by
  unfold opened
  split
  next => exact h
  next => exact List.mem_cons_of_mem _ h

/-- A required argument that a tag refers to is one of those that it asks to check. -/
theorem exists_target {function : Text} {m : FunctionMetadata} {tag : Tag} {ts : List Target}
    (h : targets function m tag = .ok ts) {argument : Text} (hr : argument ∈ m.requiredArgs)
    (hc : covers tag argument) :
    ∃ t ∈ ts, t.name = argument ∧ t.spec.required ∧
      t.missing =
        match tag.scope with
        | .single => ("!defined($" ++ tag.name ++ ")" : Text)
        | .all => "!exists(" ++ elementTerm m.packing tag.name argument ++ ")" := by
  obtain ⟨spec, hmem, hspec⟩ := FunctionMetadata.mem_requiredArgs_iff.1 hr
  cases hs : tag.scope with
  | single =>
    obtain ⟨spec', hget, rfl⟩ := targets_single hs h
    have hname : tag.argumentName = argument := by simpa [covers, hs] using hc
    rw [hname, Dictionary.get?_of_mem m.distinct hmem] at hget
    obtain rfl := Option.some.inj hget
    exact ⟨_, List.mem_singleton_self _, hname, hspec, rfl⟩
  | all =>
    obtain rfl := targets_all hs h
    exact ⟨_, List.mem_map.2 ⟨_, hmem, rfl⟩, rfl, hspec, rfl⟩

/-- The guard for a tag contains the check of every required argument that the tag refers to. -/
theorem missingCheck_infix {compiler : SchemaCompiler} {function : Text} {m : FunctionMetadata}
    {tag : Tag} {declared : Bool} {g : Guard}
    (h : forTag compiler function m tag declared = .ok g) {argument : Text}
    (hr : argument ∈ m.requiredArgs) (hc : covers tag argument) :
    missingCheck m tag argument <:+: g.code := by
  obtain ⟨ts, own, hts, hown, rfl⟩ := forTag_eq_ok_iff.1 h
  obtain ⟨t, ht, rfl, hrequired, hmissing⟩ := exists_target hts hr hc
  have hpresence : Statement.leaveIf t.missing
      (Text.quoted ("Missing required argument '" ++ t.name ++ "'")) ∈ presence t := by
    simp [presence, hrequired]
  have hinfix := text_infix_render (.ofMetadata m)
    (mem_opened declared (mem_checks_of_mem_presence hown ht hpresence))
  have htext : Statement.text (.ofMetadata m) (.leaveIf t.missing
      (Text.quoted ("Missing required argument '" ++ t.name ++ "'"))) =
        missingCheck m tag t.name := by
    rw [text_leaveIf, leave_ofMetadata, hmissing]
    rfl
  rw [htext] at hinfix
  exact hinfix

end ArgGuard.Guard
