import ArgGuard.Proofs.Watch

/-!
# Conditions and commands are steady

The conditions of checks are steady wherever their data is, and so is every command that a guard
gives for an argument. The expressions for the arguments themselves are steady because they are
made of identifiers and strings.
-/

namespace ArgGuard

open Watch

namespace SchemaType

variable {type : SchemaType} {data : Text}

/-- The condition of a type is steady. -/
theorem steady_condition? {condition noun : Text}
    (h : type.condition? data = some (condition, noun)) (hd : Steady data) : Steady condition := by
  have hplain : Steady ("!ref(" ++ data ++ ")") :=
    (Steady.append (by decide) hd).append (by decide)
  have hkind (kind : Text) (hk : Steady (") eq '" ++ kind ++ "'")) :
      Steady ("ref(" ++ data ++ ") eq '" ++ kind ++ "'") := by
    have hrest := Steady.append (Steady.append (by decide : Steady "ref(") hd) hk
    simpa only [List.append_assoc] using hrest
  have hpattern (pattern : Text) (hp : Steady pattern) :
      Steady ("!ref(" ++ data ++ ")" ++ " && " ++ data ++ pattern) :=
    ((hplain.append (by decide)).append hd).append hp
  cases type with
  | any => simp [condition?] at h
  | bool =>
    obtain ⟨rfl, -⟩ := Prod.mk.inj (Option.some.inj h)
    exact hplain
  | int =>
    obtain ⟨rfl, -⟩ := Prod.mk.inj (Option.some.inj h)
    exact hpattern _ (by decide)
  | float =>
    obtain ⟨rfl, -⟩ := Prod.mk.inj (Option.some.inj h)
    exact hpattern _ (by decide)
  | str =>
    obtain ⟨rfl, -⟩ := Prod.mk.inj (Option.some.inj h)
    exact hplain
  | array =>
    obtain ⟨rfl, -⟩ := Prod.mk.inj (Option.some.inj h)
    exact hkind "ARRAY" (by decide)
  | hash =>
    obtain ⟨rfl, -⟩ := Prod.mk.inj (Option.some.inj h)
    exact hkind "HASH" (by decide)
  | re =>
    obtain ⟨rfl, -⟩ := Prod.mk.inj (Option.some.inj h)
    exact (hplain.append (by decide)).append (hkind "Regexp" (by decide))

/-- An operator that compares data with a bound is steady with the spaces around it. -/
theorem steady_operator? {bound : Bound} {operator : Text}
    (h : type.operator? bound = some operator) : Steady (" " ++ operator ++ " ") := by
  cases type <;> simp only [operator?, reduceCtorEq, Option.some.injEq] at h <;> subst h <;>
    cases bound <;> decide

/-- An operator that compares data with values is steady. -/
theorem steady_equality? {equals : Text} (h : type.equality? = some equals) :
    Steady (equals ++ " ") := by
  cases type <;> simp only [equality?, reduceCtorEq, Option.some.injEq] at h <;> subst h <;> decide

/-- The length of data is steady. -/
theorem steady_length? {length : Text} (h : type.length? data = some length) (hd : Steady data) :
    Steady length := by
  cases type with
  | str =>
    obtain rfl := Option.some.inj h
    exact (Steady.append (by decide) hd).append (by decide)
  | array =>
    obtain rfl := Option.some.inj h
    exact (Steady.append (by decide) hd).append (by decide)
  | hash =>
    obtain rfl := Option.some.inj h
    exact (Steady.append (by decide) hd).append (by decide)
  | _ => simp [length?] at h

end SchemaType

namespace Schema

variable {type : SchemaType} {clause data : Text} {value : Json.Value}

/-- A literal is steady. -/
theorem steady_literal {t : Text} (h : literal type clause value = .ok t) : Steady t := by
  unfold literal at h
  split at h
  next n =>
    split at h
    next =>
      obtain rfl := Except.ok.inj h
      exact steady_of_isNumeral n.isNumeral_text
    next => simp at h
  next s =>
    split at h
    next =>
      obtain rfl := Except.ok.inj h
      exact (settled_quoted s).steady
    next => simp at h
  next => simp at h

/-- Literals of a list are steady. -/
theorem steady_literals {values : List Json.Value} {ts : List Text}
    (h : literals type clause values = .ok ts) : ∀ t ∈ ts, Steady t := by
  induction values generalizing ts with
  | nil =>
    obtain rfl := Except.ok.inj h
    simp
  | cons value rest ih =>
    simp only [literals, bind_eq_ok_iff, pure_eq_ok_iff] at h
    obtain ⟨first, hfirst, others, hothers, rfl⟩ := h
    intro t ht
    rcases List.mem_cons.1 ht with rfl | ht
    · exact steady_literal hfirst
    · exact ih hothers t ht

/-- The comparison of a steady text with a literal is steady. -/
theorem steady_comparison {s operator limit : Text} (hs : Steady s)
    (ho : Steady (" " ++ operator ++ " ")) (hl : Steady limit) :
    Steady (s ++ " " ++ operator ++ " " ++ limit) := by
  have hall := (hs.append ho).append hl
  simpa only [List.append_assoc] using hall

/-- A negated text in parentheses is steady if the text is. -/
theorem steady_not {s : Text} (hs : Steady s) : Steady ("!(" ++ s ++ ")") :=
  (Steady.append (by decide) hs).append (by decide)

/-- The condition of a clause is steady. -/
theorem ClauseForm.steady {failure message : Text}
    (h : ClauseForm type clause data value failure message) (hd : Steady data) :
    Steady failure := by
  cases h with
  | bound ho hl =>
    have hcompared := steady_comparison hd (SchemaType.steady_operator? ho) (steady_literal hl)
    simpa only [List.append_assoc] using steady_not hcompared
  | between hmin hmax hlow hhigh =>
    have hlower := steady_comparison hd (SchemaType.steady_operator? hmin) (steady_literal hlow)
    have hupper := steady_comparison hd (SchemaType.steady_operator? hmax) (steady_literal hhigh)
    have hboth := (hlower.append (by decide : Steady " && ")).append hupper
    simpa only [List.append_assoc] using steady_not hboth
  | @length test length n hl =>
    have hoperator : Steady (" " ++ test.operator ++ " ") := by cases test <;> decide
    have hcompared := steady_comparison (SchemaType.steady_length? hl hd) hoperator
      (steady_of_isNumeral (Text.isNumeral_ofNat n))
    simpa only [List.append_assoc] using steady_not hcompared
  | @oneOf items equals allowed he ha =>
    have hjoined : Steady (Text.joined ", " allowed) :=
      .joined (by decide) (steady_literals ha)
    have hgrep := (((Steady.append (by decide : Steady "grep \x7b $_ ")
      (SchemaType.steady_equality? he)).append hd).append
        (by decide : Steady " \x7d (")).append (hjoined.append (by decide : Steady ")"))
    have hnot := steady_not hgrep
    simpa using hnot
  | @matching pattern body hb =>
    have hmatch := (hd.append (by decide : Steady " =~ ")).append (settled_pattern hb).steady
    have hnot := steady_not hmatch
    simpa using hnot

/-- The conditions of all checks of a schema are steady. -/
theorem steady_of_checks {schema : Schema} {checks : List Check}
    (h : schema.checks data = .ok checks) (hd : Steady data) :
    ∀ check ∈ checks, Steady check.failure := by
  intro check hcheck
  obtain rfl | htype | ⟨entry, hclause⟩ := cases_of_mem_checks h hcheck
  · exact (Steady.append (by decide) hd).append (by decide)
  · obtain ⟨⟨condition, noun⟩, hcondition, rfl⟩ := Option.map_eq_some_iff.1 htype
    exact steady_not (SchemaType.steady_condition? hcondition hd)
  · obtain ⟨failure, message, hfailure, rfl⟩ := clauseCheck_eq_ok_iff.1 hclause
    exact (ClauseForm.of_clauseFailure hfailure).steady hd

end Schema

namespace Guard

variable {exit : Exit} {t : Target}

/-- A check that leaves the function settles a watcher if its condition and message are steady. -/
theorem settled_leaveIf {condition message : Text} (hc : Steady condition) (hm : Steady message) :
    Settled ((Statement.leaveIf condition message).text exit) := by
  have hleave : Steady (exit.leave message) := by
    cases exit with
    | raise => exact (Steady.append (by decide) hm).append (by decide)
    | status => exact (Steady.append (by decide) hm).append (by decide)
  rw [text_leaveIf]
  have hopen := ((Steady.append (by decide : Steady "if (") hc).append
    (by decide : Steady ") \x7b ")).append hleave
  exact hopen.append_settled (by decide)

/-- A branch of a chain settles a watcher if its condition is steady. -/
theorem settled_branch {keyword : Text} (hk : Steady (keyword ++ " (")) {check : Check}
    (hc : Steady check.failure) : Settled (Schema.branch errorHolder keyword check) := by
  have htest := (hk.append hc).append (by decide : Steady ") \x7b ")
  have hassign := (htest.append (by decide : Steady errorHolder)).append (by decide : Steady " = ")
  exact (hassign.append (settled_quoted check.message).steady).append_settled (by decide)

/-- A chain of checks settles a watcher if their conditions are steady. -/
theorem settled_chain {first : Check} {others : List Check}
    (hc : ∀ check ∈ first :: others, Steady check.failure) :
    Settled (Schema.chain errorHolder (first :: others)) := by
  refine .joined (settled_branch (by decide) (hc first List.mem_cons_self)) fun part hpart => ?_
  obtain ⟨check, hcheck, rfl⟩ := List.mem_map.1 hpart
  exact settled_branch (by decide) (hc check (List.mem_cons_of_mem _ hcheck))

/-- Code that is run when the data is defined settles a watcher if the code does. -/
theorem settled_guarded {data code : Text} (hd : Steady data) (hc : Steady code) :
    Settled (Schema.guarded data code) := by
  have hopen := (Steady.append (by decide : Steady "if (defined(") hd).append
    (by decide : Steady ")) \x7b ")
  exact (hopen.append hc).append_settled (by decide)

/-- The commands for an argument settle a watcher. -/
theorem settled_commands (hd : Steady t.data) (hm : Steady t.missing) :
    ∀ command ∈ t.commands, Settled (command.statement.text exit) := by
  intro command hcommand
  have hholder : Steady errorHolder := by decide
  obtain rfl | ⟨schema, first, others, hfound, hkind⟩ := Target.cases_of_mem_commands hcommand
  · exact settled_leaveIf hm (settled_quoted _).steady
  · have hchain : Settled (Schema.chain errorHolder (first :: others)) :=
      settled_chain (Schema.steady_of_checks (Target.checks_of_schemaChecks hfound) hd)
    rcases hkind with rfl | rfl | rfl
    · exact hchain
    · exact settled_guarded hd hchain.steady
    · have hlead := (settled_quoted t.lead).steady.append (by decide : Steady " . ")
      exact settled_leaveIf hholder (hlead.append hholder)

/-- A variable is steady. -/
theorem steady_variable {name : Text} (hname : Identifier.isBareword name) :
    Steady ('$' :: name) :=
  Steady.append (by decide : Steady ['$']) (steady_of_isBareword hname)

/-- The expression for an element is steady. -/
theorem steady_elementTerm {name : Text} (hname : Identifier.isBareword name) (packing : Packing)
    (key : Text) : Steady (elementTerm packing name key) := by
  have harrow : Steady ((if packing = .hashRef then "->" else "" : Text) ++ ['\x7b']) := by
    split <;> decide
  have hsubscript : Steady (if Identifier.isBareword key then key else Text.quoted key) := by
    split
    next hword => exact steady_of_isBareword hword
    next => exact (settled_quoted key).steady
  have hterm := (((steady_variable hname).append harrow).append hsubscript).append
    (by decide : Steady ['\x7d'])
  simpa [elementTerm] using hterm

/-- The expressions for the values of the arguments that a tag asks to check, and those for their
absence, are steady. -/
theorem steady_of_targets {function : Text} {m : FunctionMetadata} {tag : Tag} {ts : List Target}
    (hname : Identifier.isBareword tag.name) (h : targets function m tag = .ok ts) :
    ∀ t ∈ ts, Steady t.data ∧ Steady t.missing := by
  intro t ht
  cases hs : tag.scope with
  | single =>
    obtain ⟨spec, -, rfl⟩ := targets_single hs h
    obtain rfl := List.mem_singleton.1 ht
    have hdata := steady_variable hname
    exact ⟨hdata, (Steady.append (by decide) hdata).append (by decide)⟩
  | all =>
    obtain rfl := targets_all hs h
    obtain ⟨⟨argument, spec⟩, -, rfl⟩ := List.mem_map.1 ht
    have hdata := steady_elementTerm hname m.packing argument
    exact ⟨hdata, (Steady.append (by decide) hdata).append (by decide)⟩

end Guard

end ArgGuard
