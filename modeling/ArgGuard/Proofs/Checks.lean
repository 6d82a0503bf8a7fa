import ArgGuard.Proofs.GuardForm
import ArgGuard.Schema.Compiler

/-!
# Checks taken apart

Each check of a schema is the one for a defined value, the one of its type, or one of a clause. A
clause that is compiled has the form of its kind: its condition puts the data next to literals, a
length or a pattern, and everything else in it is fixed.
-/

namespace ArgGuard.Schema

variable {type : SchemaType} {clause data failure message : Text} {value : Json.Value}

/-- The condition under which data fails a clause, and the message about that, by the kinds of
clauses. -/
inductive ClauseForm (type : SchemaType) (clause data : Text) :
    Json.Value → Text → Text → Prop
  /-- A limit on one side. -/
  | bound {bound : Bound} {value : Json.Value} {operator limit : Text}
      (ho : type.operator? bound = some operator) (hl : literal type clause value = .ok limit) :
      ClauseForm type clause data value ("!(" ++ data ++ " " ++ operator ++ " " ++ limit ++ ")")
        ("Must be " ++ bound.phrase ++ " " ++ display value)
  /-- A limit on either side. -/
  | between {low high : Json.Value} {atLeast atMost lowest highest : Text}
      (hmin : type.operator? .min = some atLeast) (hmax : type.operator? .max = some atMost)
      (hlow : literal type clause low = .ok lowest)
      (hhigh : literal type clause high = .ok highest) :
      ClauseForm type clause data (.array [low, high])
        ("!(" ++ data ++ " " ++ atLeast ++ " " ++ lowest ++ " && " ++
          data ++ " " ++ atMost ++ " " ++ highest ++ ")")
        ("Must be between " ++ display low ++ " and " ++ display high)
  /-- A comparison of the length. -/
  | length {test : LengthTest} {length : Text} {n : Nat} (hl : type.length? data = some length) :
      ClauseForm type clause data (.number (.int (.ofNat n)))
        ("!(" ++ length ++ " " ++ test.operator ++ " " ++ Text.ofNat n ++ ")")
        (test.phrase ++ " " ++ Text.ofNat n)
  /-- A list of allowed values. -/
  | oneOf {items : List Json.Value} {equals : Text} {allowed : List Text}
      (he : type.equality? = some equals) (ha : literals type clause items = .ok allowed) :
      ClauseForm type clause data (.array items)
        ("!(grep \x7b $_ " ++ equals ++ " " ++ data ++ " \x7d (" ++
          Text.joined ", " allowed ++ "))")
        ("Must be one of [" ++ Text.joined ", " (items.map display) ++ "]")
  /-- A pattern that must match. -/
  | matching {pattern body : Text} (hb : patternBody pattern = .ok body) :
      ClauseForm type clause data (.string pattern)
        ("!(" ++ data ++ " =~ /" ++ body ++ "/)")
        ("Must match pattern " ++ pattern)

/-- A clause that is compiled has the form of its kind. -/
theorem ClauseForm.of_clauseFailure
    (h : clauseFailure type clause value data = .ok (failure, message)) :
    ClauseForm type clause data value failure message := by
  cases hk : Clause.ofName? clause with
  | none => simp [clauseFailure, hk] at h
  | some kind =>
    cases kind with
    | bound bound =>
      simp only [clauseFailure, hk] at h
      cases hoperator : type.operator? bound with
      | none => simp [hoperator, throw_ne_ok] at h
      | some operator =>
        simp only [hoperator, bind_eq_ok_iff, pure_eq_ok_iff, Prod.mk.injEq] at h
        obtain ⟨limit, hlimit, rfl, rfl⟩ := h
        exact .bound hoperator hlimit
    | between =>
      simp only [clauseFailure, hk] at h
      cases hmin : type.operator? .min with
      | none => simp [hmin, throw_ne_ok] at h
      | some atLeast =>
        cases hmax : type.operator? .max with
        | none => simp [hmin, hmax, throw_ne_ok] at h
        | some atMost =>
          simp only [hmin, hmax] at h
          split at h
          next low high =>
            simp only [bind_eq_ok_iff, pure_eq_ok_iff, Prod.mk.injEq] at h
            obtain ⟨lowest, hlow, highest, hhigh, rfl, rfl⟩ := h
            exact .between hmin hmax hlow hhigh
          next => simp [throw_ne_ok] at h
    | length test =>
      simp only [clauseFailure, hk] at h
      cases hlength : type.length? data with
      | none => simp [hlength, throw_ne_ok] at h
      | some length =>
        simp only [hlength] at h
        split at h
        next n =>
          simp only [pure_eq_ok_iff, Prod.mk.injEq] at h
          obtain ⟨rfl, rfl⟩ := h
          exact .length hlength
        next => simp [throw_ne_ok] at h
    | oneOf =>
      simp only [clauseFailure, hk] at h
      cases hequals : type.equality? with
      | none => simp [hequals, throw_ne_ok] at h
      | some equals =>
        simp only [hequals] at h
        split at h
        next items =>
          simp only [bind_eq_ok_iff, pure_eq_ok_iff, Prod.mk.injEq] at h
          obtain ⟨allowed, hallowed, rfl, rfl⟩ := h
          exact .oneOf hequals hallowed
        next => simp [throw_ne_ok] at h
    | matching =>
      simp only [clauseFailure, hk] at h
      by_cases htype : type = .str
      · subst htype
        split at h
        next => contradiction
        next =>
          split at h
          next pattern =>
            simp only [bind_eq_ok_iff, pure_eq_ok_iff, Prod.mk.injEq] at h
            obtain ⟨body, hbody, rfl, rfl⟩ := h
            exact .matching hbody
          next => simp [throw_ne_ok] at h
      · simp [htype, throw_ne_ok, bind_eq_ok_iff] at h

/-- The check of a clause has the clause's condition and message. -/
theorem clauseCheck_eq_ok_iff {entry : Text × Json.Value} {check : Check} :
    clauseCheck type data entry = .ok check ↔
      ∃ failure message, clauseFailure type entry.1 entry.2 data = .ok (failure, message) ∧
        check = ⟨"clause '" ++ entry.1 ++ "'", failure, message⟩ := by
  simp only [clauseCheck, bind_eq_ok_iff, pure_eq_ok_iff, Prod.exists, eq_comm (a := check)]

/-- The checks of clauses are those of each clause. -/
theorem exists_of_mem_clauseChecks {clauses : List (Text × Json.Value)} {checks : List Check}
    (h : clauseChecks type data clauses = .ok checks) {check : Check} (hc : check ∈ checks) :
    ∃ entry, clauseCheck type data entry = .ok check := by
  induction clauses generalizing checks with
  | nil =>
    obtain rfl := Except.ok.inj h
    simp at hc
  | cons entry rest ih =>
    simp only [clauseChecks, bind_eq_ok_iff, pure_eq_ok_iff] at h
    obtain ⟨first, hfirst, others, hothers, rfl⟩ := h
    rcases List.mem_cons.1 hc with rfl | hc
    · exact ⟨entry, hfirst⟩
    · exact ih hothers hc

/-- The checks of a schema are those for a defined value, of its type and of its clauses. -/
theorem cases_of_mem_checks {schema : Schema} {checks : List Check}
    (h : schema.checks data = .ok checks) {check : Check} (hc : check ∈ checks) :
    check = definedCheck data ∨ typeCheck? schema.type data = some check ∨
      ∃ entry, clauseCheck schema.type data entry = .ok check := by
  simp only [Schema.checks, bind_eq_ok_iff, pure_eq_ok_iff] at h
  obtain ⟨clauses, hclauses, rfl⟩ := h
  rcases List.mem_append.1 hc with hc | hc
  · rcases List.mem_append.1 hc with hc | hc
    · split at hc
      next => exact .inl (List.mem_singleton.1 hc)
      next => simp at hc
    · exact .inr (.inl (Option.mem_toList.1 hc))
  · exact .inr (.inr (exists_of_mem_clauseChecks hclauses hc))

end ArgGuard.Schema
