import ArgGuard.Proofs.ClauseLanguage
import ArgGuard.Proofs.Compiled

/-!
# The language of schemas

The schemas that compile are those of a small language: a type name, perhaps with a star, alone or
in an array, there perhaps with an object of clauses. Each member of that object is a `req` with a
truth value, or a clause that applies to the type with a value that it takes. A schema outside of
the language is refused for its shape, its type, a `req` that is no truth value, and then for the
first of its clauses that is not admitted.
-/

namespace ArgGuard

namespace SchemaType

/-- The names of types in a schema. -/
inductive Named : Text → SchemaType → Prop
  /-- Anything. -/
  | any : Named "any" .any
  /-- A truth value. -/
  | bool : Named "bool" .bool
  /-- An integer. -/
  | int : Named "int" .int
  /-- A number. -/
  | float : Named "float" .float
  /-- Another name for a number. -/
  | num : Named "num" .float
  /-- A text. -/
  | str : Named "str" .str
  /-- A reference to an array. -/
  | array : Named "array" .array
  /-- A reference to a hash. -/
  | hash : Named "hash" .hash
  /-- A regular expression. -/
  | re : Named "re" .re

/-- The type of a name is the one with that name. -/
theorem ofName?_eq_some_iff {name : Text} {type : SchemaType} :
    ofName? name = some type ↔ Named name type := by
  constructor
  · intro h
    by_cases hnum : name = "num"
    · subst hnum
      obtain rfl : SchemaType.float = type := Option.some.inj h
      exact .num
    · rw [ofName?, if_neg hnum] at h
      have hname := List.find?_some h
      simp only [decide_eq_true_eq] at hname
      subst hname
      cases type <;> constructor
  · intro h
    cases h <;> rfl

end SchemaType

namespace Schema

/-- A type name, with a star behind it or without. -/
def starred (base : Text) (star : Bool) : Text := if star then base ++ ['*'] else base

/-- The JSON values of the shape of a schema, with the type name and the members that they have. -/
inductive Shape : Json.Value → Text → List (Text × Json.Value) → Prop
  /-- A type name alone. -/
  | name (name : Text) : Shape (.string name) name []
  /-- A type name in an array. -/
  | single (name : Text) : Shape (.array [.string name]) name []
  /-- A type name and an object of clauses. -/
  | clauses (name : Text) (members : List (Text × Json.Value)) :
      Shape (.array [.string name, .object members]) name members

/-- The members that an object of clauses may have for a type. -/
inductive Admits (type : SchemaType) : Text × Json.Value → Prop
  /-- Whether the data must be defined. -/
  | req (b : Bool) : Admits type ("req", .bool b)
  /-- A clause with a value that it takes. -/
  | clause {name : Text} {value : Json.Value} {c : Clause} (hc : Clause.Named name c)
      (hv : c.Takes type value) : Admits type (name, value)

/-- What is wrong with a member that is no `req`, for a type. -/
inductive Blames (type : SchemaType) : Text × Json.Value → CompileError → Prop
  /-- It is no clause. -/
  | unknown {name : Text} {value : Json.Value} (hc : ∀ c, ¬ Clause.Named name c) :
      Blames type (name, value) (.unsupportedClause type.name name)
  /-- It is a clause that does not apply to the type. -/
  | unsupported {name : Text} {value : Json.Value} {c : Clause} (hc : Clause.Named name c)
      (ha : ¬ c.AppliesTo type) : Blames type (name, value) (.unsupportedClause type.name name)
  /-- It is a clause with a value that it refuses. -/
  | value {name reason : Text} {value : Json.Value} {c : Clause} (hc : Clause.Named name c)
      (ha : c.AppliesTo type) (hv : c.Refuses type value reason) :
      Blames type (name, value) (.clauseValue name reason)

/-- Each `req` among members is a truth value. -/
def ReqsAreBools (members : List (Text × Json.Value)) : Prop :=
  ∀ value, (("req" : Text), value) ∈ members → ∃ b, value = Json.Value.bool b

/-- The offence for which the members of an object are refused: a `req` that is no truth value, or
else the first member that is not admitted. -/
inductive FirstOffence (type : SchemaType) (members : List (Text × Json.Value)) :
    CompileError → Prop
  /-- Some `req` is no truth value. -/
  | req (h : ¬ ReqsAreBools members) :
      FirstOffence type members (.clauseValue "req" "expected a boolean")
  /-- Each `req` is a truth value, and some other member is the first that is not admitted. -/
  | clause {before after : List (Text × Json.Value)} {member : Text × Json.Value}
      {e : CompileError} (hreq : ReqsAreBools members)
      (hsplit : members = before ++ member :: after) (hbefore : ∀ m ∈ before, Admits type m)
      (hname : member.1 ≠ "req") (he : Blames type member e) : FirstOffence type members e

/-- The language of schemas. -/
def Accepted (value : Json.Value) : Prop :=
  ∃ base type star members, Shape value (starred base star) members ∧
    SchemaType.Named base type ∧ ∀ member ∈ members, Admits type member

variable {type : SchemaType} {data base name : Text} {star : Bool} {value : Json.Value}
  {member : Text × Json.Value} {members : List (Text × Json.Value)} {e : CompileError}

section Members

/-- A member that is no `req` is admitted or to blame. -/
theorem admits_or_blames (hname : member.1 ≠ "req") (hfits : member.2.fits) (type : SchemaType) :
    Admits type member ∨ ∃ e, Blames type member e := by
  obtain ⟨name, value⟩ := member
  by_cases hc : ∃ c, Clause.Named name c
  · obtain ⟨c, hc⟩ := hc
    by_cases ha : c.AppliesTo type
    · rcases takes_or_refuses ha hfits with hv | ⟨reason, hv⟩
      · exact .inl (.clause hc hv)
      · exact .inr ⟨_, .value hc ha hv⟩
    · exact .inr ⟨_, .unsupported hc ha⟩
  · exact .inr ⟨_, .unknown (not_exists.1 hc)⟩

/-- A member that is admitted compiles, unless it is a `req`. -/
theorem clauseCheck_of_admits (hname : member.1 ≠ "req") (h : Admits type member) (data : Text) :
    ∃ check, clauseCheck type data member = .ok check := by
  cases h with
  | req b => exact absurd rfl hname
  | clause hc hv =>
    obtain ⟨⟨failure, message⟩, hresult⟩ := clauseFailure_of_takes hc hv data
    exact ⟨_, clauseCheck_eq_ok_iff.2 ⟨failure, message, hresult, rfl⟩⟩

/-- A member that is to blame does not compile. -/
theorem clauseCheck_of_blames (h : Blames type member e) (data : Text) :
    clauseCheck type data member = .error e := by
  rw [clauseCheck, bind_eq_error_iff]
  cases h with
  | unknown hc => exact .inl (clauseFailure_of_unknown hc)
  | unsupported hc ha => exact .inl (clauseFailure_of_not_appliesTo hc ha)
  | value hc ha hv => exact .inl (clauseFailure_of_refuses hc ha hv)

/-- Clauses compile where each is admitted. -/
theorem clauseChecks_of_admits (hname : ∀ m ∈ members, m.1 ≠ "req")
    (h : ∀ m ∈ members, Admits type m) (data : Text) :
    ∃ checks, clauseChecks type data members = .ok checks := by
  induction members with
  | nil => exact ⟨[], rfl⟩
  | cons member rest ih =>
    obtain ⟨hmember, hrest⟩ := List.forall_mem_cons.1 h
    obtain ⟨hname, hnames⟩ := List.forall_mem_cons.1 hname
    obtain ⟨check, hcheck⟩ := clauseCheck_of_admits hname hmember data
    obtain ⟨checks, hchecks⟩ := ih hnames hrest
    exact ⟨check :: checks, by simp only [clauseChecks, hcheck, hchecks]; rfl⟩

/-- Clauses do not compile for the first that is not admitted. -/
theorem clauseChecks_of_blames {before after : List (Text × Json.Value)}
    (hname : ∀ m ∈ before, m.1 ≠ "req") (hbefore : ∀ m ∈ before, Admits type m)
    (h : Blames type member e) (data : Text) :
    clauseChecks type data (before ++ member :: after) = .error e := by
  induction before with
  | nil =>
    rw [List.nil_append, clauseChecks, clauseCheck_of_blames h]
    rfl
  | cons first rest ih =>
    obtain ⟨hfirst, hrest⟩ := List.forall_mem_cons.1 hbefore
    obtain ⟨hname, hnames⟩ := List.forall_mem_cons.1 hname
    obtain ⟨check, hcheck⟩ := clauseCheck_of_admits hname hfirst data
    rw [List.cons_append, clauseChecks, hcheck, ih hnames hrest]
    rfl

/-- A `req` with a truth value counts with the others. -/
theorem asksDefined_bool (b : Bool) (rest : List (Text × Json.Value)) :
    asksDefined (("req", .bool b) :: rest) = (asksDefined rest).map fun others => b || others := by
  have hreq : asksDefined (("req", .bool b) :: rest) = do return b || (← asksDefined rest) := rfl
  rw [hreq]
  cases asksDefined rest <;> rfl

/-- A `req` that is no truth value is refused. -/
theorem asksDefined_of_not_bool (hv : ∀ b, value ≠ Json.Value.bool b)
    (rest : List (Text × Json.Value)) :
    asksDefined (("req", value) :: rest) = .error (.clauseValue "req" "expected a boolean") := by
  cases value with
  | bool b => exact absurd rfl (hv b)
  | _ => rfl

/-- Any other member does not count. -/
theorem asksDefined_of_ne (hname : name ≠ "req") (rest : List (Text × Json.Value)) :
    asksDefined ((name, value) :: rest) = asksDefined rest := by
  rw [asksDefined.eq_def]
  simp only [if_neg hname]

/-- Where each `req` is a truth value, the data must be defined if one of them is true. -/
theorem asksDefined_of_bools (h : ReqsAreBools members) :
    ∃ b, asksDefined members = .ok b ∧ (b ↔ (("req" : Text), Json.Value.bool true) ∈ members) := by
  induction members with
  | nil => exact ⟨false, rfl, by simp⟩
  | cons member rest ih =>
    obtain ⟨name, value⟩ := member
    obtain ⟨b, hb, hmem⟩ := ih fun value hv => h value (List.mem_cons_of_mem _ hv)
    by_cases hname : name = "req"
    · subst hname
      obtain ⟨first, rfl⟩ := h value List.mem_cons_self
      refine ⟨first || b, by rw [asksDefined_bool, hb]; rfl, ?_⟩
      rw [List.mem_cons, ← hmem]
      cases first <;> simp
    · refine ⟨b, by rw [asksDefined_of_ne hname, hb], ?_⟩
      rw [List.mem_cons, ← hmem]
      exact ⟨.inr, fun h => h.resolve_left fun h => hname (Prod.mk.inj h).1.symm⟩

/-- Any `req` that is no truth value is refused. -/
theorem asksDefined_of_not_bools (h : ¬ ReqsAreBools members) :
    asksDefined members = .error (.clauseValue "req" "expected a boolean") := by
  simp only [ReqsAreBools, not_forall, not_exists] at h
  obtain ⟨value, hmem, hv⟩ := h
  induction members with
  | nil => exact absurd hmem List.not_mem_nil
  | cons member rest ih =>
    obtain ⟨name, first⟩ := member
    rcases List.mem_cons.1 hmem with hfirst | hrest
    · obtain ⟨rfl, rfl⟩ := Prod.mk.inj hfirst
      exact asksDefined_of_not_bool hv rest
    · by_cases hname : name = "req"
      · subst hname
        by_cases hbool : ∃ b, first = .bool b
        · obtain ⟨b, rfl⟩ := hbool
          rw [asksDefined_bool, ih hrest]
          rfl
        · exact asksDefined_of_not_bool (not_exists.1 hbool) rest
      · rw [asksDefined_of_ne hname, ih hrest]

/-- The members of an object are all admitted, or one is the first offence. -/
theorem admits_or_firstOffence (hfits : ∀ m ∈ members, m.2.fits) (type : SchemaType) :
    (∀ m ∈ members, Admits type m) ∨ ∃ e, FirstOffence type members e := by
  by_cases hreq : ReqsAreBools members
  · by_cases hall : ∀ m ∈ members, Admits type m
    · exact .inl hall
    · obtain ⟨before, member, after, hsplit, hbefore, hmember⟩ := exists_first_of_not_forall hall
      have hmem : member ∈ members := by rw [hsplit]; simp
      have hname : member.1 ≠ "req" := by
        obtain ⟨name, value⟩ := member
        rintro rfl
        obtain ⟨b, rfl⟩ := hreq value hmem
        exact hmember (.req b)
      obtain ⟨e, he⟩ := (admits_or_blames hname (hfits member hmem) type).resolve_left hmember
      exact .inr ⟨e, .clause hreq hsplit hbefore hname he⟩
  · exact .inr ⟨_, .req hreq⟩

end Members

section Schemas

/-- No type name ends in a star, so a star behind one is the star of the schema. -/
theorem cutStar_starred (h : SchemaType.Named base type) (star : Bool) :
    cutStar (starred base star) = (base, star) := by
  cases h <;> cases star <;> rfl

/-- A name is what is left without a star, and the star. -/
theorem starred_cutStar (name : Text) : starred (cutStar name).1 (cutStar name).2 = name := by
  unfold cutStar
  split
  next rest hrest =>
    rw [starred, if_pos rfl, ← List.reverse_cons, ← hrest, List.reverse_reverse]
  next => rfl

/-- A type name and members make a schema where each `req` is a truth value. -/
theorem ofParts_eq_ok_iff {schema : Schema} :
    ofParts name members = .ok schema ↔
      ∃ base type star defined, name = starred base star ∧ SchemaType.Named base type ∧
        asksDefined members = .ok defined ∧
        schema = ⟨type, star || defined, members.filter (·.1 ≠ "req")⟩ := by
  constructor
  · intro h
    simp only [ofParts] at h
    cases htype : SchemaType.ofName? (cutStar name).1 with
    | none => simp [htype, throw_ne_ok] at h
    | some type =>
      simp only [htype, bind_eq_ok_iff, pure_eq_ok_iff] at h
      obtain ⟨defined, hdefined, rfl⟩ := h
      exact ⟨_, type, _, defined, (starred_cutStar name).symm,
        SchemaType.ofName?_eq_some_iff.1 htype, hdefined, rfl⟩
  · rintro ⟨base, type, star, defined, rfl, hn, hdefined, rfl⟩
    simp only [ofParts, cutStar_starred hn, SchemaType.ofName?_eq_some_iff.2 hn, hdefined]
    rfl

/-- A type name and members make no schema where some `req` is no truth value. -/
theorem ofParts_of_error (hn : SchemaType.Named base type) (star : Bool)
    (h : asksDefined members = .error e) : ofParts (starred base star) members = .error e := by
  simp only [ofParts, cutStar_starred hn, SchemaType.ofName?_eq_some_iff.2 hn, h]
  rfl

/-- A value of the shape of a schema is read from its parts. -/
theorem ofValue_of_shape (h : Shape value name members) :
    ofValue value = ofParts name members := by
  cases h <;> rfl

/-- A value that is read as a schema has the shape of one. -/
theorem exists_shape_of_ofValue {schema : Schema} (h : ofValue value = .ok schema) :
    ∃ name members, Shape value name members ∧ ofParts name members = .ok schema := by
  unfold ofValue at h
  split at h
  next name => exact ⟨_, _, .name name, h⟩
  next name rest =>
    split at h
    next => exact ⟨_, _, .single name, h⟩
    next members => exact ⟨_, _, .clauses name members, h⟩
    next => simp at h
  next => simp at h
  next => simp at h

/-- The integers of a value of the shape of a schema are those of its members. -/
theorem fits_of_shape (h : Shape value name members) (hfits : value.fits) :
    ∀ m ∈ members, m.2.fits := by
  cases h with
  | name _ | single _ => exact fun m hm => absurd hm List.not_mem_nil
  | clauses name members =>
    have hmembers : Json.Value.fitsMembers members := by
      simpa [Json.Value.fits, Json.Value.fitsItems] using hfits
    exact Json.Value.fitsMembers_iff.1 hmembers

end Schemas

section Compile

variable {request : CompileRequest}

/-- Members of which each is admitted have truth values for each `req`. -/
theorem bools_of_admits (h : ∀ m ∈ members, Admits type m) : ReqsAreBools members := by
  intro value hmem
  cases h _ hmem with
  | req b => exact ⟨b, rfl⟩
  | clause hc _ => cases hc

/-- The clauses among members. -/
def clausesOf (members : List (Text × Json.Value)) : List (Text × Json.Value) :=
  members.filter fun member => member.1 ≠ "req"

/-- The checks of a schema in order: that data is defined where it must be, that it is of the type,
and then those of the clauses. -/
def inOrder (type : SchemaType) (required : Bool) (data : Text) (own : List Check) : List Check :=
  (if required then [definedCheck data] else []) ++ (typeCheck? type data).toList ++ own

/-- A schema compiles as its clauses do, where each `req` is a truth value. -/
theorem compile_eq {defined : Bool} (hr : request.returnKind = .str)
    (hshape : Shape request.schema (starred base star) members) (hn : SchemaType.Named base type)
    (hdefined : asksDefined members = .ok defined) :
    compile request =
      (clauseChecks type request.dataTerm (clausesOf members)).map fun own =>
        code ⟨type, star || defined, clausesOf members⟩
          (inOrder type (star || defined) request.dataTerm own) request := by
  have hparts := ofParts_eq_ok_iff.2 ⟨base, type, star, defined, rfl, hn, hdefined, rfl⟩
  simp only [compile, hr, ne_eq, not_true_eq_false, if_false, ofValue_of_shape hshape, hparts]
  change (clauseChecks type request.dataTerm (clausesOf members) >>= _) >>= _ = _
  cases clauseChecks type request.dataTerm (clausesOf members) <;> rfl

/-- Clauses are no `req`. -/
theorem name_ne_req_of_mem_clausesOf : ∀ m ∈ clausesOf members, m.1 ≠ "req" := by
  intro m hm
  simpa using (List.mem_filter.1 hm).2

/-- Clauses are admitted where all members are. -/
theorem admits_of_mem_clausesOf (h : ∀ m ∈ members, Admits type m) :
    ∀ m ∈ clausesOf members, Admits type m :=
  fun m hm => h m (List.mem_filter.1 hm).1

/-- A schema of the language compiles. -/
theorem compile_of_accepted (hr : request.returnKind = .str) (h : Accepted request.schema) :
    ∃ code, compile request = .ok code := by
  obtain ⟨base, type, star, members, hshape, hn, hmembers⟩ := h
  obtain ⟨defined, hdefined, -⟩ := asksDefined_of_bools (bools_of_admits hmembers)
  obtain ⟨own, hown⟩ := clauseChecks_of_admits name_ne_req_of_mem_clausesOf
    (admits_of_mem_clausesOf hmembers) request.dataTerm
  exact ⟨_, by rw [compile_eq hr hshape hn hdefined, hown]; rfl⟩

/-- A schema with an offence among its members does not compile for that offence. -/
theorem compile_of_firstOffence (hr : request.returnKind = .str)
    (hshape : Shape request.schema (starred base star) members) (hn : SchemaType.Named base type)
    (h : FirstOffence type members e) : compile request = .error e := by
  cases h with
  | req h =>
    simp only [compile, hr, ne_eq, not_true_eq_false, if_false, ofValue_of_shape hshape,
      ofParts_of_error hn star (asksDefined_of_not_bools h)]
    rfl
  | @clause before after member _ hreq hsplit hbefore hname he =>
    obtain ⟨defined, hdefined, -⟩ := asksDefined_of_bools hreq
    have hclauses : clausesOf members = clausesOf before ++ member :: clausesOf after := by
      rw [clausesOf, hsplit, List.filter_append, List.filter_cons_of_pos (by simpa using hname)]
      rfl
    rw [compile_eq hr hshape hn hdefined, hclauses,
      clauseChecks_of_blames name_ne_req_of_mem_clausesOf (admits_of_mem_clausesOf hbefore) he]
    rfl

/-- A schema that compiles is of the language. -/
theorem accepted_of_compile (hr : request.returnKind = .str) (hfits : request.schema.fits)
    {code : Text} (h : compile request = .ok code) : Accepted request.schema := by
  obtain ⟨schema, checks, hvalue, -, -⟩ := (compile_eq_ok_iff hr).1 h
  obtain ⟨name, members, hshape, hparts⟩ := exists_shape_of_ofValue hvalue
  obtain ⟨base, type, star, defined, rfl, hn, -, -⟩ := ofParts_eq_ok_iff.1 hparts
  rcases admits_or_firstOffence (fits_of_shape hshape hfits) type with hall | ⟨e, he⟩
  · exact ⟨base, type, star, members, hshape, hn, hall⟩
  · rw [compile_of_firstOffence hr hshape hn he] at h
    simp at h

/-- The schemas that compile are those of the language, and a schema of a known type that does not
compile is refused for the first offence among its members. -/
theorem compile_language (hr : request.returnKind = .str) (hfits : request.schema.fits) :
    ((∃ code, compile request = .ok code) ↔ Accepted request.schema) ∧
      ∀ base type star members, Shape request.schema (starred base star) members →
        SchemaType.Named base type →
          ∀ e, compile request = .error e ↔ FirstOffence type members e := by
  refine ⟨⟨fun ⟨code, h⟩ => accepted_of_compile hr hfits h, compile_of_accepted hr⟩, ?_⟩
  intro base type star members hshape hn e
  refine ⟨fun h => ?_, compile_of_firstOffence hr hshape hn⟩
  rcases admits_or_firstOffence (fits_of_shape hshape hfits) type with hall | ⟨e', he'⟩
  · obtain ⟨code, hcode⟩ := compile_of_accepted hr ⟨base, type, star, members, hshape, hn, hall⟩
    rw [hcode] at h
    simp at h
  · obtain rfl : e' = e := by
      rw [compile_of_firstOffence hr hshape hn he'] at h
      exact Except.error.inj h
    exact he'

/-- A request for a schema with a length of the largest integer and then two offences. -/
def longRequest : CompileRequest where
  schema := .array [.string "array*", .object [("len", .number (.int 18446744073709551615)),
    ("max", .number (.int 3)), ("in", .null)]]
  errTerm := "$err"
  dataTerm := "$data"
  dataName := "data"
  returnKind := .str

/-- That schema is refused for the first of its offences. -/
theorem compile_language_longRequest :
    longRequest.returnKind = .str ∧ longRequest.schema.fits ∧ ¬ Accepted longRequest.schema ∧
      FirstOffence .array [("len", .number (.int 18446744073709551615)),
        ("max", .number (.int 3)), ("in", .null)] (.unsupportedClause "array" "max") := by
  have hfits : longRequest.schema.fits := by decide
  have herror : compile longRequest = .error (.unsupportedClause "array" "max") := by rfl
  obtain ⟨haccepted, hoffence⟩ := compile_language rfl hfits
  refine ⟨rfl, hfits, fun h => ?_,
    (hoffence "array" .array true _ (.clauses _ _) .array _).1 herror⟩
  obtain ⟨code, hcode⟩ := haccepted.2 h
  rw [herror] at hcode
  simp at hcode

end Compile

end Schema

end ArgGuard
