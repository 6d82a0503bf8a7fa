import ArgGuard.Proofs.SchemaLanguage

/-!
# Spellings of schemas

A schema is a type, whether its data must be defined, and clauses, and each of these can be spelled
in more than one way: the type by two names, the type name alone or in an array, and the requirement
by a star or by a `req` anywhere among the clauses. Whatever the request, all spellings of a schema
come to one result, and spellings that differ in what they require come to different code.
-/

namespace ArgGuard.Schema

/-- Members none of which is a `req`. -/
def HasNoReq (members : List (Text × Json.Value)) : Prop := ∀ m ∈ members, m.1 ≠ "req"

/-- The spellings of a schema with a type name, the requirement that data is defined or not, and
clauses. -/
inductive Spells (name : Text) : Bool → List (Text × Json.Value) → Json.Value → Prop
  /-- The star behind the type name, or its absence, tells what is required. -/
  | star {value : Json.Value} {star : Bool} {clauses : List (Text × Json.Value)}
      (hshape : Shape value (starred name star) clauses) (hreq : HasNoReq clauses) :
      Spells name star clauses value
  /-- A `req` somewhere among the clauses tells it too. A star requires what a `req` does not. -/
  | req {value : Json.Value} {star b : Bool} {before after : List (Text × Json.Value)}
      (hshape : Shape value (starred name star) (before ++ (("req" : Text), .bool b) :: after))
      (hreq : HasNoReq (before ++ after)) : Spells name (star || b) (before ++ after) value

/-- One type name, or two names of one type. -/
def NameSameType (name other : Text) : Prop :=
  name = other ∨ ∃ type, SchemaType.Named name type ∧ SchemaType.Named other type

variable {name other : Text} {star required : Bool} {value : Json.Value} {type : SchemaType}
  {members clauses : List (Text × Json.Value)} {request : CompileRequest}

section Reading

/-- A star behind a name that ends in none is the star of the schema. -/
theorem cutStar_starred_of_getLast? (h : name.getLast? ≠ some '*') (star : Bool) :
    cutStar (starred name star) = (name, star) := by
  cases star with
  | true => simp [cutStar, starred]
  | false =>
    rw [starred, if_neg Bool.false_ne_true, cutStar]
    split
    next rest hrest => exact absurd (by rw [List.getLast?_eq_head?_reverse, hrest]; rfl) h
    next => rfl

/-- No type name ends in a star. -/
theorem getLast?_ne_of_named (h : SchemaType.Named name type) : name.getLast? ≠ some '*' := by
  cases h <;> decide

/-- Members without a `req` ask for nothing. -/
theorem asksDefined_of_hasNoReq (h : HasNoReq members) : asksDefined members = .ok false := by
  induction members with
  | nil => rfl
  | cons member rest ih =>
    obtain ⟨hmember, hrest⟩ := List.forall_mem_cons.1 h
    rw [asksDefined_of_ne hmember, ih hrest]

/-- Members with one `req` ask for what it says, wherever it stands. -/
theorem asksDefined_of_req {before after : List (Text × Json.Value)}
    (h : HasNoReq (before ++ after)) (b : Bool) :
    asksDefined (before ++ (("req" : Text), .bool b) :: after) = .ok b := by
  induction before with
  | nil =>
    have hafter : HasNoReq after := h
    rw [List.nil_append, asksDefined_bool, asksDefined_of_hasNoReq hafter]
    exact congrArg Except.ok (Bool.or_false b)
  | cons member rest ih =>
    obtain ⟨hmember, hrest⟩ := List.forall_mem_cons.1 h
    rw [List.cons_append, asksDefined_of_ne hmember, ih hrest]

/-- Members without a `req` are all clauses. -/
theorem clausesOf_of_hasNoReq (h : HasNoReq members) : clausesOf members = members :=
  List.filter_eq_self.2 fun m hm => by simpa using h m hm

/-- A `req` is no clause, and the others stay in order. -/
theorem clausesOf_of_req {before after : List (Text × Json.Value)}
    (h : HasNoReq (before ++ after)) (b : Bool) :
    clausesOf (before ++ (("req" : Text), .bool b) :: after) = before ++ after := by
  rw [← clausesOf_of_hasNoReq h]
  simp [clausesOf]

/-- A type name and members make the schema with what they ask for, if the name is one of a type. -/
theorem ofParts_starred (hname : name.getLast? ≠ some '*') {defined : Bool}
    (hdefined : asksDefined members = .ok defined) :
    ofParts (starred name star) members =
      match SchemaType.ofName? name with
      | none => .error (.unknownType name)
      | some type => .ok ⟨type, star || defined, clausesOf members⟩ := by
  simp only [ofParts, cutStar_starred_of_getLast? hname, hdefined]
  cases SchemaType.ofName? name <;> rfl

/-- A spelling is read as the schema that it spells, if its type is known. -/
theorem ofValue_of_spells (hname : name.getLast? ≠ some '*')
    (h : Spells name required clauses value) :
    ofValue value =
      match SchemaType.ofName? name with
      | none => .error (.unknownType name)
      | some type => .ok ⟨type, required, clauses⟩ := by
  cases h with
  | star hshape hreq =>
    rw [ofValue_of_shape hshape, ofParts_starred hname (asksDefined_of_hasNoReq hreq),
      clausesOf_of_hasNoReq hreq, Bool.or_false]
  | req hshape hreq =>
    rw [ofValue_of_shape hshape, ofParts_starred hname (asksDefined_of_req hreq _),
      clausesOf_of_req hreq]

/-- Spellings of one schema are read as the same. -/
theorem ofValue_of_sameType {v w : Json.Value} (hname : name.getLast? ≠ some '*')
    (hsame : NameSameType name other) (hv : Spells name required clauses v)
    (hw : Spells other required clauses w) : ofValue w = ofValue v := by
  rcases hsame with rfl | ⟨type, hn, ho⟩
  · rw [ofValue_of_spells hname hv, ofValue_of_spells hname hw]
  · rw [ofValue_of_spells hname hv, ofValue_of_spells (getLast?_ne_of_named ho) hw,
      SchemaType.ofName?_eq_some_iff.2 hn, SchemaType.ofName?_eq_some_iff.2 ho]

end Reading

section Results

/-- A request comes to its result through what its schema is read as. -/
theorem compile_of_ofValue_eq {v w : Json.Value} (h : ofValue w = ofValue v)
    (request : CompileRequest) :
    compile { request with schema := w } = compile { request with schema := v } := by
  simp only [compile, h]
  rfl

/-- The lines for a schema of data that must be defined start with the comment on that check. -/
theorem bodyLines_required (type : SchemaType) (clauses : List (Text × Json.Value)) (data : Text)
    (own : List Check) (request : CompileRequest) :
    ∃ comment rest, bodyLines ⟨type, true, clauses⟩ (inOrder type true data own) request =
      ('#' :: ' ' :: 'c' :: comment) :: rest :=
  ⟨"heck required", _, rfl⟩

/-- The lines for any other schema start with another comment. -/
theorem bodyLines_optional (type : SchemaType) (clauses : List (Text × Json.Value))
    (checks : List Check) (request : CompileRequest) :
    ∃ c comment rest, bodyLines ⟨type, false, clauses⟩ checks request =
      ('#' :: ' ' :: c :: comment) :: rest ∧ c ≠ 'c' := by
  cases checks with
  | nil => exact ⟨'n', "othing to check", _, rfl, by decide⟩
  | cons check checks => exact ⟨'s', "kip when undefined", _, rfl, by decide⟩

/-- The first line of the code for data of a name and a type, with its ending. -/
def title (type : SchemaType) (dataName : Text) : Text :=
  "# validate '" ++ Text.escaped dataName ++ "' against schema of type '" ++ type.name ++ "'" ++
    ['\n']

/-- Behind its title, code is the lines for its checks. -/
theorem code_eq (schema : Schema) (checks : List Check) (request : CompileRequest) :
    schema.code checks request = title schema.type request.dataName ++
      (bodyLines schema checks request).flatMap (· ++ ['\n']) := by
  unfold code title
  rw [List.flatMap_cons]

/-- The code for a schema of data that must be defined is not that of one of the same type for data
of the same name that need not be. -/
theorem code_ne_code (type : SchemaType) (data : Text) (clauses : List (Text × Json.Value))
    (own checks : List Check) {request other : CompileRequest}
    (hname : request.dataName = other.dataName) :
    code ⟨type, true, clauses⟩ (inOrder type true data own) request ≠
      code ⟨type, false, clauses⟩ checks other := by
  intro h
  obtain ⟨comment, rest, hrest⟩ := bodyLines_required type clauses data own request
  obtain ⟨c, others, behind, hothers, hc⟩ := bodyLines_optional type clauses checks other
  rw [code_eq, code_eq, hname, hrest, hothers] at h
  -- Behind equal titles the second lines are comments that differ in their first letter.
  have hlines := List.append_cancel_left h
  simp only [List.flatMap_cons, List.cons_append, List.cons.injEq, true_and] at hlines
  exact hc hlines.1.symm

/-- A schema compiles only to a message. -/
theorem returnKind_of_compile {result : Text} (h : compile request = .ok result) :
    request.returnKind = .str := by
  by_contra hr
  simp only [compile, ne_eq, hr, not_false_eq_true, if_true] at h
  obtain ⟨_, hthrow, -⟩ := bind_eq_ok_iff.1 h
  exact throw_ne_ok hthrow

/-- A spelling that compiles comes to the code of the schema that it spells. -/
theorem exists_code_of_spells (hname : name.getLast? ≠ some '*')
    (h : Spells name required clauses value) {result : Text}
    (hresult : compile { request with schema := value } = .ok result) :
    ∃ type own, SchemaType.ofName? name = some type ∧
      result = code ⟨type, required, clauses⟩ (inOrder type required request.dataTerm own)
        { request with schema := value } := by
  have hr := returnKind_of_compile hresult
  obtain ⟨schema, checks, hvalue, hchecks, rfl⟩ := (compile_eq_ok_iff hr).1 hresult
  rw [ofValue_of_spells hname h] at hvalue
  cases htype : SchemaType.ofName? name with
  | none => simp [htype] at hvalue
  | some type =>
    simp only [htype, Except.ok.injEq] at hvalue
    subst hvalue
    obtain ⟨own, -, hall⟩ := bind_eq_ok_iff.1 hchecks
    obtain rfl : inOrder type required request.dataTerm own = checks := pure_eq_ok_iff.1 hall
    exact ⟨type, own, rfl, rfl⟩

/-- Spellings of one type and the same clauses that differ in what they require never come to the
same code. -/
theorem code_of_spells_ne {v w : Json.Value} (hname : name.getLast? ≠ some '*')
    (hother : other.getLast? ≠ some '*')
    (htype : SchemaType.ofName? name = SchemaType.ofName? other) (hv : Spells name true clauses v)
    (hw : Spells other false clauses w) {result : Text}
    (hresult : compile { request with schema := v } = .ok result) :
    compile { request with schema := w } ≠ .ok result := by
  intro hsame
  obtain ⟨type, own, hn, rfl⟩ := exists_code_of_spells hname hv hresult
  obtain ⟨type', others, ho, hcode⟩ := exists_code_of_spells hother hw hsame
  obtain rfl : type = type' := Option.some.inj (hn.symm.trans (htype.trans ho))
  exact code_ne_code type request.dataTerm clauses own _ rfl hcode

/-- Two names of one type are read as the same, and neither ends in a star. -/
theorem NameSameType.ofName?_eq (h : NameSameType name other) (hname : name.getLast? ≠ some '*') :
    SchemaType.ofName? name = SchemaType.ofName? other ∧ other.getLast? ≠ some '*' := by
  rcases h with rfl | ⟨type, hn, ho⟩
  · exact ⟨rfl, hname⟩
  · exact ⟨(SchemaType.ofName?_eq_some_iff.2 hn).trans (SchemaType.ofName?_eq_some_iff.2 ho).symm,
      getLast?_ne_of_named ho⟩

/-- All spellings of a schema come to one result for every request, be it code or an error: the type
name alone or in an array, a star or a `req` anywhere among the clauses, and either name of a type.
A spelling that differs only in what it requires never comes to the same code. -/
theorem compile_spellings (hname : name.getLast? ≠ some '*') (hsame : NameSameType name other)
    {v : Json.Value} (hv : Spells name required clauses v) (request : CompileRequest) :
    (∀ w, Spells other required clauses w →
      compile { request with schema := w } = compile { request with schema := v }) ∧
    ∀ w, Spells other (!required) clauses w → ∀ result,
      compile { request with schema := v } = .ok result →
        compile { request with schema := w } ≠ .ok result := by
  obtain ⟨htype, hother⟩ := hsame.ofName?_eq hname
  refine ⟨fun w hw => ?_, fun w hw result hresult hagain => ?_⟩
  · exact compile_of_ofValue_eq (ofValue_of_sameType hname hsame hv hw) request
  · cases required with
    | true => exact code_of_spells_ne hname hother htype hv hw hresult hagain
    | false => exact code_of_spells_ne hother hname htype.symm hw hv hagain hresult

/-- Clauses for a number. -/
def numberClauses : List (Text × Json.Value) :=
  [("min", .number (.int 1)), ("max", .number (.int 9))]

/-- A number that must be defined, by a star. -/
def starredNumber : Json.Value := .array [.string "num*", .object numberClauses]

/-- A number by its other name, with a `req` between the clauses. -/
def floatWithReq (b : Bool) : Json.Value :=
  .array [.string "float",
    .object [("min", .number (.int 1)), ("req", .bool b), ("max", .number (.int 9))]]

/-- A request for a number. -/
def numberRequest : CompileRequest where
  schema := starredNumber
  errTerm := "$err"
  dataTerm := "$n"
  dataName := "n"
  returnKind := .str

/-- With a true `req` the other name comes to the code of the star, and with a false one to other
code. -/
theorem compile_spellings_starredNumber :
    NameSameType "num" "float" ∧ Spells "num" true numberClauses starredNumber ∧
    Spells "float" true numberClauses (floatWithReq true) ∧
    Spells "float" false numberClauses (floatWithReq false) ∧
    compile { numberRequest with schema := floatWithReq true } = compile numberRequest ∧
    compile { numberRequest with schema := floatWithReq false } ≠ compile numberRequest := by
  have hreq : HasNoReq numberClauses := by
    unfold HasNoReq
    decide
  have hsame : NameSameType "num" "float" := .inr ⟨.float, .num, .float⟩
  have hstar : Spells "num" true numberClauses starredNumber :=
    .star (.clauses (starred "num" true) numberClauses) hreq
  have hspells (b : Bool) : Spells "float" (false || b) numberClauses (floatWithReq b) :=
    @Spells.req "float" (floatWithReq b) false b [("min", .number (.int 1))]
      [("max", .number (.int 9))] (.clauses (starred "float" false) _) hreq
  obtain ⟨hequal, hother⟩ := compile_spellings (by decide) hsame hstar numberRequest
  obtain ⟨result, hresult⟩ : ∃ result, compile numberRequest = .ok result := ⟨_, rfl⟩
  exact ⟨hsame, hstar, hspells true, hspells false, hequal _ (hspells true),
    fun h => hother _ (hspells false) result hresult (h.trans hresult)⟩

end Results

end ArgGuard.Schema
