import ArgGuard.Proofs.SchemaLanguage

/-!
# Compiled schemas by their parts

The code of a schema that compiles comes down to one line, which is told by the type and the members
of the schema: its checks in order, each as one branch of a chain. Neither the comments of the code
nor its layout leave anything on that line, and so the name of the data does not either.
-/

namespace ArgGuard.Schema

variable {type : SchemaType} {data : Text} {members : List (Text × Json.Value)} {required : Bool}
  {request : CompileRequest} {code : Text}

/-- The checks of clauses are those of each. -/
theorem clauseChecks_eq_ok_iff {clauses : List (Text × Json.Value)} {own : List Check} :
    clauseChecks type data clauses = .ok own ↔
      List.Forall₂ (fun clause check => clauseCheck type data clause = .ok check) clauses own := by
  induction clauses generalizing own with
  | nil => simp [clauseChecks, eq_comm]
  | cons clause rest ih =>
    simp only [clauseChecks, bind_eq_ok_iff, pure_eq_ok_iff, List.forall₂_cons_left_iff, ih]
    grind

/-- Data must be defined for members exactly if one of them is a true `req`. -/
theorem mem_iff_of_asksDefined {defined : Bool} (h : asksDefined members = .ok defined) :
    defined ↔ (("req" : Text), Json.Value.bool true) ∈ members := by
  by_cases hreq : ReqsAreBools members
  · obtain ⟨b, hb, hmem⟩ := asksDefined_of_bools hreq
    obtain rfl : b = defined := Except.ok.inj (hb.symm.trans h)
    exact hmem
  · rw [asksDefined_of_not_bools hreq] at h
    simp at h

/-- Checks on one line: nothing without any, and else a chain, which is run only when the data is
defined where it need not be. -/
def oneLine (errTerm data : Text) (required : Bool) (checks : List Check) : Text :=
  if checks.isEmpty then []
  else if required then chain errTerm checks
  else guarded data (chain errTerm checks)

/-- The checks that a schema amounts to: those of its type and its members, in order, where data
must be defined if a star stands behind the type name or a `req` is true. -/
inductive AmountsTo (data : Text) : Json.Value → Bool → List Check → Prop
  /-- The parts of a schema with the check of each clause. -/
  | parts {value : Json.Value} {base : Text} {type : SchemaType} {star required : Bool}
      {members : List (Text × Json.Value)} {own : List Check}
      (hshape : Shape value (starred base star) members) (hn : SchemaType.Named base type)
      (hreq : required ↔ star ∨ (("req" : Text), Json.Value.bool true) ∈ members)
      (hown : List.Forall₂ (fun clause check => clauseCheck type data clause = .ok check)
        (clausesOf members) own) :
      AmountsTo data value required (inOrder type required data own)

/-- A schema that compiles amounts to checks, which its code makes. -/
theorem exists_amountsTo (hr : request.returnKind = .str) (h : compile request = .ok code) :
    ∃ schema checks, AmountsTo request.dataTerm request.schema schema.required checks ∧
      ofValue request.schema = .ok schema ∧ schema.checks request.dataTerm = .ok checks ∧
      schema.code checks request = code := by
  obtain ⟨schema, checks, hvalue, hchecks, hcode⟩ := (compile_eq_ok_iff hr).1 h
  obtain ⟨name, members, hshape, hparts⟩ := exists_shape_of_ofValue hvalue
  obtain ⟨base, type, star, defined, rfl, hn, hdefined, rfl⟩ := ofParts_eq_ok_iff.1 hparts
  obtain ⟨own, hown, hall⟩ := bind_eq_ok_iff.1 hchecks
  obtain rfl : inOrder type (star || defined) request.dataTerm own = checks :=
    pure_eq_ok_iff.1 hall
  refine ⟨_, _, .parts hshape hn ?_ (clauseChecks_eq_ok_iff.1 hown), hvalue, hchecks, hcode⟩
  rw [Bool.or_eq_true, mem_iff_of_asksDefined hdefined]

/-- Squashing the code of a schema leaves its checks in order, on one line, and nothing else: not
even the name of the data. -/
theorem squash_compile (hr : request.returnKind = .str) (he : IsErrTerm request.errTerm)
    (hd : '\n' ∉ request.dataTerm) (h : compile request = .ok code) :
    ∃ required checks, AmountsTo request.dataTerm request.schema required checks ∧
      Text.squash code = oneLine request.errTerm request.dataTerm required checks ∧
      ∀ dataName, ∃ other, compile { request with dataName } = .ok other ∧
        Text.squash other = Text.squash code := by
  obtain ⟨schema, checks, hamounts, hvalue, hchecks, rfl⟩ := exists_amountsTo hr h
  have hfits := fits_of_checks hchecks
  refine ⟨schema.required, checks, hamounts, squash_code schema he hd hfits, fun dataName => ?_⟩
  refine ⟨schema.code checks { request with dataName },
    (@compile_eq_ok_iff { request with dataName } hr _).2
      ⟨schema, checks, hvalue, hchecks, rfl⟩, ?_⟩
  rw [squash_code schema he hd hfits]
  exact squash_code schema he hd hfits

/-- A request for a schema with two clauses, for data with a line break in its name. -/
def brokenNameRequest : CompileRequest where
  schema := .array [.string "str",
    .object [("min_len", .number (.int 2)), ("req", .bool false), ("match", .string "^#\\n$")]]
  errTerm := "$err"
  dataTerm := "$_[0]"
  dataName := "a\nb"
  returnKind := .str

/-- The code of that schema comes down to a guarded chain of three checks. -/
theorem squash_compile_brokenName :
    ∃ code, compile brokenNameRequest = .ok code ∧ ∃ required checks,
      AmountsTo "$_[0]" brokenNameRequest.schema required checks ∧
      Text.squash code = oneLine "$err" "$_[0]" required checks ∧
      ∀ dataName, ∃ other, compile { brokenNameRequest with dataName } = .ok other ∧
        Text.squash other = Text.squash code := by
  have he : IsErrTerm brokenNameRequest.errTerm := ⟨by decide, '$', _, rfl, by decide, by decide⟩
  exact ⟨_, rfl, squash_compile rfl he (by decide) rfl⟩

end ArgGuard.Schema
