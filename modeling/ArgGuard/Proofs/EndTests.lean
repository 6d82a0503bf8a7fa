import ArgGuard.Proofs.PatternTokens

/-!
# Tests for the end in patterns

A dollar sign at the end of a pattern, before a parenthesis or before a bar tests for the end of the
text, and any other interpolates. Between slashes the tests stay what they are unless an opening
parenthesis is behind them; those get a backslash like the dollar signs that interpolate, and are
read as dollar signs. An empty pattern has an empty body.
-/

namespace ArgGuard.Schema

namespace Token

/-- Behind a dollar sign that tests for the end comes nothing, a parenthesis or a bar. -/
def LeavesEndTest (next : Option Token) : Prop :=
  ∀ t ∈ next, t.text = ['('] ∨ t.text = [')'] ∨ t.text = ['|']

instance (next : Option Token) : Decidable (LeavesEndTest next) := by
  unfold LeavesEndTest
  infer_instance

/-- A token opens a group. -/
def OpensGroup (next : Option Token) : Prop := next.map text = some ['(']

instance (next : Option Token) : Decidable (OpensGroup next) := by
  unfold OpensGroup
  infer_instance

/-- A token is a dollar sign that tests for the end of the text. -/
def IsEndTest (ts : List Token) (i : Nat) : Prop :=
  ts[i]?.map text = some ['$'] ∧ LeavesEndTest ts[i + 1]?

instance (ts : List Token) (i : Nat) : Decidable (IsEndTest ts i) := by
  unfold IsEndTest
  infer_instance

/-- A token is a dollar sign that interpolates. -/
def Interpolates (ts : List Token) (i : Nat) : Prop :=
  ts[i]?.map text = some ['$'] ∧ ¬ LeavesEndTest ts[i + 1]?

variable {ts : List Token} {t : Token} {next : Option Token} {i : Nat}

/-- What ends a branch is what stands behind a test for the end, opening parentheses apart. -/
theorem endsBranch_iff : EndsBranch next ↔ LeavesEndTest next ∧ ¬ OpensGroup next := by
  cases next with
  | none => simp [EndsBranch, LeavesEndTest, OpensGroup]
  | some t =>
    simp only [EndsBranch, LeavesEndTest, OpensGroup, Option.mem_some_iff, forall_eq',
      Option.map_some, Option.some.injEq]
    constructor
    · rintro (h | h) <;> simp [h]
    · rintro ⟨h, hopen⟩
      exact h.resolve_left hopen

/-- A dollar sign is left between slashes exactly if the next token ends a branch. -/
theorem text_shield_eq_dollar_iff :
    (t.shield next).text = ['$'] ↔ t.text = ['$'] ∧ EndsBranch next := by
  cases t with
  | pair c => simp [shield, text]
  | lone c h =>
    by_cases hc : c = '$'
    · subst hc
      by_cases hends : EndsBranch next <;> simp [shield, text, hends]
    · by_cases hs : c = '/' ∨ c = '@' <;> simp [shield, hs, text, hc]

/-- A dollar sign in front of anything that does not end a branch gets a backslash. -/
theorem shield_of_dollar (ht : t.text = ['$']) (hnext : ¬ EndsBranch next) :
    t.shield next = pair '$' := by
  cases t with
  | pair c => simp [text] at ht
  | lone c h =>
    obtain rfl : c = '$' := by simpa [text] using ht
    simp [shield, hnext]

/-- The dollar signs that are left between slashes are those in front of tokens that end a branch.
-/
theorem shields_dollar_iff :
    (shields ts)[i]?.map text = some ['$'] ↔
      ts[i]?.map text = some ['$'] ∧ EndsBranch ts[i + 1]? := by
  rw [getElem?_shields]
  cases ts[i]? with
  | none => simp
  | some t => simpa using text_shield_eq_dollar_iff

/-- The tests for the end between slashes are those of the tokens, unless a group opens behind
them. -/
theorem isEndTest_shields_iff :
    IsEndTest (shields ts) i ↔ IsEndTest ts i ∧ ¬ OpensGroup ts[i + 1]? := by
  unfold IsEndTest
  rw [shields_dollar_iff, endsBranch_iff]
  constructor
  · rintro ⟨⟨hdollar, hnext⟩, -⟩
    exact ⟨⟨hdollar, hnext.1⟩, hnext.2⟩
  · rintro ⟨⟨hdollar, hnext⟩, hopen⟩
    refine ⟨⟨hdollar, hnext, hopen⟩, ?_⟩
    -- The token behind it ends a branch, and so it is between slashes what it was.
    rw [getElem?_shields, (endsBranch_iff.2 ⟨hnext, hopen⟩).map_shield]
    exact hnext

/-- No dollar sign between slashes interpolates. -/
theorem not_interpolates_shields : ¬ Interpolates (shields ts) i := by
  rintro ⟨hdollar, hnext⟩
  have hends := shields_dollar_iff.1 hdollar
  rw [getElem?_shields, hends.2.map_shield] at hnext
  exact hnext (endsBranch_iff.1 hends.2).1

/-- A dollar sign that is not left between slashes is there behind a backslash. -/
theorem shields_of_dollar (hdollar : ts[i]?.map text = some ['$'])
    (hnext : ¬ EndsBranch ts[i + 1]?) : (shields ts)[i]? = some (pair '$') := by
  obtain ⟨t, ht, hdollar⟩ := Option.map_eq_some_iff.1 hdollar
  rw [getElem?_shields, ht, Option.map_some, shield_of_dollar hdollar hnext]

/-- Only no tokens are nothing between slashes. -/
theorem join_shields_eq_nil_iff : join (shields ts) = [] ↔ join ts = [] := by
  have hjoin (us : List Token) : join us = [] ↔ us = [] := by
    cases us with
    | nil => simp [join]
    | cons u us => cases u <;> simp [join, text]
  rw [hjoin, hjoin, ← List.length_eq_zero_iff, length_shields, List.length_eq_zero_iff]

end Token

/-- A clause with a pattern puts its body between slashes. -/
theorem clauseFailure_matching (pattern data : Text) :
    clauseFailure .str "match" (.string pattern) data = do
      let body ← patternBody pattern
      return ("!(" ++ data ++ " =~ /" ++ body ++ "/)", "Must match pattern " ++ pattern) := by
  have hclause : Clause.ofName? "match" = some .matching := rfl
  simp only [clauseFailure, hclause, ne_eq, not_true_eq_false, if_false]

/-- The body of a pattern that is accepted for texts is empty only for an empty pattern. Its tests
for the end are those of the pattern, except for those with an opening parenthesis behind them.
These get a backslash, and so do the dollar signs that interpolate; none is left that does. -/
theorem endTests_of_matching {pattern data failure message : Text}
    (h : clauseFailure .str "match" (.string pattern) data = .ok (failure, message)) :
    ∃ (body : Text) (ts us : List Token),
      failure = "!(" ++ data ++ " =~ /" ++ body ++ "/)" ∧
      Token.read? pattern = some ts ∧ Token.read? body = some us ∧
      (body = [] ↔ pattern = []) ∧
      (∀ i, Token.IsEndTest us i ↔ Token.IsEndTest ts i ∧ ¬ Token.OpensGroup ts[i + 1]?) ∧
      (∀ i, Token.IsEndTest ts i → Token.OpensGroup ts[i + 1]? → us[i]? = some (.pair '$')) ∧
      (∀ i, Token.Interpolates ts i → us[i]? = some (.pair '$')) ∧
      ∀ i, ¬ Token.Interpolates us i := by
  rw [clauseFailure_matching] at h
  obtain ⟨body, hbody, hparts⟩ := bind_eq_ok_iff.1 h
  obtain ⟨rfl, -⟩ := Prod.mk.inj (pure_eq_ok_iff.1 hparts)
  have hslashed := slashed?_of_patternBody hbody
  obtain ⟨ts, rfl⟩ := exists_tokens_of_slashed? hslashed
  obtain rfl : Token.join (Token.shields ts) = body :=
    Option.some.inj ((Token.slashed?_join ts).symm.trans hslashed)
  refine ⟨_, ts, Token.shields ts, rfl, Token.read?_join _, Token.read?_join _,
    Token.join_shields_eq_nil_iff, fun i => Token.isEndTest_shields_iff, fun i htest hopen => ?_,
    fun i hdollar => ?_, fun i => Token.not_interpolates_shields⟩
  · exact Token.shields_of_dollar htest.1 fun hends => (Token.endsBranch_iff.1 hends).2 hopen
  · exact Token.shields_of_dollar hdollar.1 fun hends => hdollar.2 (Token.endsBranch_iff.1 hends).1

/-- A pattern that looks past its test for the end, where no line break may follow. -/
def lookaheadPattern : Text := "^a$(?!\\n)"

/-- Its tokens. -/
def lookaheadTokens : List Token :=
  [.lone '^' (by decide), .lone 'a' (by decide), .lone '$' (by decide), .lone '(' (by decide),
    .lone '?' (by decide), .lone '!' (by decide), .pair 'n', .lone ')' (by decide)]

/-- Its test for the end is none between slashes. -/
theorem endTests_of_matching_lookahead :
    ∃ (message body : Text) (us : List Token),
      clauseFailure .str "match" (.string lookaheadPattern) "$x" =
        .ok ("!($x =~ /^a\\$(?!\\n)/)", message) ∧
      ("!($x =~ /^a\\$(?!\\n)/)" : Text) = "!(" ++ "$x" ++ " =~ /" ++ body ++ "/)" ∧
      Token.read? lookaheadPattern = some lookaheadTokens ∧ Token.read? body = some us ∧
      Token.IsEndTest lookaheadTokens 2 ∧ ¬ Token.IsEndTest us 2 := by
  have hbody : patternBody lookaheadPattern = .ok "^a\\$(?!\\n)" := by decide
  have h : clauseFailure .str "match" (.string lookaheadPattern) "$x" =
      .ok ("!($x =~ /^a\\$(?!\\n)/)", "Must match pattern " ++ lookaheadPattern) := by
    rw [clauseFailure_matching, hbody]
    rfl
  have hjoin : Token.join lookaheadTokens = lookaheadPattern := by decide
  have htokens : Token.read? lookaheadPattern = some lookaheadTokens := by
    rw [← hjoin, Token.read?_join]
  obtain ⟨body, ts, us, hfailure, hts, hus, -, htests, -⟩ := endTests_of_matching h
  obtain rfl := Option.some.inj (htokens.symm.trans hts)
  have htest : Token.IsEndTest lookaheadTokens 2 := by decide
  have hopen : Token.OpensGroup lookaheadTokens[3]? := by decide
  exact ⟨_, body, us, h, hfailure, htokens, hus, htest, fun hkept => ((htests 2).1 hkept).2 hopen⟩

end ArgGuard.Schema
