import ArgGuard.Proofs.ClauseLanguage
import ArgGuard.Proofs.Expression

/-!
# The tokens of patterns

A pattern is read as tokens: a backslash with the character behind it, or one other character.
Between slashes each token stays what it is, or gets a backslash in front. Which one happens is told
by the token and the next one, and the next one does not change where that matters. So the body of a
pattern ends at the first slash behind it, has no sigil left but the dollar signs that are anchors,
and is its own body.
-/

namespace ArgGuard.Schema

/-- A token of a pattern. -/
inductive Token where
  /-- A backslash with the character behind it. -/
  | pair (c : Char)
  /-- Another character. -/
  | lone (c : Char) (h : c ≠ '\\')
  deriving DecidableEq, Repr

namespace Token

/-- The characters of a token. -/
def text : Token → Text
  | pair c => ['\\', c]
  | lone c _ => [c]

/-- The characters of tokens. -/
def join (ts : List Token) : Text := ts.flatMap text

/-- Read a text as tokens, unless it ends with half a pair. -/
def read? : Text → Option (List Token)
  | [] => some []
  | c :: rest =>
    if h : c = '\\' then
      match rest with
      | [] => none
      | d :: rest => (read? rest).map (pair d :: ·)
    else (read? rest).map (lone c h :: ·)

/-- Behind a dollar sign that is an anchor comes nothing, a closing parenthesis or a bar. -/
def EndsBranch (next : Option Token) : Prop :=
  ∀ t ∈ next, t.text = [')'] ∨ t.text = ['|']

instance (next : Option Token) : Decidable (EndsBranch next) := by
  unfold EndsBranch
  infer_instance

/-- What becomes of a token in front of another one between slashes. -/
def shield (next : Option Token) : Token → Token
  | pair c => pair c
  | lone c h =>
    if c = '/' ∨ c = '@' ∨ (c = '$' ∧ ¬ EndsBranch next) then pair c else lone c h

/-- What becomes of tokens between slashes. -/
def shields : List Token → List Token
  | [] => []
  | t :: rest => t.shield rest.head? :: shields rest

end Token

/-- Read a text up to the first slash that has no backslash in front of it; what is before the slash
and behind it is returned. -/
def cutAtSlash? : Text → Option (Text × Text)
  | [] => none
  | '/' :: rest => some ([], rest)
  | '\\' :: c :: rest =>
    (cutAtSlash? rest).map fun (before, behind) => ('\\' :: c :: before, behind)
  | c :: rest => (cutAtSlash? rest).map fun (before, behind) => (c :: before, behind)

namespace Token

variable {ts us : List Token} {s : Text} {t : Token} {next : Option Token}

/-- The characters of a token and others. -/
theorem join_cons (t : Token) (ts : List Token) : join (t :: ts) = t.text ++ join ts := rfl

/-- Another character than a backslash is read as a token of its own. -/
theorem read?_cons {c : Char} (h : c ≠ '\\') (s : Text) :
    read? (c :: s) = (read? s).map (lone c h :: ·) := by
  rw [read?.eq_def]
  exact dif_neg h

/-- The characters of tokens are read as these. -/
theorem read?_join (ts : List Token) : read? (join ts) = some ts := by
  induction ts with
  | nil => rfl
  | cons t ts ih =>
    cases t with
    | pair c => simp [join_cons, text, read?, ih]
    | lone c h => simp [join_cons, text, read?_cons h, ih]

/-- A dollar sign in front of tokens is an anchor if the first of them ends a branch. -/
theorem isAnchor_join : isAnchor (join ts) ↔ EndsBranch ts.head? := by
  cases ts with
  | nil => simp [join, isAnchor, EndsBranch]
  | cons t ts =>
    cases t with
    | pair c => simp [join_cons, text, isAnchor, EndsBranch]
    | lone c h => simp [join_cons, text, isAnchor, EndsBranch]

/-- Another character than a backslash is put between slashes as what stands behind it tells. -/
theorem slashed?_cons {c : Char} (h : c ≠ '\\') (s : Text) :
    slashed? (c :: s) = (slashed? s).map fun body =>
      if c = '/' ∨ c = '@' ∨ (c = '$' ∧ ¬ isAnchor s) then '\\' :: c :: body else c :: body := by
  rw [slashed?]
  · cases slashed? s with
    | none => rfl
    | some body =>
      simp only [Option.bind_eq_bind, Option.bind_some, Option.map_some, Option.pure_def,
        Bool.not_eq_true', Bool.not_eq_true]
      split <;> rfl
  · exact fun hc _ => h hc
  · exact fun _ _ hc _ => h hc

/-- The tokens of a pattern between slashes. -/
theorem slashed?_join (ts : List Token) : slashed? (join ts) = some (join (shields ts)) := by
  induction ts with
  | nil => rfl
  | cons t ts ih =>
    cases t with
    | pair c => simp [join_cons, text, shields, shield, slashed?, ih]
    | lone c h =>
      have hbody := slashed?_cons h (join ts)
      simp only [ih, Option.map_some, isAnchor_join] at hbody
      simp only [join_cons, shields, shield]
      change slashed? (c :: join ts) = _
      rw [hbody]
      split <;> rfl

/-- There are as many tokens between slashes. -/
theorem length_shields (ts : List Token) : (shields ts).length = ts.length := by
  induction ts with
  | nil => rfl
  | cons t ts ih => rw [shields, List.length_cons, List.length_cons, ih]

/-- Each token becomes what it and the next one tell. -/
theorem getElem?_shields (ts : List Token) (i : Nat) :
    (shields ts)[i]? = ts[i]?.map (shield ts[i + 1]?) := by
  induction ts generalizing i with
  | nil => simp [shields]
  | cons t ts ih =>
    cases i with
    | zero => simp [shields, List.head?_eq_getElem?]
    | succ i => simpa [shields] using ih i

/-- A token that ends a branch stays what it is. -/
theorem EndsBranch.map_shield (h : EndsBranch next) (behind : Option Token) :
    next.map (shield behind) = next := by
  cases next with
  | none => rfl
  | some t =>
    cases t with
    | pair c => rfl
    | lone c hc =>
      have hends : c = ')' ∨ c = '|' := by simpa [EndsBranch, text] using h
      have hplain : ¬ (c = '/' ∨ c = '@' ∨ (c = '$' ∧ ¬ EndsBranch behind)) := by
        rcases hends with rfl | rfl <;> simp
      simp [shield, hplain]

/-- What a token becomes stays the same between slashes, whatever becomes of the next one. -/
theorem shield_shield (t : Token) (behind : Option Token) :
    (t.shield next).shield (next.map (shield behind)) = t.shield next := by
  cases t with
  | pair c => rfl
  | lone c hc =>
    by_cases hc' : c = '/' ∨ c = '@' ∨ (c = '$' ∧ ¬ EndsBranch next)
    · simp [shield, hc']
    · have hsame : ¬ (c = '/' ∨ c = '@' ∨ (c = '$' ∧ ¬ EndsBranch (next.map (shield behind)))) := by
        simp only [not_or, not_and, not_not] at hc' ⊢
        refine ⟨hc'.1, hc'.2.1, fun hdollar => ?_⟩
        rw [(hc'.2.2 hdollar).map_shield]
        exact hc'.2.2 hdollar
      simp [shield, hc', hsame]

/-- Tokens between slashes stay what they are between slashes. -/
theorem shields_shields (ts : List Token) : shields (shields ts) = shields ts := by
  refine List.ext_getElem? fun i => ?_
  rw [getElem?_shields, getElem?_shields, getElem?_shields, Option.map_map]
  refine congrArg (ts[i]?.map ·) (funext fun t => ?_)
  exact shield_shield t _

/-- A token that is one character between slashes was that character, and nothing asked for a
backslash in front of it. -/
theorem of_text_shield {c : Char} (h : (t.shield next).text = [c]) :
    ¬ (c = '/' ∨ c = '@' ∨ (c = '$' ∧ ¬ EndsBranch next)) := by
  cases t with
  | pair d => simp [shield, text] at h
  | lone d hd =>
    by_cases hspecial : d = '/' ∨ d = '@' ∨ (d = '$' ∧ ¬ EndsBranch next)
    · simp [shield, hspecial, text] at h
    · obtain rfl : d = c := by simpa [shield, hspecial, text] using h
      exact hspecial

/-- A token between slashes comes from one of the tokens and the next one. -/
theorem exists_of_getElem?_shields {u : Token} {i : Nat} (h : (shields ts)[i]? = some u) :
    ∃ t, ts[i]? = some t ∧ t.shield ts[i + 1]? = u := by
  rw [getElem?_shields] at h
  exact Option.map_eq_some_iff.1 h

/-- A slash behind tokens of which none is a slash is the first one. -/
theorem cutAtSlash?_join (h : ∀ t ∈ ts, t.text ≠ ['/']) (s : Text) :
    cutAtSlash? (join ts ++ '/' :: s) = some (join ts, s) := by
  induction ts with
  | nil => rfl
  | cons t ts ih =>
    obtain ⟨ht, hts⟩ := List.forall_mem_cons.1 h
    cases t with
    | pair c => simp [join_cons, text, cutAtSlash?, ih hts]
    | lone c hc =>
      have hslash : c ≠ '/' := by simpa [text] using ht
      simp only [join_cons, text, List.cons_append, List.nil_append]
      rw [cutAtSlash?, ih hts]
      · rfl
      · exact hslash
      · exact fun _ _ hc' _ => hc hc'

/-- No token between slashes is a slash or the sigil of an array. -/
theorem text_ne_of_mem_shields {u : Token} (h : u ∈ shields ts) :
    u.text ≠ ['/'] ∧ u.text ≠ ['@'] := by
  obtain ⟨i, hi⟩ := List.getElem?_of_mem h
  obtain ⟨t, -, rfl⟩ := exists_of_getElem?_shields hi
  exact ⟨fun hslash => of_text_shield hslash (.inl rfl),
    fun hat => of_text_shield hat (.inr (.inl rfl))⟩

/-- A dollar sign that is left between slashes ends a branch there. -/
theorem endsBranch_of_getElem?_shields {u : Token} {i : Nat} (h : (shields ts)[i]? = some u)
    (hu : u.text = ['$']) : EndsBranch (shields ts)[i + 1]? := by
  obtain ⟨t, -, rfl⟩ := exists_of_getElem?_shields h
  have hends : EndsBranch ts[i + 1]? := by
    by_contra hends
    exact of_text_shield hu (.inr (.inr ⟨rfl, hends⟩))
  rw [getElem?_shields, hends.map_shield]
  exact hends

end Token

/-- A pattern that can stand between slashes has tokens. -/
theorem exists_tokens_of_slashed? {pattern body : Text} (h : slashed? pattern = some body) :
    ∃ ts, Token.join ts = pattern := by
  fun_induction slashed? pattern generalizing body with
  | case1 => exact ⟨[], rfl⟩
  | case2 => simp at h
  | case3 c rest ih =>
    simp only [Option.bind_eq_bind, Option.bind_eq_some_iff] at h
    obtain ⟨tail, htail, -⟩ := h
    obtain ⟨ts, rfl⟩ := ih htail
    exact ⟨.pair c :: ts, rfl⟩
  | case4 c rest hlone hpair ih =>
    simp only [Option.bind_eq_bind, Option.bind_eq_some_iff] at h
    obtain ⟨tail, htail, -⟩ := h
    obtain ⟨ts, rfl⟩ := ih htail
    have hback : c ≠ '\\' := by
      intro hc
      cases hrest : Token.join ts with
      | nil => exact hlone hc hrest
      | cons d rest => exact hpair d rest hc hrest
    exact ⟨.lone c hback :: ts, rfl⟩

/-- A pattern has no body exactly if it has a line break or ends with an odd number of
backslashes. -/
theorem exists_error_patternBody_iff {pattern : Text} :
    (∃ e, patternBody pattern = .error e) ↔
      '\n' ∈ pattern ∨ '\r' ∈ pattern ∨ ¬ Even pattern.closingBackslashes := by
  constructor
  · rintro ⟨e, herror⟩
    by_contra hgood
    obtain ⟨hn, hr, hb⟩ : '\n' ∉ pattern ∧ '\r' ∉ pattern ∧ Even pattern.closingBackslashes := by
      simpa only [not_or, not_not] using hgood
    obtain ⟨body, hbody⟩ := patternBody_of_even hn hr hb
    rw [hbody] at herror
    cases herror
  · intro hbad
    cases hbody : patternBody pattern with
    | error e => exact ⟨e, rfl⟩
    | ok body =>
      have hslashed := slashed?_of_patternBody hbody
      unfold patternBody at hbody
      rcases hbad with hn | hr | hb
      · simp [hn] at hbody
      · simp [hr] at hbody
      · rw [slashed?_eq_none_iff.2 hb] at hslashed
        cases hslashed

/-- A text without line breaks that can stand between slashes has what stands there as its body. -/
theorem patternBody_of_slashed? {pattern body : Text} (hn : '\n' ∉ pattern) (hr : '\r' ∉ pattern)
    (h : slashed? pattern = some body) : patternBody pattern = .ok body := by
  simp [patternBody, hn, hr, h]

/-- A pattern has a body unless it has a line break or ends with an odd number of backslashes. The
body has the tokens of the pattern, of which the slashes and the sigils that would interpolate have
got a backslash. So the first slash behind the body ends it, no sigil of an array is left, each
dollar sign that is left ends a branch, and the body is its own body. -/
theorem patternBody_tokens (pattern : Text) :
    ((∃ e, patternBody pattern = .error e) ↔
      '\n' ∈ pattern ∨ '\r' ∈ pattern ∨ ¬ Even pattern.closingBackslashes) ∧
    ∀ body, patternBody pattern = .ok body →
      ∃ ts us : List Token, Token.read? pattern = some ts ∧ Token.read? body = some us ∧
        us.length = ts.length ∧
        (∀ (i : Nat) (t : Token), ts[i]? = some t → us[i]? = some (t.shield ts[i + 1]?)) ∧
        (∀ s, cutAtSlash? (body ++ '/' :: s) = some (body, s)) ∧
        (∀ u ∈ us, u.text ≠ ['@']) ∧
        (∀ (i : Nat) (u : Token), us[i]? = some u → u.text = ['$'] →
          Token.EndsBranch us[i + 1]?) ∧
        patternBody body = .ok body := by
  refine ⟨exists_error_patternBody_iff, fun body h => ?_⟩
  have hslashed := slashed?_of_patternBody h
  obtain ⟨ts, rfl⟩ := exists_tokens_of_slashed? hslashed
  obtain rfl : Token.join (Token.shields ts) = body :=
    Option.some.inj ((Token.slashed?_join ts).symm.trans hslashed)
  refine ⟨ts, Token.shields ts, Token.read?_join _, Token.read?_join _, Token.length_shields ts,
    fun i t ht => ?_, fun s => ?_, fun u hu => (Token.text_ne_of_mem_shields hu).2,
    fun i u hu hdollar => Token.endsBranch_of_getElem?_shields hu hdollar, ?_⟩
  · rw [Token.getElem?_shields, ht]
    rfl
  · exact Token.cutAtSlash?_join (fun u hu => (Token.text_ne_of_mem_shields hu).1) s
  · refine patternBody_of_slashed? (not_mem_of_patternBody h rfl) (not_mem_of_patternBody h rfl) ?_
    rw [Token.slashed?_join, Token.shields_shields]

/-- A pattern with slashes, sigils and anchors of both kinds. -/
def mixedPattern : Text := "^\\/a/@b$x(c$|d)$"

/-- Its body. -/
def mixedBody : Text := "^\\/a\\/\\@b\\$x(c$|d)$"

/-- The body of the mixed pattern ends in front of the slash behind it, and is its own body. With a
backslash at its end the pattern has none. -/
theorem patternBody_tokens_mixedPattern :
    patternBody mixedPattern = .ok mixedBody ∧
    cutAtSlash? (mixedBody ++ ['/', 'x', '/']) = some (mixedBody, ['x', '/']) ∧
    patternBody mixedBody = .ok mixedBody ∧
    ∃ e, patternBody (mixedPattern ++ ['\\']) = .error e := by
  have hbody : patternBody mixedPattern = .ok mixedBody := by decide
  obtain ⟨-, -, -, -, -, -, hcut, -, -, hsame⟩ :=
    (patternBody_tokens mixedPattern).2 mixedBody hbody
  have hodd : ¬ Even (mixedPattern ++ ['\\'] : Text).closingBackslashes := by decide
  exact ⟨hbody, hcut _, hsame, (patternBody_tokens _).1.2 (.inr (.inr hodd))⟩

end ArgGuard.Schema
