import ArgGuard.Proofs.Program

/-!
# Watching for a declaration

The statement that declares the error variable is `my $arg_err;`, and nothing else in a guard looks
like it. A watcher reads a text for the characters `y $a`, which are in the middle of this
statement. A text is steady if it keeps every watcher outside of them. The conditions, messages and
commands of a guard are steady whatever names and schemas they come from: a sigil in a string has a
backslash in front of it, in a pattern it has one unless it is an anchor, and everywhere else it
stands behind a bracket, an operator or a space that follows one.
-/

namespace ArgGuard

/-- How much of `y $a` a watcher has just seen. -/
inductive Watch where
  /-- Nothing. -/
  | start
  /-- The letter. -/
  | letter
  /-- The letter and the space. -/
  | blank
  /-- All but the last character. -/
  | sigil
  deriving DecidableEq, Repr

namespace Watch

/-- Read a character, unless it is the last one. -/
def step (w : Watch) (c : Char) : Option Watch :=
  if c = 'y' then some letter
  else
    match w with
    | start => some start
    | letter => if c = ' ' then some blank else some start
    | blank => if c = '$' then some sigil else some start
    | sigil => if c = 'a' then none else some start

/-- Read a text. -/
def read (w : Watch) (s : Text) : Option Watch := s.foldlM step w

/-- A text behind one that is read. -/
theorem read_append_of {w next : Watch} {s : Text} (h : w.read s = some next) (t : Text) :
    w.read (s ++ t) = next.read t := by
  rw [read] at h
  rw [read, List.foldlM_append, h]
  rfl

/-- A text behind a character that is read. -/
theorem read_cons_of {w next : Watch} {c : Char} (h : w.step c = some next) (t : Text) :
    w.read (c :: t) = next.read t := by
  rw [read, List.foldlM_cons, h]
  rfl

/-- A text that is read does not hold what is watched for. -/
theorem not_infix_of_read {w next : Watch} {s : Text} (h : w.read s = some next) :
    ¬ ("y $a" : Text) <:+: s := by
  rintro ⟨before, after, rfl⟩
  rw [List.append_assoc] at h
  cases hbefore : w.read before with
  | none =>
    rw [read] at h hbefore
    simp [List.foldlM_append, hbefore] at h
  | some middle =>
    have hstop : middle.read (("y $a" : Text) ++ after) = none := by
      cases middle <;> rfl
    rw [read_append_of hbefore, hstop] at h
    contradiction

/-- A text that keeps a watcher at most behind the letter. -/
def Steady (s : Text) : Prop :=
  ∀ w ∈ [start, letter], ∃ next ∈ [start, letter], w.read s = some next

instance (s : Text) : Decidable (Steady s) :=
  inferInstanceAs
    (Decidable (∀ w ∈ [start, letter], ∃ next ∈ [start, letter], w.read s = some next))

/-- A text behind which a watcher has seen nothing. -/
def Settled (s : Text) : Prop := ∀ w ∈ [start, letter], w.read s = some start

instance (s : Text) : Decidable (Settled s) :=
  inferInstanceAs (Decidable (∀ w ∈ [start, letter], w.read s = some start))

variable {s t : Text}

/-- A watcher that has seen nothing is at most behind the letter. -/
theorem Settled.steady (h : Settled s) : Steady s :=
  fun w hw => ⟨start, List.mem_cons_self, h w hw⟩

/-- Nothing is steady. -/
theorem steady_nil : Steady [] := by decide

/-- Steady texts one behind the other are steady. -/
theorem Steady.append (hs : Steady s) (ht : Steady t) : Steady (s ++ t) := by
  intro w hw
  obtain ⟨middle, hmiddle, hread⟩ := hs w hw
  rw [read_append_of hread]
  exact ht middle hmiddle

/-- What comes last settles a watcher. -/
theorem Steady.append_settled (hs : Steady s) (ht : Settled t) : Settled (s ++ t) := by
  intro w hw
  obtain ⟨middle, hmiddle, hread⟩ := hs w hw
  rw [read_append_of hread]
  exact ht middle hmiddle

/-- A space unsettles no watcher. -/
theorem Settled.append_space (hs : Settled s) : Settled (s ++ [' ']) := by
  intro w hw
  rw [read_append_of (hs w hw)]
  rfl

/-- Without a space there is nothing to see behind the letter. -/
theorem steady_of_not_mem (h : ' ' ∉ s) : Steady s := by
  induction s with
  | nil => exact steady_nil
  | cons c rest ih =>
    simp only [List.mem_cons, not_or] at h
    have hstep : ∀ w ∈ [start, letter], ∃ next ∈ [start, letter], w.step c = some next := by
      intro w hw
      by_cases hc : c = 'y'
      · exact ⟨letter, by decide, by simp [step, hc]⟩
      · refine ⟨start, by decide, ?_⟩
        simp only [List.mem_cons, List.not_mem_nil, or_false] at hw
        rcases hw with rfl | rfl
        · simp [step, hc]
        · simp [step, hc, Ne.symm h.1]
    intro w hw
    obtain ⟨next, hnext, hc⟩ := hstep w hw
    rw [read_cons_of hc]
    exact ih h.2 next hnext

/-- Numerals are steady. -/
theorem steady_of_isNumeral (h : s.all Text.isNumeral) : Steady s := by
  refine steady_of_not_mem fun hmem => ?_
  have hspace := List.all_eq_true.1 h ' ' hmem
  revert hspace
  decide

/-- Identifiers are steady. -/
theorem steady_of_isBareword (h : Identifier.isBareword s) : Steady s :=
  steady_of_not_mem fun hmem => absurd (Identifier.of_mem_of_isBareword h hmem) (by decide)

/-- Behind a backslash a watcher has seen no sigil. -/
theorem read_escape (w : Watch) (c : Char) :
    ∃ next, next ≠ sigil ∧ w.read ['\\', c] = some next := by
  have hback : w.step '\\' = some start := by cases w <;> rfl
  rw [read_cons_of hback]
  by_cases hc : c = 'y'
  · exact ⟨letter, by decide, by simp [read, step, hc]⟩
  · exact ⟨start, by decide, by simp [read, step, hc]⟩

/-- A character is read unless it comes behind the sigil, and only the sigil is seen as one. -/
theorem exists_step {w : Watch} (hw : w ≠ sigil) (c : Char) :
    ∃ next, w.step c = some next ∧ (next = sigil → c = '$') := by
  by_cases hy : c = 'y'
  · exact ⟨letter, if_pos hy, by simp⟩
  · cases w with
    | start => exact ⟨start, if_neg hy, by simp⟩
    | letter =>
      by_cases hc : c = ' '
      · exact ⟨blank, (if_neg hy).trans (if_pos hc), by simp⟩
      · exact ⟨start, (if_neg hy).trans (if_neg hc), by simp⟩
    | blank =>
      by_cases hc : c = '$'
      · exact ⟨sigil, (if_neg hy).trans (if_pos hc), fun _ => hc⟩
      · exact ⟨start, (if_neg hy).trans (if_neg hc), by simp⟩
    | sigil => contradiction

/-- Behind a character in quotes a watcher has seen no sigil. -/
theorem read_quotedChar {w : Watch} (hw : w ≠ sigil) (c : Char) :
    ∃ next, next ≠ sigil ∧ w.read (Text.quotedChar c) = some next := by
  unfold Text.quotedChar
  repeat' split
  · exact read_escape w c
  · exact read_escape w 'n'
  · exact read_escape w 'r'
  · exact read_escape w 't'
  · next hspecial _ _ _ =>
    obtain ⟨next, hstep, hsigil⟩ := exists_step hw c
    refine ⟨next, fun hnext => hspecial ?_, by rw [read_cons_of hstep]; rfl⟩
    simp [hsigil hnext]

/-- Behind characters in quotes a watcher has seen no sigil. -/
theorem read_flatMap_quotedChar {w : Watch} (hw : w ≠ sigil) (s : Text) :
    ∃ next, next ≠ sigil ∧ w.read (s.flatMap Text.quotedChar) = some next := by
  induction s generalizing w with
  | nil => exact ⟨w, hw, rfl⟩
  | cons c rest ih =>
    obtain ⟨middle, hmiddle, hread⟩ := read_quotedChar hw c
    rw [List.flatMap_cons, read_append_of hread]
    exact ih hmiddle

/-- A string settles a watcher. -/
theorem settled_quoted (s : Text) : Settled (Text.quoted s) := by
  intro w hw
  have hopen : w.step '"' = some start := by
    revert w
    decide
  obtain ⟨next, -, hread⟩ := read_flatMap_quotedChar (by decide : start ≠ sigil) s
  have hclose : next.read ['"'] = some start := by cases next <;> rfl
  rw [Text.quoted, List.cons_append, read_cons_of hopen, read_append_of hread, hclose]

/-- The body of a pattern is read, also behind a sigil that is an anchor of the pattern. -/
theorem read_slashed? {pattern body : Text} (h : Schema.slashed? pattern = some body) {w : Watch}
    (hw : w = sigil → Schema.isAnchor pattern) : ∃ next, w.read body = some next := by
  fun_induction Schema.slashed? pattern generalizing body w with
  | case1 =>
    obtain rfl := Option.some.inj h
    exact ⟨w, rfl⟩
  | case2 => simp at h
  | case3 c rest ih =>
    simp only [Option.bind_eq_bind, Option.bind_eq_some_iff] at h
    obtain ⟨tail, htail, hbody⟩ := h
    obtain rfl := Option.some.inj hbody
    obtain ⟨middle, hmiddle, hread⟩ := read_escape w c
    obtain ⟨next, hnext⟩ := ih htail fun hsigil => absurd hsigil hmiddle
    exact ⟨next, (read_append_of hread tail).trans hnext⟩
  | case4 c rest hlone hpair ih =>
    simp only [Option.bind_eq_bind, Option.bind_eq_some_iff] at h
    obtain ⟨tail, htail, hbody⟩ := h
    split at hbody
    next =>
      obtain rfl := Option.some.inj hbody
      obtain ⟨middle, hmiddle, hread⟩ := read_escape w c
      obtain ⟨next, hnext⟩ := ih htail fun hsigil => absurd hsigil hmiddle
      exact ⟨next, (read_append_of hread tail).trans hnext⟩
    next hplain =>
      obtain rfl := Option.some.inj hbody
      obtain ⟨middle, hstep, hsigil⟩ : ∃ middle, w.step c = some middle ∧
          (middle = sigil → c = '$') := by
        by_cases hw' : w = sigil
        · have hanchor : c = ')' ∨ c = '|' := by simpa [Schema.isAnchor] using hw hw'
          rcases hanchor with rfl | rfl <;> exact ⟨start, by rw [hw']; rfl, by simp⟩
        · exact exists_step hw' c
      obtain ⟨next, hnext⟩ := ih htail fun hmiddle => by
        by_contra hno
        exact hplain (.inr (.inr ⟨hsigil hmiddle, by simpa using hno⟩))
      exact ⟨next, (read_cons_of hstep tail).trans hnext⟩

/-- A pattern settles a watcher. -/
theorem settled_pattern {pattern body : Text} (h : Schema.patternBody pattern = .ok body) :
    Settled ('/' :: body ++ ['/']) := by
  intro w hw
  have hopen : w.step '/' = some start := by
    revert w
    decide
  obtain ⟨next, hread⟩ := read_slashed? (Schema.slashed?_of_patternBody h) (w := start) (by simp)
  have hclose : next.read ['/'] = some start := by cases next <;> rfl
  rw [List.cons_append, read_cons_of hopen, read_append_of hread, hclose]

/-- Steady texts one behind the other are steady. -/
theorem Steady.flatMap {α : Type} {items : List α} {f : α → Text}
    (h : ∀ item ∈ items, Steady (f item)) : Steady (items.flatMap f) := by
  induction items with
  | nil => exact steady_nil
  | cons item rest ih =>
    rw [List.flatMap_cons]
    exact (h item List.mem_cons_self).append (ih fun i hi => h i (List.mem_cons_of_mem _ hi))

/-- Steady texts with a steady separator between them are steady. -/
theorem Steady.joined {separator : Text} (hs : Steady separator) {parts : List Text}
    (h : ∀ part ∈ parts, Steady part) : Steady (Text.joined separator parts) := by
  unfold Text.joined
  induction parts with
  | nil => exact steady_nil
  | cons part rest ih =>
    have hpart := h part List.mem_cons_self
    cases rest with
    | nil => simpa using hpart
    | cons next rest =>
      rw [List.intercalate_cons_cons]
      exact (hpart.append hs).append (ih fun p hp => h p (List.mem_cons_of_mem _ hp))

/-- Texts that settle a watcher, with spaces between them, settle it. -/
theorem Settled.joined {first : Text} {others : List Text} (hf : Settled first)
    (ho : ∀ part ∈ others, Settled part) : Settled (Text.joined " " (first :: others)) := by
  unfold Text.joined
  induction others generalizing first with
  | nil => simpa using hf
  | cons next rest ih =>
    rw [List.intercalate_cons_cons]
    have hrest := ih (ho next List.mem_cons_self) fun p hp => ho p (List.mem_cons_of_mem _ hp)
    exact hf.append_space.steady.append_settled hrest

end Watch

end ArgGuard
