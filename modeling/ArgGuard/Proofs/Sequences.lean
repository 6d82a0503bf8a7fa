/-!
# Sequences that may fail

A sequence of steps succeeds exactly if each of its steps does, and its result is that of the last
one. Where not all of its items are good, one of them is the first that is not.
-/

namespace ArgGuard

variable {ε α β : Type}

/-- A sequence succeeds exactly if its first step does and the others do behind it. -/
theorem bind_eq_ok_iff {x : Except ε α} {f : α → Except ε β} {b : β} :
    (x >>= f) = .ok b ↔ ∃ a, x = .ok a ∧ f a = .ok b := by
  cases x <;> simp [bind, Except.bind]

/-- What is returned at the end of a sequence is its result. -/
theorem pure_eq_ok_iff {a b : α} : (pure a : Except ε α) = .ok b ↔ a = b := by
  simp [pure, Except.pure]

/-- A sequence that gives up does not succeed. -/
theorem throw_ne_ok {e : ε} {a : α} : (throw e : Except ε α) ≠ .ok a := by
  simp [throw, throwThe, MonadExceptOf.throw]

/-- A sequence fails exactly if its first step does, or the others do behind it. -/
theorem bind_eq_error_iff {x : Except ε α} {f : α → Except ε β} {e : ε} :
    (x >>= f) = .error e ↔ x = .error e ∨ ∃ a, x = .ok a ∧ f a = .error e := by
  cases x <;> simp [bind, Except.bind]

/-- A result of which something is known is a success. -/
theorem exists_eq_ok_of_map_toOption {x : Except ε α} {f : α → β} {b : β}
    (h : x.toOption.map f = some b) : ∃ a, x = .ok a ∧ f a = b := by
  cases x with
  | error e => simp [Except.toOption] at h
  | ok a => exact ⟨a, rfl, Option.some.inj h⟩

/-- Where not everything in a list is as it should be, something is the first that is not. -/
theorem exists_first_of_not_forall {P : α → Prop} {items : List α} (h : ¬ ∀ item ∈ items, P item) :
    ∃ before item after, items = before ++ item :: after ∧ (∀ i ∈ before, P i) ∧ ¬ P item := by
  induction items with
  | nil => exact absurd (fun _ hi => absurd hi List.not_mem_nil) h
  | cons first rest ih =>
    by_cases hfirst : P first
    · have hrest : ¬ ∀ item ∈ rest, P item :=
        fun hrest => h (List.forall_mem_cons.2 ⟨hfirst, hrest⟩)
      obtain ⟨before, item, after, rfl, hbefore, hitem⟩ := ih hrest
      exact ⟨first :: before, item, after, rfl, List.forall_mem_cons.2 ⟨hfirst, hbefore⟩, hitem⟩
    · exact ⟨[], first, rest, rfl, fun _ hi => absurd hi List.not_mem_nil, hfirst⟩

end ArgGuard
