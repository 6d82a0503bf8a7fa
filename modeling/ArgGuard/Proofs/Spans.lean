import ArgGuard.Text.Basic

/-!
# Characters of a kind

Many parts of a text are characters of one kind, as far as these go. Where the text then goes on
with something else, the part is told by the text.
-/

namespace ArgGuard.Text

/-- A text that goes on with none of some characters. -/
def StopsAt (p : Char → Bool) (s : Text) : Prop := ∀ c ∈ s.head?, p c = false

variable {p : Char → Bool} {a b s t rest : Text}

/-- A text that starts with another character goes on with none of them. -/
theorem stopsAt_cons {c : Char} (hc : p c = false) (s : Text) : StopsAt p (c :: s) := by
  intro d hd
  obtain rfl : c = d := by simpa using hd
  exact hc

/-- A text that does not go on goes on with none of them. -/
theorem stopsAt_nil : StopsAt p [] := by
  intro c hc
  simp at hc

/-- A text stops where its first part does, or where the rest does behind nothing. -/
theorem StopsAt.append (hs : StopsAt p s) (ht : StopsAt p t) : StopsAt p (s ++ t) := by
  cases s with
  | nil => exact ht
  | cons c s => exact stopsAt_cons (hs c rfl) _

/-- Characters of a kind are cut from the front of a text as far as they go. -/
theorem dropWhile_eq_iff :
    s.dropWhile p = rest ↔ ∃ a, a.all p ∧ s = a ++ rest ∧ StopsAt p rest := by
  constructor
  · rintro rfl
    refine ⟨s.takeWhile p, List.all_takeWhile, List.takeWhile_append_dropWhile.symm, ?_⟩
    intro c hc
    have hno := List.head?_dropWhile_not p s
    rw [Option.mem_def.1 hc] at hno
    exact hno
  · rintro ⟨a, ha, rfl, hrest⟩
    rw [List.dropWhile_append_of_pos (List.all_eq_true.1 ha)]
    cases rest with
    | nil => rfl
    | cons c rest => simp [hrest c rfl]

/-- Characters of a kind with something else behind them are found as far as they go. -/
theorem takeWhile_append_eq (ha : a.all p) (hs : StopsAt p s) : (a ++ s).takeWhile p = a := by
  rw [List.takeWhile_append_of_pos (List.all_eq_true.1 ha)]
  cases s with
  | nil => simp
  | cons c s => simp [hs c rfl]

/-- Where characters of a kind end in front of something else, a text is cut in one way only. -/
theorem append_inj_of_stopsAt (ha : a.all p) (hb : b.all p) (hs : StopsAt p s)
    (ht : StopsAt p t) (h : a ++ s = b ++ t) : a = b ∧ s = t := by
  have hab : a = b := by
    rw [← takeWhile_append_eq ha hs, h, takeWhile_append_eq hb ht]
  exact ⟨hab, List.append_cancel_left (hab ▸ h)⟩

end ArgGuard.Text
