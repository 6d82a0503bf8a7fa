import ArgGuard.Metadata.Reader
import ArgGuard.Proofs.JsonValues

/-!
# Two ways of reading

What a text says is read straight from its outline, or from the value that the outline has. Reading
straight meets every member of an object, also those whose name is repeated, and skips what it does
not ask for; the value has kept one member for each name. The two ways never read different things,
and where no name is repeated, what is read from the value is also read straight.
-/

namespace ArgGuard

open Json

variable {α β : Type}

/-- Lists that are related one by one through a third list are related to each other. -/
theorem forall₂_trans {γ : Type} {P : α → β → Prop} {Q : β → γ → Prop} {R : α → γ → Prop}
    (hR : ∀ a b c, P a b → Q b c → R a c) {as : List α} {bs : List β} {cs : List γ}
    (hP : List.Forall₂ P as bs) (hQ : List.Forall₂ Q bs cs) : List.Forall₂ R as cs := by
  induction hP generalizing cs with
  | nil =>
    cases hQ
    exact .nil
  | cons hab _ ih =>
    cases hQ with
    | cons hbc hQ => exact .cons (hR _ _ _ hab hbc) (ih hQ)

/-- Lists that are related one by one to the same list are related to each other. -/
theorem forall₂_of_common {γ : Type} {P : α → β → Prop} {Q : α → γ → Prop} {R : β → γ → Prop}
    (hR : ∀ a b c, P a b → Q a c → R b c) {as : List α} {bs : List β} {cs : List γ}
    (hP : List.Forall₂ P as bs) (hQ : List.Forall₂ Q as cs) : List.Forall₂ R bs cs :=
  forall₂_trans (fun b a c hab hac => hR a b c hab hac) hP.flip hQ

namespace Json.Outline

/-- No object inside members repeats a name where none does inside one of them. -/
theorem distinctMembers_iff {members : List (Except Fault Text × Outline)} :
    DistinctMembers members ↔ ∀ member ∈ members, member.2.Distinct := by
  induction members with
  | nil => simp [DistinctMembers]
  | cons member rest ih => simp [DistinctMembers, ih]

end Json.Outline

/-- Reading straight and reading from the value agree. -/
structure ReadAlike (read : Nat → Outline → Except Fault α) (ofValue : Value → Except Fault α) :
    Prop where
  /-- What both read is the same. -/
  same {o : Outline} {depth depth' : Nat} {v : Value} {a b : α} (hv : o.value depth = .ok v)
    (ha : read depth' o = .ok a) (hb : ofValue v = .ok b) : a = b
  /-- What is read from the value is read straight, where no name is repeated. -/
  straight {o : Outline} {depth depth' : Nat} {v : Value} {a : α} (hv : o.value depth = .ok v)
    (hd : depth ≤ depth') (hdistinct : o.Distinct) (ha : ofValue v = .ok a) :
    read depth' o = .ok a

namespace ReadAlike

variable {read : Nat → Outline → Except Fault α} {ofValue : Value → Except Fault α}

/-- Two ways of reading agree that succeed with the same things. -/
theorem of_iff (h : ∀ {o : Outline} {depth depth' : Nat} {v : Value} {a : α},
    o.value depth = .ok v → (read depth' o = .ok a ↔ ofValue v = .ok a)) :
    ReadAlike read ofValue where
  same hv ha hb := Except.ok.inj (((h hv).1 ha).symm.trans hb)
  straight hv _ _ ha := (h hv).2 ha

/-- Two ways of reading agree on what is made of the things that they agree on. -/
theorem map (h : ReadAlike read ofValue) (f : α → β) :
    ReadAlike (fun depth o => return f (← read depth o)) (fun v => return f (← ofValue v)) where
  same hv ha hb := by
    simp only [bind_eq_ok_iff, pure_eq_ok_iff] at ha hb
    obtain ⟨a, ha, rfl⟩ := ha
    obtain ⟨b, hb, rfl⟩ := hb
    rw [h.same hv ha hb]
  straight hv hd hdistinct ha := by
    simp only [bind_eq_ok_iff, pure_eq_ok_iff] at ha ⊢
    obtain ⟨a, ha, rfl⟩ := ha
    exact ⟨a, h.straight hv hd hdistinct ha, rfl⟩

end ReadAlike

namespace Metadata

/-- A truth value is read alike. -/
theorem readAlike_bool : ReadAlike (fun _ => readBool) boolOfValue := by
  refine ReadAlike.of_iff fun {o _ _ v a} hv => ?_
  cases Outline.value_eq_ok_iff.1 hv <;> simp [readBool, boolOfValue]

/-- A number is read alike. -/
theorem readAlike_double : ReadAlike (fun _ => readDouble) doubleOfValue := by
  refine ReadAlike.of_iff fun {o _ _ v a} hv => ?_
  cases Outline.value_eq_ok_iff.1 hv <;> simp [readDouble, doubleOfValue, Except.map]

/-- What is read straight where a null may stand has a value. -/
theorem exists_value_of_readOptional {depth : Nat} {o : Outline} {a : Option Value}
    (h : readOptional depth o = .ok a) : ∃ v, o.value depth = .ok v := by
  unfold readOptional at h
  split at h
  next => exact ⟨.null, by rw [Outline.value]; rfl⟩
  next =>
    simp only [bind_eq_ok_iff] at h
    obtain ⟨v, hv, -⟩ := h
    exact ⟨v, hv⟩

/-- What has a value is read straight as that value, where a null may stand. -/
theorem readOptional_of_value {depth : Nat} {o : Outline} {v : Value} (h : o.value depth = .ok v) :
    readOptional depth o = .ok (optionalOfValue v) := by
  cases Outline.value_eq_ok_iff.1 h <;>
    simp_all [readOptional, optionalOfValue, bind, Except.bind, pure, Except.pure]

/-- A value is read alike where a null may stand. -/
theorem readAlike_optional : ReadAlike readOptional fun v => .ok (optionalOfValue v) where
  same hv ha hb := by
    obtain ⟨v', hv'⟩ := exists_value_of_readOptional ha
    obtain rfl := Outline.value_unique hv hv'
    exact Except.ok.inj ((ha.symm.trans (readOptional_of_value hv')).trans hb)
  straight hv hd _ ha := (readOptional_of_value (Outline.value_mono _ hv hd)).trans ha

/-- A packing style is read straight from its name, or from an object with the name as only
member, set to null. -/
theorem read_packing_eq_ok_iff {depth : Nat} {o : Outline} {p : Packing} :
    Packing.read depth o = .ok p ↔
      (∃ name, o = .scalar (.string (.ok name)) ∧ Packing.ofName name = .ok p) ∨
        ∃ name, 0 < depth ∧ o = .object [(.ok name, .scalar .null)] .closed ∧
          Packing.ofName name = .ok p := by
  constructor
  · intro h
    unfold Packing.read at h
    split at h
    next name =>
      simp only [bind_eq_ok_iff] at h
      obtain ⟨name, rfl, hp⟩ := h
      exact .inl ⟨name, rfl, hp⟩
    next => simp at h
    next => simp at h
    next members ending =>
      split at h
      next => simp at h
      next field o more hdepth =>
        simp only [bind_eq_ok_iff] at h
        obtain ⟨name, rfl, packing, hp, _, hnull, hend⟩ := h
        have ho : o = .scalar .null := by
          unfold readNull at hnull
          split at hnull
          next => rfl
          next => simp at hnull
        split at hend
        next =>
          obtain rfl := pure_eq_ok_iff.1 hend
          exact .inr ⟨name, Nat.pos_of_ne_zero hdepth, by rw [ho], hp⟩
        next => exact absurd hend throw_ne_ok
        next => exact absurd hend throw_ne_ok
      next => simp at h
      next => simp at h
      next => simp at h
      next =>
        simp only [bind_eq_ok_iff] at h
        obtain ⟨_, _, _, _, hend⟩ := h
        exact absurd hend throw_ne_ok
      next => simp at h
    next => simp at h
  · rintro (⟨name, rfl, hp⟩ | ⟨name, hd, rfl, hp⟩)
    · exact hp
    · obtain ⟨depth, rfl⟩ := Nat.exists_eq_succ_of_ne_zero (Nat.ne_of_gt hd)
      simp [Packing.read, readNull, hp, bind, Except.bind, pure, Except.pure]

/-- A packing style is read from a value that is its name, or an object with the name as only
member, set to null. -/
theorem packing_ofValue_eq_ok_iff {v : Value} {p : Packing} :
    Packing.ofValue v = .ok p ↔
      (∃ name, v = .string name ∧ Packing.ofName name = .ok p) ∨
        ∃ name, v = .object [(name, .null)] ∧ Packing.ofName name = .ok p := by
  constructor
  · intro h
    unfold Packing.ofValue at h
    split at h
    next name => exact .inl ⟨name, rfl, h⟩
    next name v =>
      simp only [bind_eq_ok_iff] at h
      obtain ⟨packing, hp, hnull⟩ := h
      split at hnull
      next =>
        obtain rfl := pure_eq_ok_iff.1 hnull
        exact .inr ⟨name, rfl, hp⟩
      next => exact absurd hnull throw_ne_ok
    next => simp at h
    next => simp at h
  · rintro (⟨name, rfl, hp⟩ | ⟨name, rfl, hp⟩)
    · exact hp
    · simp [Packing.ofValue, hp, bind, Except.bind, pure, Except.pure]

/-- An object of which the value has one member has one itself, if it repeats no name. -/
theorem exists_member_of_singleton {depth : Nat} {members : List (Except Fault Text × Outline)}
    {pairs : List (Text × Value)} {entry : Text × Value}
    (h : List.Forall₂ (Outline.MemberIs depth) members pairs) (hd : (Outline.names members).Nodup)
    (hone : Dictionary.ofPairs pairs = [entry]) :
    ∃ member, members = [member] ∧ Outline.MemberIs depth member entry := by
  rw [Outline.ofPairs_of_distinct h hd] at hone
  subst hone
  obtain ⟨member, rest, hmember, hrest, rfl⟩ := List.forall₂_cons_right_iff.1 h
  rw [List.forall₂_nil_right_iff.1 hrest]
  exact ⟨member, rfl, hmember⟩

/-- A packing style is read alike. -/
theorem readAlike_packing : ReadAlike Packing.read Packing.ofValue where
  same hv ha hb := by
    rcases read_packing_eq_ok_iff.1 ha with ⟨name, rfl, hname⟩ | ⟨name, _, rfl, hname⟩
    · cases Outline.value_eq_ok_iff.1 hv
      exact Except.ok.inj (hname.symm.trans hb)
    · cases Outline.value_eq_ok_iff.1 hv with
      | object h =>
        obtain ⟨pair, rest, ⟨hkey, hnull⟩, hrest, rfl⟩ := List.forall₂_cons_left_iff.1 h
        obtain rfl := List.forall₂_nil_left_iff.1 hrest
        obtain ⟨key, v⟩ := pair
        obtain rfl : name = key := Except.ok.inj hkey
        cases Outline.value_eq_ok_iff.1 hnull
        have hof := packing_ofValue_eq_ok_iff.2 (.inr ⟨name, rfl, hname⟩)
        exact Except.ok.inj (hof.symm.trans hb)
  straight hv hd hdistinct ha := by
    rcases packing_ofValue_eq_ok_iff.1 ha with ⟨name, rfl, hname⟩ | ⟨name, rfl, hname⟩
    · cases Outline.value_eq_ok_iff.1 hv
      exact hname
    · obtain ⟨inner, members, pairs, rfl, rfl, hmembers, hone⟩ :=
        Outline.exists_of_value_eq_object hv
      obtain ⟨⟨key, o⟩, rfl, hkey, ho⟩ := exists_member_of_singleton hmembers hdistinct.1 hone
      obtain rfl : key = .ok name := hkey
      cases Outline.value_eq_ok_iff.1 ho
      exact read_packing_eq_ok_iff.2 (.inr ⟨name, by omega, rfl, hname⟩)

end Metadata

namespace Json

variable {read : Outline → Except Fault α} {ofValue : Value → Except Fault α}

/-- Members are read straight where each is, up to the brace. -/
theorem readMembers_eq_ok_iff {ending : ObjectEnd} {members : List (Except Fault Text × Outline)}
    {entries : List (Text × α)} :
    readMembers read ending members = .ok entries ↔ ending = .closed ∧
      List.Forall₂ (fun member entry => member.1 = .ok entry.1 ∧ read member.2 = .ok entry.2)
        members entries := by
  induction members generalizing entries with
  | nil =>
    rw [readMembers, Outline.unlessFault_eq_ok_iff, ObjectEnd.fault?_eq_none_iff,
      List.forall₂_nil_left_iff, eq_comm (a := [])]
  | cons member rest ih =>
    obtain ⟨name, o⟩ := member
    simp only [readMembers, bind_eq_ok_iff, pure_eq_ok_iff, List.forall₂_cons_left_iff, ih,
      Prod.exists]
    grind

/-- Members are read from an object value where each is. -/
theorem readMemberValues_eq_ok_iff {pairs : List (Text × Value)} {entries : List (Text × α)} :
    readMemberValues ofValue pairs = .ok entries ↔
      List.Forall₂ (fun pair entry => pair.1 = entry.1 ∧ ofValue pair.2 = .ok entry.2) pairs
        entries := by
  induction pairs generalizing entries with
  | nil => simp [readMemberValues, eq_comm]
  | cons pair rest ih =>
    obtain ⟨name, v⟩ := pair
    simp only [readMemberValues, bind_eq_ok_iff, pure_eq_ok_iff, List.forall₂_cons_left_iff, ih,
      Prod.exists]
    grind

/-- A dictionary is read straight from an object of which each member is. -/
theorem readDictionary_eq_ok_iff {read : Nat → Outline → Except Fault α} {depth : Nat} {o : Outline}
    {d : Dictionary Text α} :
    readDictionary read depth o = .ok d ↔ ∃ inner members entries, depth = inner + 1 ∧
      o = .object members .closed ∧
      List.Forall₂ (fun member entry => member.1 = .ok entry.1 ∧ read inner member.2 = .ok entry.2)
        members entries ∧ Dictionary.ofPairs entries = d := by
  cases o with
  | object members ending =>
    cases depth with
    | zero => simp [readDictionary]
    | succ depth =>
      simp only [readDictionary, bind_eq_ok_iff, pure_eq_ok_iff, readMembers_eq_ok_iff]
      constructor
      · rintro ⟨entries, ⟨rfl, h⟩, rfl⟩
        exact ⟨depth, members, entries, rfl, rfl, h, rfl⟩
      · rintro ⟨_, _, entries, hdepth, ho, h, rfl⟩
        obtain rfl := Nat.succ.inj hdepth
        obtain ⟨rfl, rfl⟩ := Outline.object.inj ho
        exact ⟨entries, ⟨rfl, h⟩, rfl⟩
  | _ => simp [readDictionary]

/-- A dictionary is read from an object value of which each member is. -/
theorem readDictionaryValue_eq_ok_iff {v : Value} {d : Dictionary Text α} :
    readDictionaryValue ofValue v = .ok d ↔ ∃ pairs entries, v = .object pairs ∧
      List.Forall₂ (fun pair entry => pair.1 = entry.1 ∧ ofValue pair.2 = .ok entry.2) pairs
        entries ∧ Dictionary.ofPairs entries = d := by
  cases v with
  | object pairs =>
    simp only [readDictionaryValue, bind_eq_ok_iff, pure_eq_ok_iff, readMemberValues_eq_ok_iff]
    grind
  | _ => simp [readDictionaryValue]

end Json

/-- Dictionaries of what is read alike are read alike. -/
theorem ReadAlike.dictionary {read : Nat → Outline → Except Fault α}
    {ofValue : Value → Except Fault α} (h : ReadAlike read ofValue) :
    ReadAlike (readDictionary read) (readDictionaryValue ofValue) where
  same hv ha hb := by
    obtain ⟨_, members, others, rfl, rfl, hothers, rfl⟩ := readDictionary_eq_ok_iff.1 ha
    obtain ⟨kept, entries, rfl, hentries, rfl⟩ := readDictionaryValue_eq_ok_iff.1 hb
    obtain ⟨inner, _, pairs, rfl, ho, hpairs, rfl⟩ := Outline.exists_of_value_eq_object hv
    obtain ⟨rfl, -⟩ := Outline.object.inj ho
    -- a member that both read is the same, and merging members keeps that
    have hboth : List.Forall₂ (fun (pair : Text × Value) (other : Text × α) => pair.1 = other.1 ∧
        ∀ b, ofValue pair.2 = .ok b → b = other.2) pairs others := by
      refine forall₂_of_common ?_ hpairs hothers
      rintro member pair other ⟨hname, hvalue⟩ ⟨hother, hread⟩
      exact ⟨Except.ok.inj (hname.symm.trans hother), fun b hb => (h.same hvalue hread hb).symm⟩
    have hmerged := Dictionary.forall₂_ofPairs (fun _ _ hentry => hentry.1) hboth
    have hequal : List.Forall₂ (· = ·) entries (Dictionary.ofPairs others) := by
      refine forall₂_of_common ?_ hentries hmerged
      rintro pair entry other ⟨hname, hvalue⟩ ⟨hother, hsame⟩
      exact Prod.ext (hname.symm.trans hother) (hsame _ hvalue)
    rw [List.forall₂_eq_eq_eq] at hequal
    rw [hequal, Dictionary.ofPairs_eq_self (Dictionary.nodup_keys_ofPairs others)]
  straight {_ _ depth' _ _} hv hd hdistinct ha := by
    obtain ⟨kept, entries, rfl, hentries, rfl⟩ := readDictionaryValue_eq_ok_iff.1 ha
    obtain ⟨inner, members, pairs, rfl, rfl, hpairs, rfl⟩ := Outline.exists_of_value_eq_object hv
    rw [Outline.ofPairs_of_distinct hpairs hdistinct.1] at hentries
    obtain ⟨inner', rfl⟩ : ∃ n, depth' = n + 1 := ⟨depth' - 1, by omega⟩
    have hmembers := (List.forall₂_and_left _ _).2
      ⟨Outline.distinctMembers_iff.1 hdistinct.2, hpairs⟩
    refine readDictionary_eq_ok_iff.2 ⟨inner', members, entries, rfl, rfl, ?_, rfl⟩
    refine forall₂_trans ?_ hmembers hentries
    rintro ⟨name, o⟩ pair entry ⟨hdistinct, hname, hvalue⟩ ⟨hentry, hread⟩
    exact ⟨hname.trans (congrArg _ hentry), h.straight hvalue (by omega) hdistinct hread⟩

end ArgGuard
