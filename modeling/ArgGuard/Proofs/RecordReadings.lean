import ArgGuard.Proofs.TwoReadings

/-!
# Two ways of reading records

A record is read alike straight from a text and from a value, if each of its fields is. Reading
straight refuses a field that is given twice, so what it reads has kept all its known members in the
value; members that are not known may have been merged there, but neither way asks for them.
-/

namespace ArgGuard.Metadata

open Json

namespace RecordField

variable {Record : Type} {fields : List (RecordField Record)} {given : List Text} {name : Text}
  {f : RecordField Record} {record a b : Record} {depth depth' size : Nat}

/-- A field gets into a record alike straight from a text and from a value. -/
def IsReadAlike (f : RecordField Record) : Prop :=
  ∀ record, ReadAlike (fun depth o => f.ofOutline depth o record) fun v => f.ofValue v record

/-- A field is taken where a name means it and it was not given before. -/
theorem take_eq_some_iff :
    take fields given name = .ok (some f) ↔ find? fields name = some f ∧ f.name ∉ given := by
  unfold take
  cases hfind : find? fields name with
  | none => simp
  | some g =>
    by_cases hg : g.name ∈ given
    · simp only [hg, if_true, reduceCtorEq, Option.some.injEq, false_iff, not_and, not_not]
      rintro rfl
      exact hg
    · simp only [hg, if_false, Except.ok.injEq, Option.some.injEq]
      exact ⟨fun h => ⟨h, h ▸ hg⟩, fun h => h.1⟩

/-- No field is taken where a name means none. -/
theorem take_eq_none_iff : take fields given name = .ok none ↔ find? fields name = none := by
  unfold take
  cases find? fields name with
  | none => simp
  | some g => by_cases hg : g.name ∈ given <;> simp [hg]

section Items

variable {items : List Outline} {vs : List Value}

/-- What both ways read from the items of an array is the same. -/
theorem same_items (hf : ∀ f ∈ fields, f.IsReadAlike)
    (h : List.Forall₂ (fun o v => o.value depth = .ok v) items vs)
    (ha : ofItems depth' .closed fields items record = .ok a)
    (hb : ofItemValues size fields vs record = .ok b) : a = b := by
  induction h generalizing fields record with
  | nil =>
    obtain rfl : record = b := by cases fields <;> simpa [ofItemValues] using hb
    cases fields <;>
      simpa [ofItems, surplusFault?, ListEnd.fault?, Outline.unlessFault, eq_comm] using ha
  | cons hv _ ih =>
    cases fields with
    | nil => simp [ofItems] at ha
    | cons f fields =>
      simp only [ofItems, ofItemValues, bind_eq_ok_iff] at ha hb
      obtain ⟨first, hfirst, ha⟩ := ha
      obtain ⟨second, hsecond, hb⟩ := hb
      obtain ⟨hhead, htail⟩ := List.forall_mem_cons.1 hf
      obtain rfl := (hhead record).same hv hfirst hsecond
      exact ih htail ha hb

/-- What is read from the items of an array value is read straight from items without repeated
names. -/
theorem straight_items (hf : ∀ f ∈ fields, f.IsReadAlike) (hd : depth ≤ depth')
    (hdistinct : Outline.DistinctItems items)
    (h : List.Forall₂ (fun o v => o.value depth = .ok v) items vs)
    (ha : ofItemValues size fields vs record = .ok a) :
    ofItems depth' .closed fields items record = .ok a := by
  induction h generalizing fields record with
  | nil =>
    obtain rfl : record = a := by cases fields <;> simpa [ofItemValues] using ha
    cases fields <;> simp [ofItems, surplusFault?, ListEnd.fault?, Outline.unlessFault]
  | cons hv _ ih =>
    cases fields with
    | nil => simp [ofItemValues] at ha
    | cons f fields =>
      simp only [ofItems, ofItemValues, bind_eq_ok_iff] at ha ⊢
      obtain ⟨first, hfirst, ha⟩ := ha
      obtain ⟨hhead, htail⟩ := List.forall_mem_cons.1 hf
      exact ⟨first, (hhead record).straight hv hd hdistinct.1 hfirst, ih htail hdistinct.2 ha⟩

end Items

section Members

variable {members : List (Except Fault Text × Outline)} {pairs : List (Text × Value)}

/-- Whether a name means a field. -/
def isKnown (fields : List (RecordField Record)) (name : Text) : Bool := (find? fields name).isSome

/-- The members of an object value that mean a field. -/
def known (fields : List (RecordField Record)) (pairs : List (Text × Value)) :
    List (Text × Value) :=
  pairs.filter fun pair => isKnown fields pair.1

/-- Reading a record from an object value asks for its fields only. -/
theorem ofMemberValues_known :
    ofMemberValues fields given record (known fields pairs) =
      ofMemberValues fields given record pairs := by
  induction pairs generalizing given record with
  | nil => rfl
  | cons pair rest ih =>
    obtain ⟨name, v⟩ := pair
    cases hfind : find? fields name with
    | none =>
      have htake : take fields given name = .ok none := take_eq_none_iff.2 hfind
      have hfilter : known fields ((name, v) :: rest) = known fields rest := by
        simp [known, isKnown, hfind]
      rw [hfilter, ofMemberValues, htake, ih]
      rfl
    | some f =>
      have hfilter : known fields ((name, v) :: rest) = (name, v) :: known fields rest := by
        simp [known, isKnown, hfind]
      rw [hfilter, ofMemberValues, ofMemberValues]
      simp only [ih]

/-- A record that is read straight gives none of its fields twice. -/
theorem nodup_known_of_ofMembers (h : List.Forall₂ (Outline.MemberIs depth) members pairs)
    (ha : ofMembers fields depth' given record .closed members = .ok a) :
    (Dictionary.keys (known fields pairs)).Nodup ∧
      ∀ name ∈ Dictionary.keys (known fields pairs), ∀ f, find? fields name = some f →
        f.name ∉ given := by
  induction h generalizing given record with
  | nil => simp [known, Dictionary.keys]
  | @cons member pair members pairs hmember _ ih =>
    obtain ⟨name, v⟩ := pair
    obtain ⟨_, o⟩ := member
    obtain ⟨rfl, hv⟩ := hmember
    simp only [ofMembers, bind_eq_ok_iff, Except.ok.injEq, exists_eq_left'] at ha
    obtain ⟨taken, htake, ha⟩ := ha
    cases taken with
    | none =>
      have hfind := take_eq_none_iff.1 htake
      have hfilter : known fields ((name, v) :: pairs) = known fields pairs := by
        simp [known, isKnown, hfind]
      simp only [bind_eq_ok_iff] at ha
      obtain ⟨_, _, ha⟩ := ha
      rw [hfilter]
      exact ih ha
    | some f =>
      obtain ⟨hfind, hnew⟩ := take_eq_some_iff.1 htake
      have hkeys : Dictionary.keys (known fields ((name, v) :: pairs)) =
          name :: Dictionary.keys (known fields pairs) := by
        simp [known, isKnown, hfind, Dictionary.keys]
      simp only [bind_eq_ok_iff] at ha
      obtain ⟨first, _, ha⟩ := ha
      obtain ⟨hnodup, hothers⟩ := ih ha
      rw [hkeys]
      refine ⟨List.nodup_cons.2 ⟨fun hname => ?_, hnodup⟩, fun other hother g hg => ?_⟩
      · exact hothers name hname f hfind List.mem_cons_self
      · rcases List.mem_cons.1 hother with rfl | hother
        · obtain rfl := Option.some.inj (hfind.symm.trans hg)
          exact hnew
        · exact fun hmem => hothers other hother g hg (List.mem_cons_of_mem _ hmem)

/-- What both ways read from members is the same. -/
theorem same_members (hf : ∀ f ∈ fields, f.IsReadAlike)
    (h : List.Forall₂ (Outline.MemberIs depth) members pairs)
    (ha : ofMembers fields depth' given record .closed members = .ok a)
    (hb : ofMemberValues fields given record pairs = .ok b) : a = b := by
  induction h generalizing given record with
  | nil =>
    obtain rfl : record = b := by simpa [ofMemberValues] using hb
    simpa [ofMembers, ObjectEnd.fault?, Outline.unlessFault, eq_comm] using ha
  | @cons member pair members pairs hmember _ ih =>
    obtain ⟨name, v⟩ := pair
    obtain ⟨_, o⟩ := member
    obtain ⟨rfl, hv⟩ := hmember
    simp only [ofMembers, ofMemberValues, bind_eq_ok_iff, Except.ok.injEq, exists_eq_left'] at ha hb
    obtain ⟨taken, htake, ha⟩ := ha
    obtain ⟨taken', htake', hb⟩ := hb
    obtain rfl : taken = taken' := Except.ok.inj (htake.symm.trans htake')
    cases taken with
    | none =>
      simp only [bind_eq_ok_iff] at ha
      obtain ⟨_, _, ha⟩ := ha
      exact ih ha hb
    | some f =>
      simp only [bind_eq_ok_iff] at ha hb
      obtain ⟨first, hfirst, ha⟩ := ha
      obtain ⟨second, hsecond, hb⟩ := hb
      have hmem : f ∈ fields := List.mem_of_find?_eq_some (take_eq_some_iff.1 htake).1
      obtain rfl := (hf f hmem record).same hv hfirst hsecond
      exact ih ha hb

/-- What is read from the members of an object value is read straight from members without repeated
names. -/
theorem straight_members (hf : ∀ f ∈ fields, f.IsReadAlike) (hd : depth ≤ depth')
    (hdistinct : Outline.DistinctMembers members)
    (h : List.Forall₂ (Outline.MemberIs depth) members pairs)
    (ha : ofMemberValues fields given record pairs = .ok a) :
    ofMembers fields depth' given record .closed members = .ok a := by
  induction h generalizing given record with
  | nil =>
    obtain rfl : record = a := by simpa [ofMemberValues] using ha
    simp [ofMembers, ObjectEnd.fault?, Outline.unlessFault]
  | @cons member pair members pairs hmember _ ih =>
    obtain ⟨name, v⟩ := pair
    obtain ⟨_, o⟩ := member
    obtain ⟨rfl, hv⟩ := hmember
    simp only [ofMembers, ofMemberValues, bind_eq_ok_iff, Except.ok.injEq,
      exists_eq_left'] at ha ⊢
    obtain ⟨taken, htake, ha⟩ := ha
    refine ⟨taken, htake, ?_⟩
    cases taken with
    | none =>
      have hskip : o.skip = .ok () := by rw [Outline.skip, Outline.skipFault?_of_value o hv]
      exact bind_eq_ok_iff.2 ⟨(), hskip, ih hdistinct.2 ha⟩
    | some f =>
      simp only [bind_eq_ok_iff] at ha ⊢
      obtain ⟨first, hfirst, ha⟩ := ha
      have hmem : f ∈ fields := List.mem_of_find?_eq_some (take_eq_some_iff.1 htake).1
      exact ⟨first, (hf f hmem record).straight hv hd hdistinct.1 hfirst, ih hdistinct.2 ha⟩

end Members

/-- A record is read alike, if each of its fields is. -/
theorem readAlike_record (hf : ∀ f ∈ fields, f.IsReadAlike) (expected : Text) (record : Record) :
    ReadAlike (readOutline fields expected record) (readValue fields expected record) where
  same {o depth depth' v a b} hv ha hb := by
    cases Outline.value_eq_ok_iff.1 hv with
    | @list _ items vs h =>
      cases depth' with
      | zero => simp [readOutline] at ha
      | succ depth' => exact same_items hf h ha hb
    | @object _ members pairs h =>
      cases depth' with
      | zero => simp [readOutline] at ha
      | succ depth' =>
        have hkept : known fields (Dictionary.ofPairs pairs) = known fields pairs := by
          rw [known, Dictionary.filter_ofPairs]
          exact Dictionary.ofPairs_eq_self (nodup_known_of_ofMembers h ha).1
        refine same_members hf h ha ?_
        rw [← ofMemberValues_known, ← hkept, ofMemberValues_known]
        exact hb
    | _ => simp [readValue] at hb
  straight {o depth depth' v a} hv hd hdistinct ha := by
    cases Outline.value_eq_ok_iff.1 hv with
    | @list inner items vs h =>
      obtain ⟨inner', rfl⟩ : ∃ n, depth' = n + 1 := ⟨depth' - 1, by omega⟩
      exact straight_items hf (by omega) hdistinct h ha
    | @object inner members pairs h =>
      obtain ⟨inner', rfl⟩ : ∃ n, depth' = n + 1 := ⟨depth' - 1, by omega⟩
      refine straight_members hf (by omega) hdistinct.2 h ?_
      rw [← Outline.ofPairs_of_distinct h hdistinct.1]
      exact ha
    | _ => simp [readValue] at ha

end RecordField

end ArgGuard.Metadata

namespace ArgGuard

open Json Metadata

/-- The fields of what is declared about an argument are read alike. -/
theorem ArgSpec.isReadAlike_fields : ∀ f ∈ ArgSpec.fields, f.IsReadAlike := by
  refine List.forall_mem_cons.2 ⟨fun spec => ?_, List.forall_mem_cons.2 ⟨fun spec => ?_, nofun⟩⟩
  · exact readAlike_optional.map fun schema => { spec with schema }
  · exact readAlike_bool.map fun required => { spec with required }

/-- What is declared about an argument is read alike. -/
theorem ArgSpec.readAlike : ReadAlike ArgSpec.read ArgSpec.ofValue :=
  RecordField.readAlike_record isReadAlike_fields _ _

namespace FunctionMetadata

/-- The arguments of a function are read alike. -/
theorem readAlike_args (m : FunctionMetadata) :
    ReadAlike
      (fun depth o =>
        match h : readDictionary ArgSpec.read depth o with
        | .ok args => .ok { m with args, distinct := nodup_keys_readDictionary h }
        | .error fault => .error fault)
      (fun v =>
        match h : readDictionaryValue ArgSpec.ofValue v with
        | .ok args => .ok { m with args, distinct := nodup_keys_readDictionaryValue h }
        | .error fault => .error fault) where
  same hv ha hb := by
    split at ha
    next args hargs =>
      split at hb
      next args' hargs' =>
        obtain rfl := ArgSpec.readAlike.dictionary.same hv hargs hargs'
        exact Except.ok.inj (ha.symm.trans hb)
      next => simp at hb
    next => simp at ha
  straight hv hd hdistinct ha := by
    split at ha
    next args' hargs' =>
      have hargs := ArgSpec.readAlike.dictionary.straight hv hd hdistinct hargs'
      split
      next args h =>
        obtain rfl := Except.ok.inj (h.symm.trans hargs)
        exact ha
      next fault h => simp [h] at hargs
    next => simp at ha

/-- The fields of what is declared about a function are read alike. -/
theorem isReadAlike_fields : ∀ f ∈ fields, f.IsReadAlike := by
  refine List.forall_mem_cons.2 ⟨fun m => ?_, List.forall_mem_cons.2 ⟨readAlike_args,
    List.forall_mem_cons.2 ⟨fun m => ?_, List.forall_mem_cons.2 ⟨fun m => ?_, nofun⟩⟩⟩⟩
  · exact readAlike_double.map fun version => { m with version }
  · exact readAlike_packing.map fun packing => { m with packing }
  · exact readAlike_bool.map fun naked => { m with naked }

/-- What is declared about a function is read alike. -/
theorem readAlike : ReadAlike FunctionMetadata.read FunctionMetadata.ofValue :=
  RecordField.readAlike_record isReadAlike_fields _ _

end FunctionMetadata

/-- The metadata of a package is read alike. -/
theorem MetadataIndex.readAlike :
    ReadAlike (readDictionary FunctionMetadata.read) MetadataIndex.ofValue :=
  FunctionMetadata.readAlike.dictionary

end ArgGuard
