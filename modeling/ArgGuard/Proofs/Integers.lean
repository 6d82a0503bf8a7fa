import ArgGuard.Proofs.JsonValues

/-!
# The integers of a JSON text

An integer beyond 64 bits is read as a double, so every integer of a value that was read from a text
is one that 64 bits hold, with a sign or without.
-/

namespace ArgGuard

namespace Json

/-- An integer is one that 64 bits hold, with a sign or without. -/
def Number.fits : Number → Bool
  | int n => -(Nat.pow 2 63 : Nat) ≤ n && n < (Nat.pow 2 64 : Nat)
  | double _ => true

/-- An integer fits between the least one with a sign and the greatest one without. -/
theorem Number.fits_int_iff {z : Int} :
    (int z).fits ↔ -9223372036854775808 ≤ z ∧ z < 18446744073709551616 := by
  simp [fits]

namespace Value

mutual

/-- Every integer of a value is one that 64 bits hold. -/
def fits : Value → Bool
  | number n => n.fits
  | array items => fitsItems items
  | object members => fitsMembers members
  | _ => true

/-- Every integer among the items of an array is one that 64 bits hold. -/
def fitsItems : List Value → Bool
  | [] => true
  | item :: rest => fits item && fitsItems rest

/-- Every integer among the members of an object is one that 64 bits hold. -/
def fitsMembers : List (Text × Value) → Bool
  | [] => true
  | (_, value) :: rest => fits value && fitsMembers rest

end

/-- The items of an array are as the array where 64 bits hold its integers. -/
theorem fitsItems_iff {items : List Value} : fitsItems items ↔ ∀ item ∈ items, item.fits := by
  induction items with
  | nil => simp [fitsItems]
  | cons item rest ih => simp [fitsItems, ih]

/-- The members of an object are as the object where 64 bits hold its integers. -/
theorem fitsMembers_iff {members : List (Text × Value)} :
    fitsMembers members ↔ ∀ member ∈ members, member.2.fits := by
  induction members with
  | nil => simp [fitsMembers]
  | cons member rest ih => simp [fitsMembers, ih]

end Value

/-- Digits make a number no smaller. -/
theorem le_foldl_appendDigit (n : Nat) (digits : Text) : n ≤ digits.foldl appendDigit n := by
  induction digits generalizing n with
  | nil => exact Nat.le_refl n
  | cons c rest ih =>
    have hdigit : n ≤ appendDigit n c := by
      rw [appendDigit]
      omega
    exact Nat.le_trans hdigit (ih _)

/-- No digit is left exactly if 64 bits hold the number with all of them. -/
theorem takeDigits_eq_iff {n value : Nat} {digits : Text} (hn : n < Nat.pow 2 64) :
    takeDigits n digits = (value, []) ↔
      digits.foldl appendDigit n = value ∧ value < Nat.pow 2 64 := by
  induction digits generalizing n with
  | nil =>
    simp only [takeDigits, List.foldl_nil, Prod.mk.injEq, and_true]
    exact ⟨fun h => ⟨h, h ▸ hn⟩, And.left⟩
  | cons c rest ih =>
    rw [takeDigits, List.foldl_cons]
    split
    next hnext => exact ih hnext
    next hnext =>
      have hle := le_foldl_appendDigit (appendDigit n c) rest
      refine ⟨by simp, ?_⟩
      rintro ⟨rfl, hlt⟩
      exact absurd (Nat.lt_of_le_of_lt hle hlt) hnext

/-- No digit of a number is left exactly if 64 bits hold it. -/
theorem takeDigits_zero_eq_iff {value : Nat} {digits : Text} :
    takeDigits 0 digits = (value, []) ↔ digitsValue digits = value ∧ value < Nat.pow 2 64 :=
  takeDigits_eq_iff (by decide)

/-- A numeral is read as an integer exactly if it is written as one that 64 bits hold, with a sign
or without; a zero with a sign is none. -/
theorem Numeral.value_eq_int_iff {n : Numeral} {z : Int} :
    n.value = .ok (.int z) ↔
      n.fraction = none ∧ n.exponent = none ∧ (Number.int z).fits ∧
        z = (if n.negative then -(digitsValue n.whole : Int) else digitsValue n.whole) ∧
        (n.negative → z ≠ 0) := by
  have hpow : Nat.pow 2 64 = 18446744073709551616 := rfl
  obtain ⟨negative, digits, fraction, exponent⟩ := n
  rw [Number.fits_int_iff]
  obtain ⟨⟨whole, left⟩, htaken⟩ : ∃ taken, takeDigits 0 digits = taken := ⟨_, rfl⟩
  simp only [Numeral.value, htaken]
  split
  next hint =>
    simp only [Bool.and_eq_true, Option.isNone_iff_eq_none, List.isEmpty_iff] at hint
    obtain ⟨⟨⟨rfl, rfl⟩, rfl⟩, hsign⟩ := hint
    obtain ⟨rfl, hlt⟩ := takeDigits_zero_eq_iff.1 htaken
    simp only [Except.ok.injEq, Number.int.injEq, true_and]
    cases negative <;> simp at hsign ⊢ <;> omega
  next hint =>
    constructor
    · intro h
      split at h <;> simp at h
    · rintro ⟨rfl, rfl, hfits, rfl, hzero⟩
      -- All digits are taken then, so nothing but the sign could stand against an integer.
      have hlt : digitsValue digits < Nat.pow 2 64 := by
        cases negative <;> simp at hfits <;> omega
      have hall : takeDigits 0 digits = (digitsValue digits, []) :=
        takeDigits_zero_eq_iff.2 ⟨rfl, hlt⟩
      obtain ⟨rfl, rfl⟩ := Prod.mk.inj (htaken.symm.trans hall)
      cases negative with
      | false => simp at hint
      | true =>
        simp at hint hfits hzero
        omega

/-- The greatest integer without a sign is read as one, the next as a double with fewer digits. A
fraction is read in steps that round, so it need not be read as the nearest double. -/
example :
    (Numeral.mk false "18446744073709551615" none none).value =
        .ok (.int 18446744073709551615) ∧
      (Numeral.mk false "18446744073709551616" none none).value =
        (Numeral.mk false "1844674407370955161" none (some 1)).value ∧
      (Numeral.mk false "1" (some "09999999999999997") none).value =
        (Numeral.mk false "1" (some "1") none).value := by decide +kernel

/-- A numeral that is read as an integer is one that 64 bits hold. -/
theorem Numeral.fits_value {n : Numeral} {value : Number} (h : n.value = .ok value) :
    value.fits := by
  cases value with
  | int z => exact (value_eq_int_iff.1 h).2.2.1
  | double x => rfl

/-- A word in front of a text is no number. -/
theorem readWord_ne_number {start : Char} {letters s rest : Text} {leaf : Scalar}
    {n : Except Fault Number} (hleaf : leaf ≠ .number n) :
    readWord start letters leaf s ≠ .scalar (.number n) rest := by
  induction letters generalizing s with
  | nil => simp [readWord, hleaf]
  | cons expected letters ih =>
    cases s with
    | nil => simp [readWord]
    | cons c s =>
      rw [readWord]
      split
      next => exact ih
      next => simp

/-- A number that is read fits. -/
theorem fits_of_readNumber {start : Char} {negative : Bool} {s rest : Text} {n : Number}
    (h : readNumber start negative s = .scalar (.number (.ok n)) rest) : n.fits := by
  unfold readNumber at h
  split at h
  next numeral _ _ =>
    simp only [Front.scalar.injEq, Scalar.number.injEq] at h
    exact Numeral.fits_value h.1
  next => simp at h

/-- A number in front of a text is one that fits. -/
theorem fits_of_front {s rest : Text} {n : Number}
    (h : Front.ofText s = .scalar (.number (.ok n)) rest) : n.fits := by
  unfold Front.ofText at h
  split at h
  next => simp at h
  next c inside _ =>
    split_ifs at h
    · exact absurd h (readWord_ne_number (by simp))
    · exact absurd h (readWord_ne_number (by simp))
    · exact absurd h (readWord_ne_number (by simp))
    · split at h <;> simp at h
    · exact fits_of_readNumber h
    · exact fits_of_readNumber h

namespace Outline

mutual

/-- Every integer of a value in front of a text is one that 64 bits hold. -/
theorem InFront.fits {s rest : Text} {o : Outline} (h : InFront s o rest) {depth : Nat} {v : Value}
    (hv : o.value depth = .ok v) : v.fits := by
  match h, value_eq_ok_iff.1 hv with
  | .scalar hf, .null => rfl
  | .scalar hf, .bool _ => rfl
  | .scalar hf, .number _ => exact fits_of_front hf
  | .scalar hf, .string _ => rfl
  | .emptyList _ _, .list .nil => rfl
  | .list _ hi, .list hvs => exact Value.fitsItems_iff.2 (hi.fits hvs)
  | .emptyObject _ _, .object .nil => rfl
  | .object _ hm, .object hpairs =>
    exact Value.fitsMembers_iff.2 fun entry hentry =>
      hm.fits hpairs entry (Dictionary.mem_of_mem_ofPairs hentry)

/-- Every integer of the items of an array in front of a text is one that 64 bits hold. -/
theorem ItemsInFront.fits {s rest : Text} {items : List Outline} (h : ItemsInFront s items rest)
    {depth : Nat} {vs : List Value}
    (hvs : List.Forall₂ (fun o v => o.value depth = .ok v) items vs) : ∀ v ∈ vs, v.fits := by
  match h, hvs with
  | .last h _, .cons hv .nil => exact List.forall_mem_cons.2 ⟨h.fits hv, nofun⟩
  | .more h _ hi, .cons hv hvs => exact List.forall_mem_cons.2 ⟨h.fits hv, hi.fits hvs⟩

/-- Every integer of the members of an object in front of a text is one that 64 bits hold. -/
theorem MembersInFront.fits {s rest : Text} {members : List (Except Fault Text × Outline)}
    (h : MembersInFront s members rest) {depth : Nat} {pairs : List (Text × Value)}
    (hpairs : List.Forall₂ (MemberIs depth) members pairs) : ∀ pair ∈ pairs, pair.2.fits := by
  match h, hpairs with
  | .last _ _ _ h _, .cons hv .nil => exact List.forall_mem_cons.2 ⟨h.fits hv.2, nofun⟩
  | .more _ _ _ h _ hm, .cons hv hpairs =>
    exact List.forall_mem_cons.2 ⟨h.fits hv.2, hm.fits hpairs⟩

end

end Outline

/-- Every integer of a value that is read from a text is one that 64 bits hold. -/
theorem Value.fits_of_ofText {s : Text} {v : Value} (h : Value.ofText s = .ok v) : v.fits := by
  simp only [Value.ofText, readText, bind_eq_ok_iff, Outline.unlessFault_eq_ok_iff] at h
  obtain ⟨_, hv, _, rfl⟩ := h
  exact (Outline.inFront_iff.2 ⟨rfl, Outline.skipFault?_of_value _ hv⟩).fits hv

end Json

end ArgGuard
