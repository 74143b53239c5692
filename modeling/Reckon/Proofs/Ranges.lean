import Mathlib.Data.List.Induction
import Reckon.Proofs.Lexemes
/-!
# The two readers of numerals

Numerals are read twice: the range check reads them to compare them with the
greatest number allowed, and classification reads them into tokens, as far as they
can be read at all. Both go by the value that the digits denote, however many they
are. So classification has nothing to refuse behind the range check, and it does not
matter that its own bound is a wider one.
-/

namespace Reckon

namespace Numeral

theorem value_concat (digits : Text) (d : Char) :
    value (digits ++ [d]) = 10 * value digits + (d.toNat - '0'.toNat) := by
  simp only [value, Nat.ofDigitChars_append, Nat.ofDigitChars_cons, Nat.ofDigitChars_nil]

/-- A digit denotes a number below ten, and is all of its decimal digits. -/
theorem digit_spec {d : Char} (h : d.isDigit = true) :
    d.toNat - '0'.toNat < 10 ∧ Nat.toDigits 10 (d.toNat - '0'.toNat) = [d] := by
  have hd : 48 ≤ d.toNat ∧ d.toNat ≤ 57 := by
    simpa [Char.isDigit, UInt32.le_iff_toNat_le] using h
  have hzero : '0'.toNat = 48 := rfl
  have hlt : d.toNat - '0'.toNat < 10 := by omega
  refine ⟨hlt, ?_⟩
  rw [Nat.toDigits_of_lt_base hlt, List.singleton_inj]
  apply Char.toNat_inj.1
  rw [Nat.toNat_digitChar_of_lt_ten hlt]
  omega

/-- A numeral is zeros and then the decimal digits of its value. -/
theorem exists_padding {digits : Text} (h : isNumeral digits = true) :
    ∃ zeros, digits = List.replicate zeros '0' ++ Nat.toDigits 10 (value digits) := by
  obtain ⟨hne, hdigits⟩ := (isNumeral_iff digits).1 h
  clear h
  induction digits using List.reverseRecOn with
  | nil => exact absurd rfl hne
  | append_singleton front d ih =>
    obtain ⟨hlt, hd⟩ := digit_spec (hdigits d (by simp))
    rw [value_concat]
    by_cases hf : front = []
    · subst hf
      have hnil : value [] = 0 := rfl
      exact ⟨0, by rw [hnil, Nat.mul_zero, Nat.zero_add, hd]; rfl⟩
    · obtain ⟨zeros, hz⟩ := ih hf (fun c hc => hdigits c (List.mem_append_left _ hc))
      rcases Nat.eq_zero_or_pos (value front) with h0 | hpos
      · -- All that stands in front of the last digit is zeros.
        rw [h0] at hz ⊢
        refine ⟨zeros + 1, ?_⟩
        rw [Nat.mul_zero, Nat.zero_add, hd, hz, List.replicate_succ']
        rfl
      · refine ⟨zeros, ?_⟩
        rw [← Nat.toDigits_append_toDigits (by decide) hpos hlt, hd, ← List.append_assoc, ← hz]

end Numeral

namespace Token

/-! ## Classification of one lexeme -/

/-- A numeral is read if its value is not above `largest`. -/
theorem classify_of_isNumeral {l : Lexeme} (h : Numeral.isNumeral l = true) :
    classify l = pure (if Numeral.value l ≤ Numeral.largest then .ok (some (number (Numeral.value l)))
      else .error .outOfRange) := by
  unfold classify
  rw [if_pos h, Numeral.read?_eq]
  split_ifs <;> rfl

/-- Other lexemes are no numbers, and it is not their range that is wrong with them. -/
theorem classify_of_not_isNumeral {l : Lexeme} (h : Numeral.isNumeral l = false) :
    (classify l).value ≠ .error .outOfRange ∧ ∀ n, (classify l).value ≠ .ok (some (number n)) := by
  unfold classify
  rw [if_neg (by rw [h]; decide)]
  split
  · simp
  · split
    · simp
    · split
      · simp
      · unfold Operator.ofLexeme
        split <;> simp [Except.map]

theorem eq_outOfRange {l : Lexeme} (h : (classify l).value = .error .outOfRange) :
    Numeral.isNumeral l = true ∧ Numeral.largest < Numeral.value l := by
  cases hn : Numeral.isNumeral l with
  | false => exact absurd h (classify_of_not_isNumeral hn).1
  | true =>
    rw [classify_of_isNumeral hn, Logged.value_pure] at h
    split at h
    · cases h
    · next hle => exact ⟨rfl, Nat.lt_of_not_le hle⟩

theorem eq_number {l : Lexeme} {n : Nat} (h : (classify l).value = .ok (some (number n))) :
    Numeral.isNumeral l = true ∧ n = Numeral.value l := by
  cases hn : Numeral.isNumeral l with
  | false => exact absurd h ((classify_of_not_isNumeral hn).2 n)
  | true =>
    rw [classify_of_isNumeral hn, Logged.value_pure] at h
    split at h
    · cases h
      exact ⟨rfl, rfl⟩
    · cases h

/-! ## Classification of all lexemes -/

theorem value_classifyAll_cons (l : Lexeme) (rest : List Lexeme) :
    (classifyAll (l :: rest)).value =
      (classify l).value.bind fun token? => (classifyAll rest).value.map (token?.toList ++ ·) := by
  rw [classifyAll, Logged.value_bind]
  cases (classify l).value <;> rfl

/-- A fault is that of a lexeme. -/
theorem classifyAll_error {lexemes : List Lexeme} {fault : Fault} (h : (classifyAll lexemes).value = .error fault) :
    ∃ l ∈ lexemes, (classify l).value = .error fault := by
  induction lexemes with
  | nil => cases h
  | cons l rest ih =>
    rw [value_classifyAll_cons] at h
    cases hl : (classify l).value with
    | error fault' =>
      rw [hl] at h
      cases h
      exact ⟨l, by simp, hl⟩
    | ok token? =>
      rw [hl] at h
      cases hr : (classifyAll rest).value with
      | error fault' =>
        simp only [Except.bind, hr] at h
        cases h
        obtain ⟨l', hmem, hl'⟩ := ih hr
        exact ⟨l', by simp [hmem], hl'⟩
      | ok tokens => simp only [Except.bind, hr] at h; cases h

/-- A token is that of a lexeme. -/
theorem mem_classifyAll {lexemes : List Lexeme} {tokens : List Token} {token : Token}
    (h : (classifyAll lexemes).value = .ok tokens) (ht : token ∈ tokens) :
    ∃ l ∈ lexemes, (classify l).value = .ok (some token) := by
  induction lexemes generalizing tokens with
  | nil => cases h; cases ht
  | cons l rest ih =>
    rw [value_classifyAll_cons] at h
    cases hl : (classify l).value with
    | error fault => rw [hl] at h; cases h
    | ok token? =>
      rw [hl] at h
      cases hr : (classifyAll rest).value with
      | error fault => simp only [Except.bind, hr] at h; cases h
      | ok tokens' =>
        simp only [Except.bind, hr] at h
        cases h
        rcases List.mem_append.1 ht with ht | ht
        · exact ⟨l, by simp, by rw [hl, Option.mem_toList.1 ht]⟩
        · obtain ⟨l', hmem, hl'⟩ := ih hr ht
          exact ⟨l', by simp [hmem], hl'⟩

/-- Behind the range check no numeral is refused, and the numbers are those allowed. -/
theorem classifyAll_of_allowed {lexemes : List Lexeme} (h : ∀ l ∈ lexemes, Lexeme.Allowed l) :
    (classifyAll lexemes).value ≠ .error .outOfRange ∧
      ∀ tokens, (classifyAll lexemes).value = .ok tokens → ∀ n, number n ∈ tokens → n ≤ Lexeme.greatest := by
  constructor
  · intro he
    obtain ⟨l, hl, hout⟩ := classifyAll_error he
    obtain ⟨hn, hlt⟩ := eq_outOfRange hout
    have hle := h l hl hn
    have hgreatest : Lexeme.greatest ≤ Numeral.largest := by decide
    omega
  · intro tokens hok n hmem
    obtain ⟨l, hl, hnumber⟩ := mem_classifyAll hok hmem
    obtain ⟨hn, rfl⟩ := eq_number hnumber
    exact h l hl hn

end Token

/-- The range check holds exactly if every numeral in the list has a value of at most
20. A numeral of any length is zeros and the decimal digits of its value, and it is
classified as the number of that value if that is below `2 ^ 32`, and as out of range
otherwise. So classification never finds a number out of range that the range check
has passed, and the range check refuses all that classification would refuse. -/
theorem Lexeme.range_checks_agree (lexemes : List Lexeme) :
    ((inRange lexemes).value = true ↔ ∀ l ∈ lexemes, Numeral.isNumeral l = true → Numeral.value l ≤ 20) ∧
      (∀ l : Lexeme, Numeral.isNumeral l = true →
        (∃ zeros, l = List.replicate zeros '0' ++ Nat.toDigits 10 (Numeral.value l)) ∧
        (Token.classify l).value = if Numeral.value l ≤ 4294967295 then .ok (some (.number (Numeral.value l)))
          else .error .outOfRange) ∧
      ((inRange lexemes).value = true →
        (Token.classifyAll lexemes).value ≠ .error .outOfRange ∧
        ∀ tokens, (Token.classifyAll lexemes).value = .ok tokens → ∀ n, .number n ∈ tokens → n ≤ 20) ∧
      ((Token.classifyAll lexemes).value = .error .outOfRange → (inRange lexemes).value = false) := by
  have hrange : (inRange lexemes).value = true ↔ ∀ l ∈ lexemes, Allowed l := inRange_iff lexemes
  refine ⟨hrange, ?_, ?_, ?_⟩
  · intro l hn
    refine ⟨Numeral.exists_padding hn, ?_⟩
    rw [Token.classify_of_isNumeral hn]
    rfl
  · intro h
    exact Token.classifyAll_of_allowed (hrange.1 h)
  · intro h
    rw [← Bool.not_eq_true]
    intro hr
    exact (Token.classifyAll_of_allowed (hrange.1 hr)).1 h

/-- Twenty behind many zeros, and twenty more than `2 ^ 32`. -/
theorem Lexeme.range_checks_agree_long :
    (inRange ["000000000000020".toList, "and".toList]).value = true ∧
      Numeral.isNumeral "4294967316".toList = true ∧
      (Token.classify "4294967316".toList).value = .error .outOfRange ∧
      (inRange ["000000000000020".toList, "4294967316".toList]).value = false := by
  have hclassify : (Token.classify "4294967316".toList).value = .error .outOfRange :=
    ((range_checks_agree []).2.1 _ (by decide)).2
  refine ⟨(range_checks_agree _).1.2 (by decide), by decide, hclassify, (range_checks_agree _).2.2.2 ?_⟩
  decide

end Reckon
