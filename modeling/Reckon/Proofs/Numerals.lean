import Reckon.Lexeme
/-!
# Reading numerals

`read?` gives up as soon as a number gets too large, `value` goes on to the last
digit. We show that they agree: `read?` fails on exactly the numerals whose value
is above `largest`, however long they are. The range check of lexemes is then a
statement about values alone.
-/

namespace Reckon

namespace Numeral

theorem le_ofDigitChars (digits : Text) (n : Nat) : n ≤ Nat.ofDigitChars 10 digits n := by
  induction digits generalizing n with
  | nil => simp
  | cons d digits ih =>
    rw [Nat.ofDigitChars_cons]
    have h := ih (10 * n + (d.toNat - '0'.toNat))
    omega

/-- Reading on from `n`: once a number is too large, no further digit helps. -/
theorem foldlM_extend? (digits : Text) (n : Nat) (hn : n ≤ largest) :
    digits.foldlM extend? n =
      if Nat.ofDigitChars 10 digits n ≤ largest then some (Nat.ofDigitChars 10 digits n) else none := by
  induction digits generalizing n with
  | nil => simp [hn]
  | cons d digits ih =>
    rw [List.foldlM_cons, Nat.ofDigitChars_cons]
    by_cases h : 10 * n + (d.toNat - '0'.toNat) ≤ largest
    · rw [show extend? n d = some (10 * n + (d.toNat - '0'.toNat)) by simp only [extend?, h, if_true]]
      exact ih _ h
    · -- The number only grows from here, so the rest is not needed to see that it is too large.
      rw [show extend? n d = none by simp only [extend?, h, if_false]]
      have hle := le_ofDigitChars digits (10 * n + (d.toNat - '0'.toNat))
      rw [if_neg (by omega)]
      rfl

theorem read?_eq (digits : Text) :
    read? digits = if value digits ≤ largest then some (value digits) else none :=
  foldlM_extend? digits 0 (Nat.zero_le _)

theorem read?_of_le {digits : Text} (h : value digits ≤ largest) : read? digits = some (value digits) := by
  rw [read?_eq, if_pos h]

/-- Leading zeros do not count. -/
theorem value_padded (zeros n : Nat) : value (List.replicate zeros '0' ++ Nat.toDigits 10 n) = n := by
  simp only [value, Nat.ofDigitChars_append, Nat.ofDigitChars_replicate_zero, Nat.mul_zero]
  exact Nat.ofDigitChars_ten_toDigits

theorem isNumeral_iff (digits : Text) : isNumeral digits = true ↔ digits ≠ [] ∧ ∀ d ∈ digits, d.isDigit = true := by
  simp only [isNumeral, Bool.and_eq_true, Bool.not_eq_true', List.isEmpty_eq_false_iff, List.all_eq_true, ne_eq]

theorem isNumeral_padded (zeros n : Nat) : isNumeral (List.replicate zeros '0' ++ Nat.toDigits 10 n) = true := by
  rw [isNumeral_iff]
  constructor
  · intro he
    exact Nat.toDigits_ne_nil (List.append_eq_nil_iff.1 he).2
  · intro d hd
    rcases List.mem_append.1 hd with hz | hn
    · rw [List.eq_of_mem_replicate hz]
      rfl
    · exact Nat.isDigit_of_mem_toDigits (by omega) (by omega) hn

theorem isNumeral_toDigits (n : Nat) : isNumeral (Nat.toDigits 10 n) = true := isNumeral_padded 0 n

end Numeral

namespace Lexeme

/-- The lexeme is no numeral, or one whose value is allowed. -/
def Allowed (lexeme : Lexeme) : Prop := Numeral.isNumeral lexeme = true → Numeral.value lexeme ≤ greatest

theorem Allowed.read? {lexeme : Lexeme} (h : Allowed lexeme) (hn : Numeral.isNumeral lexeme = true) :
    Numeral.read? lexeme = some (Numeral.value lexeme) :=
  Numeral.read?_of_le (Nat.le_trans (h hn) (by decide))

theorem inRange_cons_of_allowed {l : Lexeme} (h : Allowed l) (rest : List Lexeme) :
    inRange (l :: rest) = inRange rest := by
  rw [inRange]
  by_cases hn : Numeral.isNumeral l = true
  · have hle : Numeral.value l ≤ greatest := h hn
    simp only [hn, h.read? hn, hle, if_true]
  · rw [if_neg hn]

/-- The first numeral that is not allowed ends the check. -/
theorem inRange_cons_of_not_allowed {l : Lexeme} (h : ¬ Allowed l) (rest : List Lexeme) :
    inRange (l :: rest) = ⟨false, if Numeral.largest < Numeral.value l then [.overflow l] else []⟩ := by
  obtain ⟨hn, hgt⟩ := Classical.not_imp.1 h
  rw [inRange, if_pos hn, Numeral.read?_eq]
  by_cases hl : Numeral.value l ≤ Numeral.largest
  · simp only [hl, hgt, if_true, if_false, Nat.not_lt.2 hl]
    rfl
  · simp only [hl, if_true, if_false, Nat.lt_of_not_le hl]
    rfl

theorem inRange_append_of_allowed {front : List Lexeme} (h : ∀ l ∈ front, Allowed l) (rest : List Lexeme) :
    inRange (front ++ rest) = inRange rest := by
  induction front with
  | nil => rfl
  | cons l front ih =>
    rw [List.forall_mem_cons] at h
    rw [List.cons_append, inRange_cons_of_allowed h.1, ih h.2]

theorem inRange_of_allowed {lexemes : List Lexeme} (h : ∀ l ∈ lexemes, Allowed l) : inRange lexemes = pure true := by
  rw [← List.append_nil lexemes, inRange_append_of_allowed h]
  rfl

theorem exists_first_not_allowed {lexemes : List Lexeme} (h : ¬ ∀ l ∈ lexemes, Allowed l) :
    ∃ front l rest, lexemes = front ++ l :: rest ∧ (∀ l' ∈ front, Allowed l') ∧ ¬ Allowed l := by
  induction lexemes with
  | nil => exact absurd (by simp) h
  | cons l rest ih =>
    by_cases hl : Allowed l
    · have hrest : ¬ ∀ l' ∈ rest, Allowed l' := fun hr => h (List.forall_mem_cons.2 ⟨hl, hr⟩)
      obtain ⟨front, d, rest', rfl, hf, hd⟩ := ih hrest
      exact ⟨l :: front, d, rest', rfl, List.forall_mem_cons.2 ⟨hl, hf⟩, hd⟩
    · exact ⟨[], l, rest, rfl, by simp, hl⟩

/-- The range check looks at values only, wherever the numerals stand. -/
theorem inRange_iff (lexemes : List Lexeme) : (inRange lexemes).value = true ↔ ∀ l ∈ lexemes, Allowed l := by
  constructor
  · intro h
    apply Classical.byContradiction
    intro hn
    obtain ⟨front, l, rest, rfl, hf, hl⟩ := exists_first_not_allowed hn
    rw [inRange_append_of_allowed hf, inRange_cons_of_not_allowed hl] at h
    cases h
  · intro h
    rw [inRange_of_allowed h]
    rfl

end Lexeme

end Reckon
