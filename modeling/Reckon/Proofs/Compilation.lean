import Reckon.Program
import Reckon.Proofs.Execution
import Reckon.Proofs.Lexemes
import Reckon.Proofs.Reordering
/-!
# When a text compiles

Plain text within range compiles as far as its parentheses allow; nothing else
about it matters. `compile_outcome` says for every text which of the outcomes it
has, and that no other one exists: two of the faults are never met.
-/

namespace Reckon

namespace Lexeme

/-- No right parenthesis comes before its left one, and there are as many of both. -/
def Balanced (lexemes : List Lexeme) : Prop :=
  (∀ front, front <+: lexemes → front.count [')'] ≤ front.count ['(']) ∧
    lexemes.count [')'] = lexemes.count ['(']

/-- Where a token can come from. -/
theorem token?_cases {l : Lexeme} {token : Token} (h : l.token? = some token) :
    (Numeral.isNumeral l = true ∧ token = .number (Numeral.value l)) ∨ (l = ['('] ∧ token = .leftParen) ∨
      (l = [')'] ∧ token = .rightParen) ∨ ∃ op, token = .operator op := by
  unfold token? at h
  split at h
  · next hn => cases h; exact .inl ⟨hn, rfl⟩
  · split at h
    · next hl => cases h; exact .inr (.inl ⟨hl, rfl⟩)
    · split at h
      · next hr => cases h; exact .inr (.inr (.inl ⟨hr, rfl⟩))
      · obtain ⟨op, -, rfl⟩ := Option.map_eq_some_iff.1 h
        exact .inr (.inr (.inr ⟨op, rfl⟩))

theorem token?_eq_leftParen_iff (l : Lexeme) : l.token? = some .leftParen ↔ l = ['('] := by
  constructor
  · intro h
    rcases token?_cases h with ⟨-, e⟩ | ⟨hl, -⟩ | ⟨-, e⟩ | ⟨op, e⟩
    · cases e
    · exact hl
    · cases e
    · cases e
  · rintro rfl
    rfl

theorem token?_eq_rightParen_iff (l : Lexeme) : l.token? = some .rightParen ↔ l = [')'] := by
  constructor
  · intro h
    rcases token?_cases h with ⟨-, e⟩ | ⟨-, e⟩ | ⟨hr, -⟩ | ⟨op, e⟩
    · cases e
    · cases e
    · exact hr
    · cases e
  · rintro rfl
    rfl

theorem count_leftParen_tokens (lexemes : List Lexeme) :
    (lexemes.filterMap token?).count .leftParen = lexemes.count ['('] := by
  rw [List.count_filterMap]
  exact List.countP_congr (fun l _ => by simpa using token?_eq_leftParen_iff l)

theorem count_rightParen_tokens (lexemes : List Lexeme) :
    (lexemes.filterMap token?).count .rightParen = lexemes.count [')'] := by
  rw [List.count_filterMap]
  exact List.countP_congr (fun l _ => by simpa using token?_eq_rightParen_iff l)

/-- Words and numbers do not matter for the balance of parentheses. -/
theorem balanced_tokens_iff (lexemes : List Lexeme) :
    Reckon.Balanced (lexemes.filterMap token?) ↔ Balanced lexemes := by
  unfold Reckon.Balanced Balanced
  rw [count_leftParen_tokens, count_rightParen_tokens]
  apply and_congr_left
  intro _
  constructor
  · intro h front hf
    have := h _ (hf.filterMap token?)
    rwa [count_leftParen_tokens, count_rightParen_tokens] at this
  · intro h front hf
    -- A front of the tokens comes from a front of the lexemes.
    obtain ⟨front', hf', rfl⟩ := List.prefix_filterMap_iff.1 hf
    rw [count_leftParen_tokens, count_rightParen_tokens]
    exact h front' hf'

end Lexeme

namespace Program

/-! ## Plain text -/

/-- Within range, lexemes become what their tokens are reordered to, and the words
among them are recorded. -/
theorem assemble_of_allowed {lexemes : List Lexeme} (hs : ∀ l ∈ lexemes, Lexeme.Shaped l)
    (ha : ∀ l ∈ lexemes, Lexeme.Allowed l) :
    assemble lexemes =
      ⟨Code.ofTokens (lexemes.filterMap Lexeme.token?), (lexemes.filter Lexeme.isWord).map .dropped⟩ := by
  rw [assemble, Lexeme.inRange_of_allowed ha]
  show (Token.classifyAll lexemes >>= fun tokens => pure (tokens.bind Code.ofTokens)) = _
  rw [Lexeme.classifyAll_eq hs ha]
  show Logged.mk _ (_ ++ []) = _
  rw [List.append_nil]
  rfl

/-- Out of range, nothing behind the first numeral that is too large is looked at. -/
theorem assemble_of_not_allowed {front rest : List Lexeme} {l : Lexeme} (hf : ∀ l' ∈ front, Lexeme.Allowed l')
    (hl : ¬ Lexeme.Allowed l) :
    assemble (front ++ l :: rest) =
      ⟨.error .outOfRange, if Numeral.largest < Numeral.value l then [.overflow l] else []⟩ := by
  rw [assemble, Lexeme.inRange_append_of_allowed hf, Lexeme.inRange_cons_of_not_allowed hl]
  show Logged.mk _ (_ ++ []) = _
  rw [List.append_nil]
  rfl

/-- A plain text compiles as its lexemes do. -/
theorem compilePlain_eq {t : Text} (hp : ∀ c ∈ t, isPlain c = true) :
    compilePlain t = ⟨((assemble (Lexeme.cut t)).value.map fun code => ⟨t, code⟩).mapError Rejection.mk,
      (assemble (Lexeme.cut t)).events⟩ := by
  rw [compilePlain, ofPlain, Lexeme.split_eq hp]
  show Logged.mk _ ((_ ++ []) ++ []) = _
  rw [List.append_nil, List.append_nil]
  rfl

/-- Within range, a plain text compiles as its tokens are reordered. -/
theorem compilePlain_of_allowed {t : Text} (hp : ∀ c ∈ t, isPlain c = true)
    (ha : ∀ l ∈ Lexeme.cut t, Lexeme.Allowed l) :
    (compilePlain t).value =
      ((Code.ofTokens ((Lexeme.cut t).filterMap Lexeme.token?)).map fun code => ⟨t, code⟩).mapError Rejection.mk := by
  rw [compilePlain_eq hp, assemble_of_allowed (fun l hl => Lexeme.shaped_of_mem_cut hp hl) ha]

/-- Out of range, nothing else is looked at. -/
theorem compilePlain_of_not_allowed {t : Text} (hp : ∀ c ∈ t, isPlain c = true)
    (ha : ¬ ∀ l ∈ Lexeme.cut t, Lexeme.Allowed l) : (compilePlain t).value = .error ⟨.outOfRange⟩ := by
  obtain ⟨front, l, rest, heq, hf, hl⟩ := Lexeme.exists_first_not_allowed ha
  rw [compilePlain_eq hp, heq, assemble_of_not_allowed hf hl]
  rfl

/-- Text that is not plain is not even cut. -/
theorem compilePlain_of_not_plain {t : Text} (hp : ¬ ∀ c ∈ t, isPlain c = true) :
    (compilePlain t).value = .error ⟨.invalidExpression⟩ := by
  simp only [compilePlain, ofPlain, Lexeme.split_eq_error hp]
  rfl

/-- The numbers of a program within range are the values of its numerals. -/
theorem le_greatest_of_push {lexemes : List Lexeme} (ha : ∀ l ∈ lexemes, Lexeme.Allowed l) {code : Code}
    (hc : Code.ofTokens (lexemes.filterMap Lexeme.token?) = .ok code) {n : Nat} (hn : .push n ∈ code) :
    n ≤ Lexeme.greatest := by
  have hcode : n ∈ code.filterMap Instruction.number? := List.mem_filterMap.2 ⟨.push n, hn, rfl⟩
  rw [Code.numbers_ofTokens hc] at hcode
  obtain ⟨token, ht, htn⟩ := List.mem_filterMap.1 hcode
  obtain ⟨l, hl, hlt⟩ := List.mem_filterMap.1 ht
  rcases Lexeme.token?_cases hlt with ⟨hnum, rfl⟩ | ⟨-, rfl⟩ | ⟨-, rfl⟩ | ⟨op, rfl⟩
  · cases htn
    exact ha l hl hnum
  · cases htn
  · cases htn
  · cases htn

/-! ## Any text -/

theorem run_error {p : Program} {r : Rejection} (h : p.run = .error r) :
    r.reason = .invalidExpression ∨ r.reason = .divisionByZero := by
  unfold run at h
  cases hr : Machine.run p.code with
  | ok x => rw [hr] at h; cases h
  | error fault => rw [hr] at h; cases h; exact Machine.run_error hr

/-- The three ways a compilation can end, each with its condition on the lexemes. -/
theorem compile_cases (t : Text) :
    ((¬ ∀ l ∈ Lexeme.cut t.toPlain, Lexeme.Allowed l) ∧ (compile t).value = .error ⟨.outOfRange⟩) ∨
    ((∀ l ∈ Lexeme.cut t.toPlain, Lexeme.Allowed l) ∧ ¬ Lexeme.Balanced (Lexeme.cut t.toPlain) ∧
      (compile t).value = .error ⟨.mismatchedParentheses⟩) ∨
    ((∀ l ∈ Lexeme.cut t.toPlain, Lexeme.Allowed l) ∧ Lexeme.Balanced (Lexeme.cut t.toPlain) ∧
      ∃ p, (compile t).value = .ok p ∧ p.text = t.toPlain ∧ ∀ n, .push n ∈ p.code → n ≤ Lexeme.greatest) := by
  have hp : ∀ c ∈ t.toPlain, isPlain c = true := fun c hc => Text.isPlain_of_mem_toPlain hc
  have hcompile : compile t = compilePlain t.toPlain := rfl
  rw [hcompile]
  by_cases ha : ∀ l ∈ Lexeme.cut t.toPlain, Lexeme.Allowed l
  · rw [compilePlain_of_allowed hp ha, ← Lexeme.balanced_tokens_iff]
    cases hc : Code.ofTokens ((Lexeme.cut t.toPlain).filterMap Lexeme.token?) with
    | error fault =>
      obtain ⟨rfl, hb⟩ := Code.ofTokens_error hc
      exact .inr (.inl ⟨ha, hb, rfl⟩)
    | ok code =>
      have hb := Code.balanced_of_ofTokens hc
      exact .inr (.inr ⟨ha, hb, ⟨t.toPlain, code⟩, rfl, rfl, fun n hn => le_greatest_of_push ha hc hn⟩)
  · exact .inl ⟨ha, compilePlain_of_not_allowed hp ha⟩

theorem compile_eq_outOfRange_iff (t : Text) :
    (compile t).value = .error ⟨.outOfRange⟩ ↔ ¬ ∀ l ∈ Lexeme.cut t.toPlain, Lexeme.Allowed l := by
  rcases compile_cases t with ⟨ha, h⟩ | ⟨ha, -, h⟩ | ⟨ha, -, p, h, -⟩
  · simp only [h, ha, not_false_eq_true]
  · simp [h, not_not_intro ha]
  · simp [h, not_not_intro ha]

theorem compile_eq_mismatchedParentheses_iff (t : Text) :
    (compile t).value = .error ⟨.mismatchedParentheses⟩ ↔
      (∀ l ∈ Lexeme.cut t.toPlain, Lexeme.Allowed l) ∧ ¬ Lexeme.Balanced (Lexeme.cut t.toPlain) := by
  rcases compile_cases t with ⟨ha, h⟩ | ⟨ha, hb, h⟩ | ⟨ha, hb, p, h, -⟩
  · simp [h, ha]
  · exact ⟨fun _ => ⟨ha, hb⟩, fun _ => h⟩
  · simp [h, hb]

theorem compile_error {t : Text} {r : Rejection} (h : (compile t).value = .error r) :
    r.reason = .outOfRange ∨ r.reason = .mismatchedParentheses := by
  rcases compile_cases t with ⟨-, hc⟩ | ⟨-, -, hc⟩ | ⟨-, -, p, hc, -⟩
  · rw [hc] at h; cases h; exact .inl rfl
  · rw [hc] at h; cases h; exact .inr rfl
  · rw [hc] at h; cases h

theorem evaluate_error {t : Text} {r : Rejection} (h : evaluate t = .error r) :
    r.reason = .outOfRange ∨ r.reason = .mismatchedParentheses ∨ r.reason = .invalidExpression ∨
      r.reason = .divisionByZero := by
  unfold evaluate at h
  cases hc : (compile t).value with
  | error r' =>
    rw [hc] at h
    cases h
    rcases compile_error hc with h | h
    · exact .inl h
    · exact .inr (.inl h)
  | ok p => rw [hc] at h; exact .inr (.inr (run_error h))

/-- What becomes of a text. Its plain form can be cut; a numeral above 20 anywhere
among the lexemes is reported first, parentheses that do not match come next, and
there is no other reason not to compile. A program holds numbers up to 20 and
fails to run for want of one value or by a division by zero, so no text has an
unknown operator. -/
theorem compile_outcome (t : Text) :
    ∃ lexemes, Lexeme.split t.toPlain = .ok lexemes ∧
      ((compile t).value = .error ⟨.outOfRange⟩ ↔
        ∃ l ∈ lexemes, Numeral.isNumeral l = true ∧ 20 < Numeral.value l) ∧
      ((compile t).value = .error ⟨.mismatchedParentheses⟩ ↔
        (∀ l ∈ lexemes, Numeral.isNumeral l = true → Numeral.value l ≤ 20) ∧ ¬ Lexeme.Balanced lexemes) ∧
      ((∀ l ∈ lexemes, Numeral.isNumeral l = true → Numeral.value l ≤ 20) → Lexeme.Balanced lexemes →
        ∃ p, (compile t).value = .ok p ∧ p.text = t.toPlain ∧ ∀ n, .push n ∈ p.code → n ≤ 20) ∧
      (∀ r, (compile t).value = .error r → r.reason = .outOfRange ∨ r.reason = .mismatchedParentheses) ∧
      (∀ (p : Program) r, p.run = .error r → r.reason = .invalidExpression ∨ r.reason = .divisionByZero) ∧
      ∀ lexeme, evaluate t ≠ .error ⟨.unknownOperator lexeme⟩ := by
  refine ⟨Lexeme.cut t.toPlain, Lexeme.split_toPlain t, ?_, compile_eq_mismatchedParentheses_iff t, ?_,
    fun r => compile_error, fun p r => run_error, ?_⟩
  · rw [compile_eq_outOfRange_iff]
    simp only [Lexeme.Allowed, Lexeme.greatest, not_forall, exists_prop, Nat.not_le]
  · intro ha hb
    rcases compile_cases t with ⟨ha', -⟩ | ⟨-, hb', -⟩ | ⟨-, -, h⟩
    · exact absurd ha ha'
    · exact absurd hb hb'
    · exact h
  · intro lexeme he
    rcases evaluate_error he with h | h | h | h <;> cases h

end Program

end Reckon
