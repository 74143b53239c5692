import Reckon.Proofs.Acceptance
/-!
# Nothing is lost between infix and postfix

Tokens go through the yard exactly if their parentheses are balanced, whatever else
may be wrong with them. The code that comes out consists of their numbers, in the
same order, and of their operators, in an order of its own. Only the parentheses
are gone.
-/

namespace Reckon

/-- A token is a number, an operator or a parenthesis. -/
theorem Token.length_eq (tokens : List Token) :
    tokens.length = (tokens.filterMap Token.number?).length + (tokens.filterMap Token.operator?).length +
      (tokens.count .leftParen + tokens.count .rightParen) := by
  induction tokens with
  | nil => rfl
  | cons token tokens ih =>
    rw [Yard.count_cons_eq token .leftParen, Yard.count_cons_eq token .rightParen, List.length_cons, ih]
    cases token <;> simp [Token.number?, Token.operator?, List.filterMap_cons] <;> omega

/-- An instruction holds a number or an operator. -/
theorem Code.length_eq (code : Code) :
    code.length =
      (code.filterMap Instruction.number?).length + (code.filterMap Instruction.operator?).length := by
  induction code with
  | nil => rfl
  | cons i code ih =>
    rw [List.length_cons, ih]
    cases i <;> simp [Instruction.number?, Instruction.operator?, List.filterMap_cons] <;> omega

theorem Code.operators_ofTokens {tokens : List Token} {code : Code} (h : Code.ofTokens tokens = .ok code) :
    (code.filterMap Instruction.operator?).Perm (tokens.filterMap Token.operator?) :=
  ((Code.ofTokens_eq_ok_iff tokens code).1 h).operators_perm

/-- Any tokens become code exactly if their parentheses are balanced, and there is
only one way to fail. The code has the numbers of the tokens in their order, their
operators in some order, and nothing else. -/
theorem Code.ofTokens_conserves (tokens : List Token) :
    ((∃ code, Code.ofTokens tokens = .ok code) ↔ Balanced tokens) ∧
      (¬ Balanced tokens → Code.ofTokens tokens = .error .mismatchedParentheses) ∧
      ∀ code, Code.ofTokens tokens = .ok code →
        code.filterMap Instruction.number? = tokens.filterMap Token.number? ∧
        (code.filterMap Instruction.operator?).Perm (tokens.filterMap Token.operator?) ∧
        code.length + (tokens.count .leftParen + tokens.count .rightParen) = tokens.length := by
  refine ⟨⟨?_, ?_⟩, ?_, ?_⟩
  · rintro ⟨code, h⟩
    exact balanced_of_ofTokens h
  · intro hb
    obtain ⟨code, h⟩ := loose_of_balanced hb
    exact ⟨code, ofTokens_of_loose h⟩
  · intro hb
    cases h : ofTokens tokens with
    | ok code => exact absurd (balanced_of_ofTokens h) hb
    | error fault => rw [(ofTokens_error h).1]
  · intro code h
    have hnumbers := numbers_ofTokens h
    have hoperators := operators_ofTokens h
    refine ⟨hnumbers, hoperators, ?_⟩
    rw [Code.length_eq, Token.length_eq, hnumbers, hoperators.length_eq]

example : Code.ofTokens [.operator .add, .number 1, .leftParen, .number 2, .rightParen] =
    .ok [.push 1, .push 2, .apply .add] := rfl

end Reckon
