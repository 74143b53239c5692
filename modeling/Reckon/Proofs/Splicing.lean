import Reckon.Proofs.Acceptance
import Reckon.Proofs.Substitution
/-!
# Groups as operands

Tokens with balanced parentheses form an operand when they are put in parentheses,
whatever their numbers and operators look like. In any yard the group sends out the
code that its inside has by itself, so it can stand where a number can, and its code
is found where the number would be. A second pair of parentheses changes nothing.

The inside of the group is loosely formed, as all balanced tokens are, and the yard
never looks below the group's left parenthesis.
-/

namespace Reckon

namespace Yard

/-- An operand stays one, with the same code, when it is put in parentheses. -/
theorem Operand.group {tokens : List Token} {code : Code} (h : Operand tokens code) :
    Operand (.leftParen :: (tokens ++ [.rightParen])) code :=
  feed_group fun y _ => ⟨_, h y, .refl _⟩

/-- Balanced tokens in parentheses are an operand, and its code is theirs. -/
theorem operand_of_balanced {inner : List Token} (h : Balanced inner) :
    ∃ code, Code.ofTokens inner = .ok code ∧ Operand (.leftParen :: (inner ++ [.rightParen])) code := by
  obtain ⟨code, hl⟩ := loose_of_balanced h
  exact ⟨code, Code.ofTokens_of_loose hl, operand_group hl⟩

end Yard

namespace Code

/-- Balanced tokens in parentheses are taken in by every yard. They leave what is
pending as it was and send out the code of the tokens between the parentheses. At any
place among other tokens such a group fails exactly if a number does; otherwise its
code stands where the number would be, behind the numbers of the tokens before it.
Doubled parentheses have the code of single ones. -/
theorem ofTokens_balanced_group {inner : List Token} (h : Balanced inner) :
    ∃ code, ofTokens inner = .ok code ∧
      (∀ y : Yard, y.feed ([.leftParen] ++ inner ++ [.rightParen]) = .ok ⟨code.reverse ++ y.emitted, y.pending⟩) ∧
      ∀ before after : List Token,
        ((∀ n, ofTokens (before ++ [.number n] ++ after) = .error .mismatchedParentheses) ∧
            ofTokens (before ++ [.leftParen] ++ inner ++ [.rightParen] ++ after) = .error .mismatchedParentheses ∨
          ∃ front back : Code, front.filterMap Instruction.number? = before.filterMap Token.number? ∧
            (∀ n, ofTokens (before ++ [.number n] ++ after) = .ok (front ++ [.push n] ++ back)) ∧
            ofTokens (before ++ [.leftParen] ++ inner ++ [.rightParen] ++ after) = .ok (front ++ code ++ back)) ∧
        ofTokens (before ++ [.leftParen, .leftParen] ++ inner ++ [.rightParen, .rightParen] ++ after) =
          ofTokens (before ++ [.leftParen] ++ inner ++ [.rightParen] ++ after) := by
  obtain ⟨code, hcode, hgroup⟩ := Yard.operand_of_balanced h
  refine ⟨code, hcode, hgroup, fun before after => ?_⟩
  rcases ofTokens_place before after with herror | ⟨front, back, hnumbers, hok⟩
  · have hsingle := herror _ _ hgroup
    have hdouble := herror _ _ hgroup.group
    simp only [List.append_assoc, List.cons_append, List.nil_append] at hsingle hdouble ⊢
    exact ⟨.inl ⟨fun n => herror _ _ (Yard.operand_number n), hsingle⟩, hdouble.trans hsingle.symm⟩
  · have hsingle := hok _ _ hgroup
    have hdouble := hok _ _ hgroup.group
    simp only [List.append_assoc, List.cons_append, List.nil_append] at hsingle hdouble hok ⊢
    exact ⟨.inr ⟨front, back, hnumbers, fun n => hok _ _ (Yard.operand_number n), hsingle⟩,
      hdouble.trans hsingle.symm⟩

/-- Inside the group an operator has no operands and parentheses are empty: the yard of
`1 / ( + ( ) 2 * )` still waits with the division alone. -/
theorem ofTokens_balanced_group_malformed :
    Balanced [.operator .add, .leftParen, .rightParen, .number 2, .operator .multiply] ∧
      Yard.feed ⟨[.push 1], [.operator .divide]⟩
          [.leftParen, .operator .add, .leftParen, .rightParen, .number 2, .operator .multiply, .rightParen] =
        .ok ⟨[.apply .add, .apply .multiply, .push 2, .push 1], [.operator .divide]⟩ := by
  have hcode : ofTokens [.operator .add, .leftParen, .rightParen, .number 2, .operator .multiply] =
      .ok [.push 2, .apply .multiply, .apply .add] := rfl
  obtain ⟨code, hcode', hyard, -⟩ := ofTokens_balanced_group (balanced_of_ofTokens hcode)
  rw [hcode, Except.ok.injEq] at hcode'
  subst hcode'
  exact ⟨balanced_of_ofTokens hcode, hyard ⟨[.push 1], [.operator .divide]⟩⟩

end Code

end Reckon
