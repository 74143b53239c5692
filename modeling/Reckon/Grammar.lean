import Reckon.Expr
import Reckon.Token
/-!
# The grammar of infix expressions

A sum is a chain of products, a product is a chain of factors, and a factor is a
number or a sum in parentheses. Chains group to the left. A derivation gives the
tree of the tokens it derives.

The loose grammar is the same with any number of operands in place of a factor.
It has no trees, but it says where the operators go in the code.
-/

namespace Reckon

/-- The levels of the grammar, from loose to tight. -/
inductive Level where
  | sum
  | product
  | factor
deriving DecidableEq

/-- The tokens form an expression of the level, with this tree. -/
inductive Derives : Level → List Token → Expr → Prop where
  | number (n : Nat) : Derives .factor [.number n] (.number n)
  | group {tokens : List Token} {e : Expr} :
      Derives .sum tokens e → Derives .factor (.leftParen :: (tokens ++ [.rightParen])) e
  | ofFactor {tokens : List Token} {e : Expr} : Derives .factor tokens e → Derives .product tokens e
  | ofProduct {tokens : List Token} {e : Expr} : Derives .product tokens e → Derives .sum tokens e
  | product {op : Operator} {tokens tokens' : List Token} {left right : Expr} :
      op = .multiply ∨ op = .divide → Derives .product tokens left → Derives .factor tokens' right →
      Derives .product (tokens ++ .operator op :: tokens') (.binary op left right)
  | sum {op : Operator} {tokens tokens' : List Token} {left right : Expr} :
      op = .add ∨ op = .subtract → Derives .sum tokens left → Derives .product tokens' right →
      Derives .sum (tokens ++ .operator op :: tokens') (.binary op left right)

/-- The tokens have the form of the level when any number of operands, or none, may
stand where the grammar has one factor; an operator comes behind both its sides in
the code. -/
inductive Loose : Level → List Token → Code → Prop where
  | nothing : Loose .factor [] []
  | number {tokens : List Token} {code : Code} (n : Nat) :
      Loose .factor tokens code → Loose .factor (tokens ++ [.number n]) (code ++ [.push n])
  | group {tokens inner : List Token} {code code' : Code} :
      Loose .factor tokens code → Loose .sum inner code' →
      Loose .factor (tokens ++ .leftParen :: (inner ++ [.rightParen])) (code ++ code')
  | ofFactor {tokens : List Token} {code : Code} : Loose .factor tokens code → Loose .product tokens code
  | ofProduct {tokens : List Token} {code : Code} : Loose .product tokens code → Loose .sum tokens code
  | product {op : Operator} {tokens tokens' : List Token} {code code' : Code} :
      op = .multiply ∨ op = .divide → Loose .product tokens code → Loose .factor tokens' code' →
      Loose .product (tokens ++ .operator op :: tokens') (code ++ code' ++ [.apply op])
  | sum {op : Operator} {tokens tokens' : List Token} {code code' : Code} :
      op = .add ∨ op = .subtract → Loose .sum tokens code → Loose .product tokens' code' →
      Loose .sum (tokens ++ .operator op :: tokens') (code ++ code' ++ [.apply op])

/-- The tokens form an expression. -/
def Sentence (tokens : List Token) : Prop := ∃ e, Derives .sum tokens e

/-- No right parenthesis comes before its left one, and there are as many of both. -/
def Balanced (tokens : List Token) : Prop :=
  (∀ front, front <+: tokens → front.count .rightParen ≤ front.count .leftParen) ∧
    tokens.count .rightParen = tokens.count .leftParen

end Reckon
