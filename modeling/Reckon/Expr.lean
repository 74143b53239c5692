import Reckon.Instruction
/-!
# Expression trees

What an expression means: a tree of operators over numbers, in which parentheses
are no longer needed. `value` computes it from the leaves up, `postorder` lists
it as code.
-/

namespace Reckon

inductive Expr where
  | number (n : Nat)
  | binary (op : Operator) (left right : Expr)
deriving DecidableEq

namespace Expr

/-- The value of a tree; the left operand comes first, so its fault does too. -/
def value : Expr → Except Fault Float
  | number n => .ok (Float.ofNat n)
  | binary op left right => left.value.bind fun x => right.value.bind fun y => op.apply x y

/-- The tree as code: left operand, right operand, operator. -/
def postorder : Expr → Code
  | number n => [.push n]
  | binary op left right => left.postorder ++ right.postorder ++ [.apply op]

end Expr

end Reckon
