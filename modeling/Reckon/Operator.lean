import Reckon.Fault
/-!
# Operators

The four operators of arithmetic: how they are written, how tightly they bind,
and what they compute on binary64 numbers.
-/

namespace Reckon

inductive Operator where
  | add
  | subtract
  | multiply
  | divide
deriving DecidableEq

namespace Operator

/-- How tightly the operator binds; the higher number goes first. -/
def precedence : Operator → Nat
  | add => 1
  | subtract => 1
  | multiply => 2
  | divide => 2

def symbol : Operator → Char
  | add => '+'
  | subtract => '-'
  | multiply => '*'
  | divide => '/'

/-- The operator that a lexeme writes. -/
def ofLexeme : Text → Except Fault Operator
  | ['+'] => .ok add
  | ['-'] => .ok subtract
  | ['*'] => .ok multiply
  | ['/'] => .ok divide
  | lexeme => .error (.unknownOperator lexeme)

/-- The operator's result. Only a division can fail, and it does when its right
operand equals zero, whatever the sign of that zero. -/
def apply : Operator → Float → Float → Except Fault Float
  | add, left, right => .ok (left + right)
  | subtract, left, right => .ok (left - right)
  | multiply, left, right => .ok (left * right)
  | divide, left, right => if right == 0.0 then .error .divisionByZero else .ok (left / right)

theorem ofLexeme_symbol (op : Operator) : ofLexeme [op.symbol] = .ok op := by
  cases op <;> rfl

end Operator

end Reckon
