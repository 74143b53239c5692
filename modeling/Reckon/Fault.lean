import Reckon.Text.Basic
/-!
# Faults

Why an expression has no value. A fault is a cause; its wording is in one place,
and a caller of the library gets it wrapped in a `Rejection`, whose wording says
first that the expression was invalid.
-/

namespace Reckon

/-- The causes of failure. -/
inductive Fault where
  /-- A number is written that is larger than the largest one allowed. -/
  | outOfRange
  | mismatchedParentheses
  /-- Characters outside plain text, or operands that do not come down to one value. -/
  | invalidExpression
  | divisionByZero
  | unknownOperator (lexeme : Text)
deriving DecidableEq

namespace Fault

/-- What a fault is about. -/
inductive Kind where
  | range
  | form
  | arithmetic
  | operator
deriving DecidableEq

def kind : Fault → Kind
  | outOfRange => .range
  | mismatchedParentheses => .form
  | invalidExpression => .form
  | divisionByZero => .arithmetic
  | unknownOperator _ => .operator

/-- The wording of a fault. -/
def message : Fault → String
  | outOfRange => "Numbers must be between 0 and 20"
  | mismatchedParentheses => "Mismatched parentheses"
  | invalidExpression => "Invalid expression"
  | divisionByZero => "Division by zero"
  | unknownOperator lexeme => "Unknown operator: " ++ String.ofList lexeme

end Fault

/-- A fault as callers of the library see it. -/
structure Rejection where
  reason : Fault
deriving DecidableEq

namespace Rejection

def kind (r : Rejection) : Fault.Kind := r.reason.kind

/-- The wording of a rejection: that of its reason, with an opening of its own. -/
def message (r : Rejection) : String := "Invalid expression: " ++ r.reason.message

end Rejection

end Reckon
