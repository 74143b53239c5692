import Reckon.Operator
/-!
# Postfix code

Code for a stack of numbers: an instruction puts a number on the stack or
applies an operator to the two numbers on top of it.
-/

namespace Reckon

inductive Instruction where
  | push (n : Nat)
  | apply (op : Operator)
deriving DecidableEq

/-- Postfix code: operators come after their operands. -/
abbrev Code := List Instruction

end Reckon
