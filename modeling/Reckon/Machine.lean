import Reckon.Instruction
/-!
# The stack machine

Code runs on a stack of binary64 numbers, listed from the top. An operator takes
its right operand from the top and its left operand from below it, and code has a
value when it leaves exactly one number.
-/

namespace Reckon.Machine

/-- One instruction. An operator that finds fewer than two numbers cannot be applied. -/
def step (stack : List Float) : Instruction → Except Fault (List Float)
  | .push n => .ok (Float.ofNat n :: stack)
  | .apply op =>
    match stack with
    | right :: left :: rest => (op.apply left right).map (· :: rest)
    | _ => .error .invalidExpression

/-- The stack that code leaves when it starts on `stack`. -/
def runOn (stack : List Float) (code : Code) : Except Fault (List Float) := code.foldlM step stack

/-- The number that is left when no other one is. -/
def result : List Float → Except Fault Float
  | [x] => .ok x
  | _ => .error .invalidExpression

/-- The value of code. -/
def run (code : Code) : Except Fault Float := (runOn [] code).bind result

theorem runOn_append (stack : List Float) (code code' : Code) :
    runOn stack (code ++ code') = (runOn stack code).bind (runOn · code') := by
  simp only [runOn, List.foldlM_append]
  rfl

end Reckon.Machine
