import Reckon.Instruction
import Reckon.Token
/-!
# From infix to postfix

Infix tokens are put into postfix order with a stack of what is still pending. A
number goes out at once. An operator first sends out those on top of the stack
that bind at least as tightly, so equal operators group to the left. A right
parenthesis sends out everything down to its left parenthesis.

Only parentheses are checked here; whether operators have their operands shows
when the code runs.
-/

namespace Reckon

/-- What waits on the stack. -/
inductive Pending where
  | leftParen
  | operator (op : Operator)
deriving DecidableEq

/-- The code sent out so far, newest instruction first, and what is pending, top first. -/
structure Yard where
  emitted : Code
  pending : List Pending
deriving DecidableEq

namespace Yard

def empty : Yard := ⟨[], []⟩

/-- Sends out the operators on top that bind at least as tightly as `op`. -/
def yield (op : Operator) (emitted : Code) : List Pending → Yard
  | .operator top :: pending =>
    if op.precedence ≤ top.precedence then yield op (.apply top :: emitted) pending
    else ⟨emitted, .operator top :: pending⟩
  | pending => ⟨emitted, pending⟩

/-- Sends out the operators down to the nearest left parenthesis and removes that. -/
def close (emitted : Code) : List Pending → Except Fault Yard
  | .operator op :: pending => close (.apply op :: emitted) pending
  | .leftParen :: pending => .ok ⟨emitted, pending⟩
  | [] => .error .mismatchedParentheses

/-- Sends out all that is pending, which must not hold a parenthesis any more. -/
def finish (emitted : Code) : List Pending → Except Fault Code
  | .operator op :: pending => finish (.apply op :: emitted) pending
  | .leftParen :: _ => .error .mismatchedParentheses
  | [] => .ok emitted.reverse

/-- Takes in one token. -/
def step (y : Yard) : Token → Except Fault Yard
  | .number n => .ok { y with emitted := .push n :: y.emitted }
  | .leftParen => .ok { y with pending := .leftParen :: y.pending }
  | .rightParen => close y.emitted y.pending
  | .operator op =>
    let y := yield op y.emitted y.pending
    .ok { y with pending := .operator op :: y.pending }

/-- Takes in tokens from left to right. -/
def feed (y : Yard) (tokens : List Token) : Except Fault Yard := tokens.foldlM step y

theorem feed_append (y : Yard) (tokens tokens' : List Token) :
    y.feed (tokens ++ tokens') = (y.feed tokens).bind (·.feed tokens') := by
  simp only [feed, List.foldlM_append]
  rfl

end Yard

/-- The postfix code of an infix expression. -/
def Code.ofTokens (tokens : List Token) : Except Fault Code :=
  (Yard.empty.feed tokens).bind fun y => Yard.finish y.emitted y.pending

end Reckon
