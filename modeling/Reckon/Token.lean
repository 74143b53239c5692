import Reckon.Lexeme
import Reckon.Operator
/-!
# Tokens

A lexeme is classified as a number, an operator or a parenthesis. A word says
nothing and is left out, with a record; anything else is an unknown operator.
-/

namespace Reckon

/-- A piece of an infix expression. -/
inductive Token where
  | number (n : Nat)
  | operator (op : Operator)
  | leftParen
  | rightParen
deriving DecidableEq

namespace Token

/-- The token that a lexeme writes, if it is no word. -/
def classify (lexeme : Lexeme) : Logged (Except Fault (Option Token)) :=
  if Numeral.isNumeral lexeme then
    match Numeral.read? lexeme with
    | some n => pure (.ok (some (number n)))
    | none => pure (.error .outOfRange)
  else if lexeme = ['('] then pure (.ok (some leftParen))
  else if lexeme = [')'] then pure (.ok (some rightParen))
  else if lexeme.isWord then do
    Logged.record (.dropped lexeme)
    return .ok none
  else pure ((Operator.ofLexeme lexeme).map fun op => some (operator op))

/-- The tokens that lexemes write, up to the first fault. -/
def classifyAll : List Lexeme → Logged (Except Fault (List Token))
  | [] => pure (.ok [])
  | lexeme :: rest => do
    match ← classify lexeme with
    | .error fault => return .error fault
    | .ok token? => (·.map (token?.toList ++ ·)) <$> classifyAll rest

end Token

end Reckon
