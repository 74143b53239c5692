import Reckon.Machine
import Reckon.Text.Plain
import Reckon.Yard
/-!
# Programs

A program is an expression made ready to run: its plain text and its code. A text
is compiled by way of its plain form, and only the first fault is reported:
characters that are not plain, numbers out of range, unknown operators,
parentheses that do not match. Operands are not checked before the program runs.
-/

namespace Reckon

structure Program where
  text : Text
  code : Code
deriving DecidableEq

namespace Program

/-- The code of a list of lexemes, if all numbers are in range. -/
def assemble (lexemes : List Lexeme) : Logged (Except Fault Code) := do
  if ← Lexeme.inRange lexemes then
    let tokens ← Token.classifyAll lexemes
    return tokens.bind Code.ofTokens
  else return .error .outOfRange

/-- The program of a text that is taken as plain, or the first fault. -/
def ofPlain (text : Text) : Logged (Except Fault Program) :=
  match Lexeme.split text with
  | .error fault => pure (.error fault)
  | .ok lexemes => do
    let code ← assemble lexemes
    return code.map fun code => ⟨text, code⟩

/-- Compiles a text that is in plain form already. -/
def compilePlain (text : Text) : Logged (Except Rejection Program) := do
  let program ← ofPlain text
  return program.mapError Rejection.mk

/-- Compiles any text by way of its plain form. -/
def compile (text : Text) : Logged (Except Rejection Program) := compilePlain text.toPlain

/-- Runs a program. -/
def run (program : Program) : Except Rejection Float := (Machine.run program.code).mapError Rejection.mk

end Program

/-- The value of an expression. -/
def evaluate (text : Text) : Except Rejection Float := (Program.compile text).value.bind Program.run

/-- The values of independent expressions, in their order. Trusted: that evaluating
them in parallel gives this list. -/
def evaluateAll (texts : List Text) : List (Except Rejection Float) := texts.map evaluate

end Reckon
