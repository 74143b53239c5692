import Reckon.Event
import Reckon.Fault
import Reckon.Numeral
/-!
# Lexemes

A plain text is cut into lexemes: maximal runs of digits, maximal runs of
letters, and single symbols. Separators only keep lexemes apart. Every number
that a numeral writes has to lie between 0 and 20.
-/

namespace Reckon

/-- A piece of text that is read as a whole. -/
abbrev Lexeme := Text

namespace Lexeme

def isWord (lexeme : Lexeme) : Bool := !lexeme.isEmpty && lexeme.all Char.isLower

/-- Do two neighbouring characters belong to one lexeme? -/
def joined (a b : Char) : Bool := (a.isDigit && b.isDigit) || (a.isLower && b.isLower)

/-- The lexemes of a text, which has to be plain. -/
def split (t : Text) : Except Fault (List Lexeme) :=
  if t.all isPlain then .ok ((t.splitBy joined).filter fun run => !run.any isSeparator)
  else .error .invalidExpression

/-- The largest number that an expression may hold. -/
def greatest : Nat := 20

/-- Is no numeral among the lexemes above `greatest`? The first one that is ends
the check, with a record if it could not even be read. -/
def inRange : List Lexeme → Logged Bool
  | [] => pure true
  | lexeme :: rest =>
    if Numeral.isNumeral lexeme then
      match Numeral.read? lexeme with
      | some n => if n ≤ greatest then inRange rest else pure false
      | none => do
        Logged.record (.overflow lexeme)
        return false
    else inRange rest

end Lexeme

end Reckon
