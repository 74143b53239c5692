import Reckon.Text.Basic
/-!
# Numerals

A numeral is a run of decimal digits. It may have any length, and leading zeros
do not count; `read?` gives its value unless that is larger than `largest`.
-/

namespace Reckon.Numeral

/-- The largest number that a numeral may be read as, `2 ^ 32 - 1`. -/
def largest : Nat := 4294967295

def isNumeral (lexeme : Text) : Bool := !lexeme.isEmpty && lexeme.all Char.isDigit

/-- The number that a run of digits denotes. -/
def value (digits : Text) : Nat := Nat.ofDigitChars 10 digits 0

/-- Takes one more digit into a number, unless the number gets too large. -/
def extend? (n : Nat) (digit : Char) : Option Nat :=
  let m := 10 * n + (digit.toNat - '0'.toNat)
  if m ≤ largest then some m else none

/-- Reads a run of digits from left to right, and stops where it gets too large. -/
def read? (digits : Text) : Option Nat := digits.foldlM extend? 0

end Reckon.Numeral
