import Reckon.Text.Basic
/-!
# Number words

The English words for the numbers from zero to twenty. A text's words are its
maximal runs of word characters; `replaceIn` puts a numeral for each of them
that is a number word, and never looks inside a longer word.
-/

namespace Reckon.NumberWord

/-- The number words, each at the place of its value. -/
def all : List Text :=
  ["zero", "one", "two", "three", "four", "five", "six", "seven", "eight", "nine", "ten", "eleven", "twelve",
    "thirteen", "fourteen", "fifteen", "sixteen", "seventeen", "eighteen", "nineteen", "twenty"].map String.toList

/-- The number that a word says. -/
def value? (word : Text) : Option Nat := all.idxOf? word

/-- The runs of a text: its maximal runs of word characters, and every other
character alone. -/
def runs (t : Text) : List Text := t.splitBy fun a b => isWordChar a && isWordChar b

/-- The numeral of a number word; any other run is left as it is. -/
def inDigits (run : Text) : Text :=
  match value? run with
  | some n => Nat.toDigits 10 n
  | none => run

/-- The text with a numeral for each of its runs that is a number word. -/
def replaceIn (t : Text) : Text := (runs t).flatMap inDigits

end Reckon.NumberWord
