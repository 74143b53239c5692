import Reckon.NumberWord
import Reckon.Phrase
import Reckon.Text.Lowercase
/-!
# The plain form of a text

Free text becomes plain text in five steps: lower case, symbols for the operator
phrases, nothing but plain characters, no separators at either end, numerals for
the number words. Words without meaning stay.

The phrases are replaced before characters are dropped, so a phrase that a
dropped character breaks is not found.
-/

namespace Reckon.Text

/-- The plain form of a text. -/
def toPlain (t : Text) : Text :=
  NumberWord.replaceIn (trim ((Phrase.replaceEach Phrase.all (lowercase t)).filter isPlain))

end Reckon.Text
