import Reckon.Text.Basic
import Reckon.Unicode.Cased
import Reckon.Unicode.Ignorable
import Reckon.Unicode.Lower
/-!
# Lower-casing a text

Every character becomes its lower-case form. Two letters need more than a table:
`İ` becomes two characters, and `Σ` has a form of its own at the end of a word.
-/

namespace Reckon.Text

/-- Is the first character that is not case-ignorable a cased one? -/
def meetsCased (t : Text) : Bool := ((t.dropWhile Unicode.isCaseIgnorable).head?.map Unicode.isCased).getD false

/-- The lower-case form of `Σ`: `ς` where a word ends, `σ` elsewhere; `before`
is what precedes it, nearest first, and `after` what follows. -/
def lowerSigma (before after : Text) : Char :=
  if meetsCased before && !meetsCased after then 'ς' else 'σ'

/-- Lower-cases a text that follows `before`, which is listed nearest first. -/
def lowercaseAfter (before : Text) : Text → Text
  | [] => []
  | c :: t =>
    let form :=
      if c = 'İ' then ['i', '\u0307']
      else if c = 'Σ' then [lowerSigma before t]
      else [Unicode.lower c]
    form ++ lowercaseAfter (c :: before) t

/-- The text in lower case. -/
def lowercase (t : Text) : Text := lowercaseAfter [] t

end Reckon.Text
