/-!
# Spans of characters

A property of characters is listed as spans of consecutive code points.
-/

namespace Reckon.Unicode

/-- The characters from code point `first` to code point `last`, both included. -/
structure Span where
  first : Nat
  last : Nat
deriving DecidableEq

/-- Does the span hold the character? -/
def Span.contains (s : Span) (c : Char) : Bool := s.first ≤ c.toNat && c.toNat ≤ s.last

/-- Does one of the spans hold the character? -/
def covers (spans : List Span) (c : Char) : Bool := spans.any (·.contains c)

end Reckon.Unicode
