import Reckon.Text.Basic
/-!
# Parsing expressions and the lexical grammar

A parsing expression is matched at the front of a text. It fails, or it takes some
front of the text, leaves the rest and reports the tokens that it met. A choice
tries its second expression only where the first one fails, and a repetition takes
as much as it can; neither is tried again because of what comes later.

`lexemes` is the grammar of plain text in these terms. It says how a text is cut
into lexemes, separators between them or not, as a second description beside
`Lexeme.split`.

Trusted: that a parser generated from a grammar reads it as `Matches` says. A
repetition is greedy and a choice ordered. A rule for a single lexeme is atomic, so
nothing may stand between its characters. Between the parts of any other rule, and
between the rounds of its repetitions, any number of separators may stand
(`spaced`, `spacedStar`).
-/

namespace Reckon

inductive Peg where
  /-- Takes nothing. -/
  | empty
  /-- Takes nothing, and only at the end of the text. -/
  | finish
  /-- Takes one character of a class. -/
  | one (holds : Char → Bool)
  | seq (first second : Peg)
  | choice (first second : Peg)
  | star (body : Peg)
  /-- Reports what its body takes as one token. -/
  | token (body : Peg)

namespace Peg

/-- What comes of matching an expression at the front of a text: nothing when it
fails, and otherwise the tokens that it reports and the text that it leaves. -/
inductive Matches : Peg → Text → Option (List Text × Text) → Prop where
  | empty (t : Text) : Matches empty t (some ([], t))
  | finish : Matches finish [] (some ([], []))
  | not_finish (c : Char) (t : Text) : Matches finish (c :: t) none
  | one {holds : Char → Bool} {c : Char} (t : Text) : holds c = true → Matches (one holds) (c :: t) (some ([], t))
  | not_one {holds : Char → Bool} {t : Text} :
      (∀ c ∈ t.head?, holds c = false) → Matches (one holds) t none
  | seq {first second : Peg} {t t' rest : Text} {found found' : List Text} :
      Matches first t (some (found, t')) → Matches second t' (some (found', rest)) →
      Matches (seq first second) t (some (found ++ found', rest))
  | not_first {first second : Peg} {t : Text} : Matches first t none → Matches (seq first second) t none
  | not_second {first second : Peg} {t t' : Text} {found : List Text} :
      Matches first t (some (found, t')) → Matches second t' none → Matches (seq first second) t none
  | left {first second : Peg} {t rest : Text} {found : List Text} :
      Matches first t (some (found, rest)) → Matches (choice first second) t (some (found, rest))
  | right {first second : Peg} {t : Text} {result : Option (List Text × Text)} :
      Matches first t none → Matches second t result → Matches (choice first second) t result
  | stop {body : Peg} {t : Text} : Matches body t none → Matches (star body) t (some ([], t))
  | again {body : Peg} {t t' rest : Text} {found found' : List Text} :
      Matches body t (some (found, t')) → Matches (star body) t' (some (found', rest)) →
      Matches (star body) t (some (found ++ found', rest))
  | token {body : Peg} {t front rest : Text} {found : List Text} :
      Matches body t (some (found, rest)) → t = front ++ rest → Matches (token body) t (some ([front], rest))
  | not_token {body : Peg} {t : Text} : Matches body t none → Matches (token body) t none

/-! ## The lexical grammar -/

/-- Any number of separators. -/
def gap : Peg := star (one isSeparator)

/-- A sequence with separators allowed in between. -/
def spaced (first second : Peg) : Peg := seq first (seq gap second)

/-- A repetition with separators allowed in between. -/
def spacedStar (body : Peg) : Peg := choice (seq body (star (seq gap body))) empty

/-- A run of characters of a class, with no separators in between. -/
def run (holds : Char → Bool) : Peg := token (seq (one holds) (star (one holds)))

/-- A numeral, a word or a symbol. -/
def lexeme : Peg := choice (run Char.isDigit) (choice (run Char.isLower) (token (one isSymbol)))

/-- The lexemes of a whole text. The first part stands for the start of the text,
where every match starts. -/
def lexemes : Peg := spaced empty (spaced (spacedStar lexeme) finish)

end Peg

end Reckon
