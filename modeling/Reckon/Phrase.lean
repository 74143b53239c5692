import Reckon.Operator
/-!
# Operator phrases

The words that stand for an operator in running text. They are found anywhere,
inside longer words too, and with exactly one blank where they have one.
`replaceEach` replaces one phrase after the other, `replaceTogether` all of them
in a single scan.
-/

namespace Reckon

/-- Words that say an operator. -/
structure Phrase where
  words : Text
  operator : Operator
deriving DecidableEq

namespace Phrase

def multipliedBy : Phrase := ⟨"multiplied by".toList, .multiply⟩

def dividedBy : Phrase := ⟨"divided by".toList, .divide⟩

def plus : Phrase := ⟨"plus".toList, .add⟩

def minus : Phrase := ⟨"minus".toList, .subtract⟩

/-- All phrases, in the order in which they are replaced. -/
def all : List Phrase := [multipliedBy, dividedBy, plus, minus]

/-- The text with the operator's symbol for each occurrence of the phrase. -/
def replaceIn (p : Phrase) (t : Text) : Text := Text.replaceAll p.words p.operator.symbol t

/-- The text with the phrases replaced one after the other. -/
def replaceEach (phrases : List Phrase) (t : Text) : Text := phrases.foldl (fun t p => p.replaceIn t) t

/-- The phrase that a text starts with. -/
def atFront? (phrases : List Phrase) (t : Text) : Option Phrase := phrases.find? (·.words.isPrefixOf t)

/-- One scan over the text that replaces every phrase where it meets one; the
number counts characters still to be skipped inside a phrase. -/
def replaceTogether.go (phrases : List Phrase) : Nat → Text → Text
  | _, [] => []
  | n + 1, _ :: t => go phrases n t
  | 0, c :: t =>
    match atFront? phrases (c :: t) with
    | some p => p.operator.symbol :: go phrases (p.words.length - 1) t
    | none => c :: go phrases 0 t

/-- The text with all phrases replaced in a single scan from left to right. -/
def replaceTogether (phrases : List Phrase) (t : Text) : Text := replaceTogether.go phrases 0 t

end Phrase

end Reckon
