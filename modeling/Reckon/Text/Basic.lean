/-!
# Text and its character classes

Text is a list of characters, so every function on it is a recursion over its
characters. Plain text is what the rest of the library works on: lower-case
letters, digits, the six symbols of arithmetic and six separators.

`replaceAll` replaces every occurrence of a pattern by one character, from left
to right and without overlap; `replaceAll_append` and `replaceAll_cons` are its
two rules.
-/

namespace Reckon

/-- A text is the list of its characters. -/
abbrev Text := List Char

/-! ## Character classes -/

/-- The operators and parentheses. -/
def symbols : Text := ['+', '-', '*', '/', '(', ')']

/-- The characters that stand between words and mean nothing themselves. -/
def separators : Text := [' ', '\t', '\n', '\x0b', '\x0c', '\r']

def isSymbol (c : Char) : Bool := symbols.contains c

def isSeparator (c : Char) : Bool := separators.contains c

/-- Words are made of the letters `a` to `z` and the digits `0` to `9`. -/
def isWordChar (c : Char) : Bool := c.isLower || c.isDigit

/-- Plain characters are word characters, symbols and separators. -/
def isPlain (c : Char) : Bool := isWordChar c || isSymbol c || isSeparator c

namespace Text

/-! ## Both ends of a text -/

/-- The text without the separators it starts with. -/
def trimStart (t : Text) : Text := t.dropWhile isSeparator

/-- The text without the separators it ends with. -/
def trimEnd (t : Text) : Text := (trimStart t.reverse).reverse

/-- The text without separators at either end. -/
def trim (t : Text) : Text := trimEnd (trimStart t)

/-! ## Replacing a pattern -/

/-- The text with `c` for every occurrence of `pattern`, found from left to
right; the number counts characters still to be skipped inside an occurrence. -/
def replaceAll.go (pattern : Text) (c : Char) : Nat → Text → Text
  | _, [] => []
  | n + 1, _ :: t => go pattern c n t
  | 0, d :: t =>
    if pattern.isPrefixOf (d :: t) then c :: go pattern c (pattern.length - 1) t else d :: go pattern c 0 t

/-- The text with `c` for every occurrence of `pattern`, found from left to
right; an occurrence that overlaps an earlier one stays. -/
def replaceAll (pattern : Text) (c : Char) (t : Text) : Text := replaceAll.go pattern c 0 t

@[simp] theorem replaceAll_nil (pattern : Text) (c : Char) : replaceAll pattern c [] = [] := rfl

theorem replaceAll_go_eq (pattern : Text) (c : Char) (n : Nat) (t : Text) :
    replaceAll.go pattern c n t = replaceAll pattern c (t.drop n) := by
  induction t generalizing n with
  | nil => cases n <;> rfl
  | cons d t ih =>
    cases n with
    | zero => rfl
    | succ n => exact ih n

/-- A character that starts no occurrence stays. -/
theorem replaceAll_cons {pattern : Text} {d : Char} {t : Text} (c : Char) (h : ¬ pattern <+: d :: t) :
    replaceAll pattern c (d :: t) = d :: replaceAll pattern c t := by
  rw [← List.isPrefixOf_iff_prefix] at h
  simp [replaceAll, replaceAll.go, h]

/-- An occurrence at the front becomes `c`. -/
theorem replaceAll_append {pattern : Text} (c : Char) (t : Text) (h : pattern ≠ []) :
    replaceAll pattern c (pattern ++ t) = c :: replaceAll pattern c t := by
  cases pattern with
  | nil => exact absurd rfl h
  | cons p pattern =>
    have hp : (p :: pattern).isPrefixOf (p :: (pattern ++ t)) = true :=
      List.isPrefixOf_iff_prefix.2 (List.prefix_append (p :: pattern) t)
    simp only [List.cons_append, replaceAll, replaceAll.go, hp, if_true]
    rw [replaceAll_go_eq]
    simp [replaceAll]

end Text

end Reckon
