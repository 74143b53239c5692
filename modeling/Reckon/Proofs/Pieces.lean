import Reckon.Proofs.Lexemes
/-!
# Pieces of running text

A piece of a text is read for itself: what stands behind it makes no difference, if
that is no letter. `Reads` says what is left of the piece once phrases are replaced,
and that number words are then looked for in it alone. Symbols, phrases, numerals,
number words and words in which no phrase can start are such pieces.
-/

namespace Reckon

theorem NumberWord.value?_of_isNumeral {l : Lexeme} (h : Numeral.isNumeral l = true) : value? l = none := by
  have hall : ∀ word ∈ all, Numeral.isNumeral word = false := by decide
  rw [value?_eq_none_iff]
  intro hm
  rw [hall l hm] at h
  cases h

namespace Text

/-- A piece is read as `core`, which then is a lexeme in digits or as it is. -/
structure Reads (piece core : Text) : Prop where
  ascii : ∀ c ∈ piece, c.toNat < 128
  scan : ∀ rest : Text, (∀ c ∈ rest.head?, c.isLower = false) →
    Phrase.replaceTogether Phrase.all (piece.map Char.toLower ++ rest) =
      core ++ Phrase.replaceTogether Phrase.all rest
  plain : ∀ c ∈ core, isPlain c = true
  digits : ∀ rest : Text, (∀ c ∈ rest.head?, isSeparator c = true) →
    NumberWord.replaceIn (core ++ rest) = NumberWord.inDigits core ++ NumberWord.replaceIn rest
  shaped : Lexeme.Shaped (NumberWord.inDigits core)

theorem digits_of_isWordChar {core : Text} (hne : core ≠ []) (h : ∀ c ∈ core, isWordChar c = true) (rest : Text)
    (hr : ∀ c ∈ rest.head?, isSeparator c = true) :
    NumberWord.replaceIn (core ++ rest) = NumberWord.inDigits core ++ NumberWord.replaceIn rest :=
  NumberWord.replaceIn_append_word hne h (fun c hc => not_isWordChar_of_isSeparator (hr c hc))

/-- A piece that is read as `core` is scanned for itself. -/
theorem scanned_reads {piece core back : Text} (h : Reads piece core)
    (hb : ∀ c ∈ (back.map Char.toLower).head?, c.isLower = false) :
    scanned (piece ++ back) = core ++ scanned back := by
  unfold scanned
  rw [List.map_append, h.scan _ hb, List.filter_append, List.filter_eq_self.2 h.plain]

/-! ## Each kind of piece -/

/-- A symbol, written as itself or by a phrase. -/
theorem reads_symbol {piece : Text} {c : Char} (hc : isSymbol c = true) (ha : ∀ d ∈ piece, d.toNat < 128)
    (hs : ∀ rest : Text, (∀ d ∈ rest.head?, d.isLower = false) →
      Phrase.replaceTogether Phrase.all (piece.map Char.toLower ++ rest) =
        c :: Phrase.replaceTogether Phrase.all rest) : Reads piece [c] where
  ascii := ha
  scan := hs
  plain d hd := by rw [List.mem_singleton.1 hd]; exact isPlain_of_isSymbol hc
  digits rest _ := by
    rw [NumberWord.inDigits_singleton]
    exact NumberWord.replaceIn_cons_break (not_isWordChar_of_isSymbol hc) rest
  shaped := by rw [NumberWord.inDigits_singleton]; exact .inr (.inr ⟨c, hc, rfl⟩)

theorem reads_symbol_self {c : Char} (hc : isSymbol c = true) : Reads [c] [c] := by
  obtain ⟨ha, hl, hn⟩ := isSymbol_spec hc
  refine reads_symbol hc (by simpa using ha) ?_
  intro rest _
  rw [List.map_singleton, hl]
  exact Phrase.replaceTogether_cons_of_not_isLower hn rest

/-- Letters and digits in which no phrase can start. -/
theorem reads_word {piece : Text} (hne : piece ≠ []) (ha : ∀ c ∈ piece, c.toNat < 128)
    (hw : ∀ c ∈ piece.map Char.toLower, isWordChar c = true)
    (hk : ∀ key ∈ Phrase.keys, ¬ key <:+: piece.map Char.toLower)
    (hs : Lexeme.Shaped (NumberWord.inDigits (piece.map Char.toLower))) :
    Reads piece (piece.map Char.toLower) where
  ascii := ha
  scan _ hr := Phrase.replaceTogether_append_of_keyless hk hr
  plain c hc := isPlain_of_isWordChar (hw c hc)
  digits := digits_of_isWordChar (by simpa using hne) hw
  shaped := hs

theorem reads_numeral {l : Lexeme} (h : Numeral.isNumeral l = true) : Reads l l := by
  obtain ⟨hne, hd⟩ := (Numeral.isNumeral_iff l).1 h
  have hl : l.map Char.toLower = l := map_toLower_eq (fun c hc => (isDigit_spec (hd c hc)).2.1)
  have hreads : Reads l (l.map Char.toLower) := by
    apply reads_word hne
    · intro c hc
      exact (isDigit_spec (hd c hc)).1
    · rw [hl]
      intro c hc
      simp [isWordChar, hd c hc]
    · rw [hl]
      exact Phrase.keyless_of_not_isLower (fun c hc => (isDigit_spec (hd c hc)).2.2)
    · rw [hl, NumberWord.inDigits_of_none (NumberWord.value?_of_isNumeral h)]
      exact .inl h
  rwa [hl] at hreads

theorem reads_numberWord {piece : Text} {n : Nat} (h : NumberWord.all[n]? = some (piece.map Char.toLower)) :
    Reads piece (piece.map Char.toLower) ∧ NumberWord.inDigits (piece.map Char.toLower) = Nat.toDigits 10 n ∧
      n ≤ 20 := by
  have hm : piece.map Char.toLower ∈ NumberWord.all := List.mem_of_getElem? h
  have hlow : ∀ word ∈ NumberWord.all, word ≠ [] ∧ word.all Char.isLower = true := by decide
  have hkeys : ∀ word ∈ NumberWord.all, ∀ key ∈ Phrase.keys, ¬ key <:+: word := by decide
  obtain ⟨hne, hall⟩ := hlow _ hm
  have hdigits := NumberWord.inDigits_of_value (NumberWord.value?_eq_some h)
  refine ⟨?_, hdigits, ?_⟩
  · apply reads_word (by simpa using hne)
    · apply toNat_lt_of_map_toLower
      intro c hc
      exact toNat_lt_of_isAlpha (isAlpha_of_isLower (List.all_eq_true.1 hall c hc))
    · intro c hc
      simp [isWordChar, List.all_eq_true.1 hall c hc]
    · exact hkeys _ hm
    · rw [hdigits]
      exact .inl (Numeral.isNumeral_toDigits n)
  · have hlt : n < NumberWord.all.length := (List.getElem?_eq_some_iff.1 h).1
    have hlen : NumberWord.all.length = 21 := by decide
    omega

theorem reads_phrase {p : Phrase} {piece : Text} (hp : p ∈ Phrase.all) (h : piece.map Char.toLower = p.words) :
    Reads piece [p.operator.symbol] := by
  have hall : ∀ p ∈ Phrase.all, p.words.all (fun c => decide (c.toNat < 128)) = true := by decide
  apply reads_symbol (isSymbol_symbol p.operator)
  · apply toNat_lt_of_map_toLower
    rw [h]
    intro c hc
    simpa using List.all_eq_true.1 (hall p hp) c hc
  · intro rest _
    rw [h]
    exact Phrase.separate_all.replaceTogether_append hp rest

end Text

end Reckon
