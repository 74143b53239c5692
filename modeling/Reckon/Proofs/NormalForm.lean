import Reckon.Proofs.PlainText
/-!
# The plain form as a normal form

A plain form has plain characters, no separators at its ends and no number words
among its words. So another round changes nothing in it but phrases, and these can
stand in a plain form: stripping joins what a character kept apart, as in `pl?us`.
The second round replaces them, and leaves no phrase to a third one.
-/

namespace Reckon

namespace Text

/-! ## Stripping plain text -/

/-- In plain text there is nothing to strip but phrases. -/
theorem strip_of_isPlain {t : Text} (h : ∀ c ∈ t, isPlain c = true) :
    strip t = Phrase.replaceTogether Phrase.all t := by
  have hlower : t.map Char.toLower = t := map_toLower_eq (fun c hc => (isPlain_spec (h c hc)).2)
  rw [strip_eq_scanned (fun c hc => (isPlain_spec (h c hc)).1), scanned, hlower, List.filter_eq_self]
  intro c hc
  rcases Phrase.separate_all.mem_replaceTogether hc with hm | ⟨p, -, rfl⟩
  · exact h c hm
  · exact isPlain_of_isSymbol (isSymbol_symbol p.operator)

theorem infix_strip_of_infix_toPlain {p : Phrase} (hp : p ∈ Phrase.all) {t : Text} (h : p.words <:+: toPlain t) :
    p.words <:+: strip t := by
  have hall : ∀ p ∈ Phrase.all, p.words.all (fun c => !c.isDigit) = true := by decide
  have hdigits : ∀ c ∈ p.words, c.isDigit = false := by simpa using hall p hp
  exact (NumberWord.infix_of_infix_replaceIn hdigits h).trans (trim_isInfix (strip t))

/-- The plain form of plain text holds no phrase. -/
theorem not_infix_toPlain {t : Text} (h : ∀ c ∈ t, isPlain c = true) {p : Phrase} (hp : p ∈ Phrase.all) :
    ¬ p.words <:+: toPlain t := by
  intro hpart
  have hstrip := infix_strip_of_infix_toPlain hp hpart
  rw [strip_of_isPlain h] at hstrip
  exact Phrase.separate_all.not_infix_replaceTogether hp t hstrip

/-! ## Normal forms -/

/-- What a plain form looks like. -/
structure Normal (t : Text) : Prop where
  plain : ∀ c ∈ t, isPlain c = true
  head : ∀ c ∈ t.head?, isSeparator c = false
  last : ∀ c ∈ t.getLast?, isSeparator c = false
  runs : ∀ run ∈ NumberWord.runs t, run ∉ NumberWord.all

theorem normal_toPlain (t : Text) : Normal (toPlain t) where
  plain _ hc := isPlain_of_mem_toPlain hc
  head := by
    rw [toPlain_eq, ← trim_replaceIn]
    exact head?_trim
  last := by
    rw [toPlain_eq, ← trim_replaceIn]
    exact getLast?_trim
  runs _ hrun := NumberWord.notMem_of_mem_runs_replaceIn hrun

theorem Normal.toPlain_eq_self {t : Text} (h : Normal t) (hp : ∀ p ∈ Phrase.all, ¬ p.words <:+: t) :
    toPlain t = t := by
  rw [toPlain_eq, strip_of_isPlain h.plain, Phrase.replaceTogether_eq_self hp, trim_eq_self h.head h.last,
    NumberWord.replaceIn_eq_self h.runs]

theorem Normal.toPlain_eq_self_iff {t : Text} (h : Normal t) :
    toPlain t = t ↔ ∀ p ∈ Phrase.all, ¬ p.words <:+: t := by
  constructor
  · intro he p hp
    rw [← he]
    exact not_infix_toPlain h.plain hp
  · exact h.toPlain_eq_self

example : toPlain "pl?us".toList = "plus".toList ∧ toPlain "plus".toList = "+".toList := by decide +kernel

/-- Text of digits, symbols and separators has neither number words nor phrases. -/
theorem toPlain_of_letterless {t : Text} (h : ∀ c ∈ t, c.isDigit = true ∨ isSymbol c = true ∨ isSeparator c = true)
    (hhead : ∀ c ∈ t.head?, isSeparator c = false) (hlast : ∀ c ∈ t.getLast?, isSeparator c = false) :
    toPlain t = t := by
  have hlow : ∀ c ∈ t, c.isLower = false := by
    intro c hc
    rcases h c hc with hd | hsym | hsep
    · exact (isDigit_spec hd).2.2
    · exact (isSymbol_spec hsym).2.2
    · exact (isSeparator_spec hsep).2.2
  have hwords : ∀ word ∈ NumberWord.all ++ Phrase.all.map Phrase.words, word.any Char.isLower = true := by decide
  -- What holds a letter is no part of the text.
  have hpart : ∀ word ∈ NumberWord.all ++ Phrase.all.map Phrase.words, ¬ word <:+: t := by
    intro word hword hin
    obtain ⟨c, hc, hl⟩ := List.any_eq_true.1 (hwords word hword)
    rw [hlow c (hin.subset hc)] at hl
    cases hl
  have hnormal : Normal t := by
    refine ⟨?_, hhead, hlast, ?_⟩
    · intro c hc
      rcases h c hc with hd | hsym | hsep
      · exact isPlain_of_isWordChar (by simp [isWordChar, hd])
      · exact isPlain_of_isSymbol hsym
      · exact isPlain_of_isSeparator hsep
    · intro run hrun hmem
      have hin : run <:+: (NumberWord.runs t).flatten := List.infix_of_mem_flatten hrun
      rw [NumberWord.runs, List.flatten_splitBy] at hin
      exact hpart run (List.mem_append_left _ hmem) hin
  apply hnormal.toPlain_eq_self
  intro p hp
  exact hpart p.words (List.mem_append_right _ (List.mem_map_of_mem hp))

/-- The word stands in the text with no word character beside it. -/
def StandsIn (word t : Text) : Prop :=
  ∃ front back, t = front ++ (word ++ back) ∧ (∀ c ∈ front.getLast?, isWordChar c = false) ∧
    ∀ c ∈ back.head?, isWordChar c = false

theorem StandsIn.mem_runs {word t : Text} (h : StandsIn word t) (hne : word ≠ [])
    (hw : ∀ c ∈ word, isWordChar c = true) : word ∈ NumberWord.runs t := by
  obtain ⟨front, back, rfl, hf, hb⟩ := h
  have hsplit : NumberWord.runs (front ++ (word ++ back)) =
      NumberWord.runs front ++ NumberWord.runs (word ++ back) := by
    apply List.splitBy_append
    intro a ha b _
    simp [hf a ha]
  rw [hsplit, NumberWord.runs_append_word hne hw hb]
  simp

/-- A plain form is in normal form: its characters are plain, its ends are no
separators and no word of it is a number word. It is its own plain form exactly if
it holds no phrase, and a phrase that it does hold came about when other characters
were left out. In any case the second plain form is final, and text of digits,
symbols and separators is plain from the start. -/
theorem toPlain_stabilizes (t : Text) :
    (∀ c ∈ t.toPlain, isPlain c = true) ∧
      (∀ c ∈ t.toPlain.head?, isSeparator c = false) ∧ (∀ c ∈ t.toPlain.getLast?, isSeparator c = false) ∧
      (∀ word, StandsIn word t.toPlain → word ∉ NumberWord.all) ∧
      (t.toPlain.toPlain = t.toPlain ↔ ∀ p ∈ Phrase.all, ¬ p.words <:+: t.toPlain) ∧
      (∀ p ∈ Phrase.all, p.words <:+: t.toPlain →
        ¬ p.words <:+: Phrase.replaceEach Phrase.all t.lowercase ∧
        p.words <:+: (Phrase.replaceEach Phrase.all t.lowercase).filter isPlain) ∧
      t.toPlain.toPlain.toPlain = t.toPlain.toPlain ∧
      ((∀ c ∈ t, c.isDigit = true ∨ isSymbol c = true ∨ isSeparator c = true) →
        (∀ c ∈ t.head?, isSeparator c = false) → (∀ c ∈ t.getLast?, isSeparator c = false) → t.toPlain = t) := by
  have hnormal := normal_toPlain t
  refine ⟨hnormal.plain, hnormal.head, hnormal.last, ?_, hnormal.toPlain_eq_self_iff, ?_, ?_, toPlain_of_letterless⟩
  · intro word hstands hmem
    have hall : ∀ w ∈ NumberWord.all, w ≠ [] ∧ w.all isWordChar = true := by decide
    obtain ⟨hne, hw⟩ := hall word hmem
    exact hnormal.runs word (hstands.mem_runs hne (List.all_eq_true.1 hw)) hmem
  · intro p hp hpart
    refine ⟨?_, infix_strip_of_infix_toPlain hp hpart⟩
    rw [Phrase.replaceEach_eq_replaceTogether Phrase.separate_all]
    exact Phrase.separate_all.not_infix_replaceTogether hp _
  · exact (normal_toPlain t.toPlain).toPlain_eq_self (fun p hp => not_infix_toPlain hnormal.plain hp)

end Text

end Reckon
