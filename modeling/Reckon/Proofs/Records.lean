import Reckon.Proofs.Compilation
/-!
# What a compilation records

A compilation either looks at all lexemes or stops at the first numeral that is not
allowed. In the one case it records the words that it leaves out, each time they
occur; in the other case it records that numeral if it could not even be read, and
nothing else. Whether the parentheses match is found out later and leaves no record.
-/

namespace Reckon.Program

/-- Only the work on the lexemes leaves records. -/
theorem events_eq_assemble (t : Text) : (compile t).events = (assemble (Lexeme.cut t.toPlain)).events := by
  rw [compile, compilePlain_eq (fun c hc => Text.isPlain_of_mem_toPlain hc)]

theorem events_of_allowed {t : Text} (ha : ∀ l ∈ Lexeme.cut t.toPlain, Lexeme.Allowed l) :
    (compile t).events = ((Lexeme.cut t.toPlain).filter Lexeme.isWord).map .dropped := by
  have hshaped : ∀ l ∈ Lexeme.cut t.toPlain, Lexeme.Shaped l := by
    intro l hl
    exact Lexeme.shaped_of_mem_cut (fun c hc => Text.isPlain_of_mem_toPlain hc) hl
  rw [events_eq_assemble, assemble_of_allowed hshaped ha]

theorem events_of_not_allowed {t : Text} {front rest : List Lexeme} {l : Lexeme}
    (h : Lexeme.cut t.toPlain = front ++ l :: rest) (hf : ∀ l' ∈ front, Lexeme.Allowed l')
    (hl : ¬ Lexeme.Allowed l) :
    (compile t).events = if Numeral.largest < Numeral.value l then [.overflow l] else [] := by
  rw [events_eq_assemble, h, assemble_of_not_allowed hf hl]

/-- What is recorded while a text is compiled. If no numeral among its lexemes is
above 20, these are the words among them, from left to right, and the parentheses may
match or not. Otherwise the first numeral above 20 is all that matters: it is recorded
if it is above the largest number that can be read, and if it is not then there is no
record. -/
theorem events_compile (t : Text) :
    ∃ lexemes, Lexeme.split t.toPlain = .ok lexemes ∧
      (((∀ l ∈ lexemes, Numeral.isNumeral l = true → Numeral.value l ≤ 20) ∧
          (compile t).events = (lexemes.filter Lexeme.isWord).map .dropped ∧
          ((∃ p, (compile t).value = .ok p) ∨ (compile t).value = .error ⟨.mismatchedParentheses⟩)) ∨
        ∃ front numeral rest, lexemes = front ++ numeral :: rest ∧
          (∀ l ∈ front, Numeral.isNumeral l = true → Numeral.value l ≤ 20) ∧
          Numeral.isNumeral numeral = true ∧ 20 < Numeral.value numeral ∧
          (compile t).events = (if 4294967295 < Numeral.value numeral then [.overflow numeral] else []) ∧
          (compile t).value = .error ⟨.outOfRange⟩) := by
  refine ⟨Lexeme.cut t.toPlain, Lexeme.split_toPlain t, ?_⟩
  rcases compile_cases t with ⟨ha, hout⟩ | ⟨ha, -, hmismatched⟩ | ⟨ha, -, p, hok, -⟩
  · obtain ⟨front, l, rest, heq, hf, hl⟩ := Lexeme.exists_first_not_allowed ha
    obtain ⟨hn, hgt⟩ := Classical.not_imp.1 hl
    exact .inr ⟨front, l, rest, heq, hf, hn, Nat.lt_of_not_le hgt, events_of_not_allowed heq hf hl, hout⟩
  · exact .inl ⟨ha, events_of_allowed ha, .inr hmismatched⟩
  · exact .inl ⟨ha, events_of_allowed ha, .inl ⟨p, hok⟩⟩

/-- Fillers in front and twice, a small number, a parenthesis that is never closed. -/
example : (compile "Add two (to 5, to be sure".toList).events =
    [.dropped "add".toList, .dropped "to".toList, .dropped "to".toList, .dropped "be".toList,
      .dropped "sure".toList] := by decide +kernel

example : (compile "add 25 to 99999999999".toList).events = [] := by decide +kernel

end Reckon.Program
