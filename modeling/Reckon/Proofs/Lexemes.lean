import Reckon.Grammar
import Reckon.Proofs.Numerals
import Reckon.Proofs.PlainText
/-!
# Lexemes and the tokens they write

Plain text is cut without fail, and each lexeme is a numeral, a word or a single
symbol. Such a lexeme is classified without fail unless it is a numeral that is
too large: an unknown operator cannot come out of plain text. A text falls apart
at every separator.
-/

namespace Reckon

namespace Lexeme

/-! ## Kinds of lexemes -/

/-- A numeral, a word, or a single symbol. -/
def Shaped (lexeme : Lexeme) : Prop :=
  Numeral.isNumeral lexeme = true ∨ lexeme.isWord = true ∨ ∃ c, isSymbol c = true ∧ lexeme = [c]

theorem isWord_iff (lexeme : Lexeme) : lexeme.isWord = true ↔ lexeme ≠ [] ∧ ∀ c ∈ lexeme, c.isLower = true := by
  simp only [isWord, Bool.and_eq_true, Bool.not_eq_true', List.isEmpty_eq_false_iff, List.all_eq_true, ne_eq]

/-- What is common to the kinds: word characters of one class, or a symbol. -/
theorem Shaped.cases {l : Lexeme} (h : Shaped l) :
    (l ≠ [] ∧ ∀ c ∈ l, c.isDigit = true) ∨ (l ≠ [] ∧ ∀ c ∈ l, c.isLower = true) ∨
      ∃ c, isSymbol c = true ∧ l = [c] := by
  rcases h with h | h | h
  · exact .inl ((Numeral.isNumeral_iff l).1 h)
  · exact .inr (.inl ((isWord_iff l).1 h))
  · exact .inr (.inr h)

theorem Shaped.ne_nil {l : Lexeme} (h : Shaped l) : l ≠ [] := by
  rcases h.cases with ⟨hne, -⟩ | ⟨hne, -⟩ | ⟨c, -, rfl⟩
  · exact hne
  · exact hne
  · simp

theorem Shaped.isChain {l : Lexeme} (h : Shaped l) : l.IsChain fun a b => joined a b = true := by
  rcases h.cases with ⟨-, hd⟩ | ⟨-, hl⟩ | ⟨c, -, rfl⟩
  · apply List.Pairwise.isChain
    apply List.pairwise_of_forall_mem_list
    intro a ha b hb
    simp [joined, hd a ha, hd b hb]
  · apply List.Pairwise.isChain
    apply List.pairwise_of_forall_mem_list
    intro a ha b hb
    simp [joined, hl a ha, hl b hb]
  · exact List.isChain_singleton c

theorem Shaped.not_isSeparator {l : Lexeme} (h : Shaped l) : ∀ c ∈ l, isSeparator c = false := by
  intro c hc
  rcases h.cases with ⟨-, hd⟩ | ⟨-, hl⟩ | ⟨d, hd, rfl⟩
  · exact not_isSeparator_of_isWordChar (by simp [isWordChar, hd c hc])
  · exact not_isSeparator_of_isWordChar (by simp [isWordChar, hl c hc])
  · have hall : symbols.all (fun c => !isSeparator c) = true := by decide
    rw [List.mem_singleton.1 hc]
    simpa using of_isSymbol hall hd

/-! ## Cutting -/

/-- The lexemes of a text that is taken as plain. -/
def cut (t : Text) : List Lexeme := (t.splitBy joined).filter fun run => !run.any isSeparator

theorem split_eq {t : Text} (h : ∀ c ∈ t, isPlain c = true) : split t = .ok (cut t) := by
  unfold split
  rw [if_pos (List.all_eq_true.2 h)]
  rfl

theorem split_eq_error {t : Text} (h : ¬ ∀ c ∈ t, isPlain c = true) : split t = .error .invalidExpression := by
  unfold split
  rw [if_neg (fun hall => h (List.all_eq_true.1 hall))]

theorem split_toPlain (t : Text) : split t.toPlain = .ok (cut t.toPlain) :=
  split_eq (fun _ hc => Text.isPlain_of_mem_toPlain hc)

theorem not_joined_of_not_isWordChar {c : Char} (h : isWordChar c = false) (d : Char) :
    joined c d = false ∧ joined d c = false := by
  have hc : (c.isLower || c.isDigit) = false := h
  rw [Bool.or_eq_false_iff] at hc
  simp [joined, hc.1, hc.2]

theorem not_joined_of_isSeparator {c : Char} (h : isSeparator c = true) (d : Char) :
    joined c d = false ∧ joined d c = false :=
  not_joined_of_not_isWordChar (not_isWordChar_of_isSeparator h) d

/-- Nothing is joined across the border between two texts. -/
def Unjoined (t u : Text) : Prop := ∀ a ∈ t.getLast?, ∀ b ∈ u.head?, joined a b = false

theorem unjoined_of_last {t : Text} (h : ∀ c ∈ t.getLast?, isWordChar c = false) (u : Text) : Unjoined t u :=
  fun a ha b _ => (not_joined_of_not_isWordChar (h a ha) b).1

theorem unjoined_of_head {u : Text} (h : ∀ c ∈ u.head?, isWordChar c = false) (t : Text) : Unjoined t u :=
  fun a _ b hb => (not_joined_of_not_isWordChar (h b hb) a).2

/-- The text falls apart at a separator, which belongs to no lexeme. -/
theorem cut_append_separator {c : Char} (hc : isSeparator c = true) (t u : Text) :
    cut (t ++ c :: u) = cut t ++ cut u := by
  unfold cut
  rw [splitBy_append_cons_alone (not_joined_of_isSeparator hc), List.filter_append,
    List.filter_cons_of_neg (by simp [hc])]

theorem cut_cons_separator {c : Char} (hc : isSeparator c = true) (t : Text) : cut (c :: t) = cut t :=
  cut_append_separator hc [] t

theorem cut_separators_append {front : Text} (h : ∀ c ∈ front, isSeparator c = true) (t : Text) :
    cut (front ++ t) = cut t := by
  induction front with
  | nil => rfl
  | cons c front ih =>
    rw [List.cons_append, cut_cons_separator (h c (by simp)), ih (fun d hd => h d (by simp [hd]))]

theorem cut_append_separators {back : Text} (h : ∀ c ∈ back, isSeparator c = true) (t : Text) :
    cut (t ++ back) = cut t := by
  cases back with
  | nil => rw [List.append_nil]
  | cons c back =>
    have hback : ∀ d ∈ back, isSeparator d = true := by
      intro d hd
      exact h d (by simp [hd])
    have hrest := cut_separators_append hback []
    rw [List.append_nil] at hrest
    rw [cut_append_separator (h c (by simp)), hrest]
    exact List.append_nil _

/-- The text falls apart between characters that are not joined. -/
theorem cut_append {t u : Text} (h : Unjoined t u) : cut (t ++ u) = cut t ++ cut u := by
  unfold cut
  rw [List.splitBy_append h, List.filter_append]

theorem cut_lexeme {l : Lexeme} (h : Shaped l) : cut l = [l] := by
  have hsep : l.any isSeparator = false := by
    rw [List.any_eq_false]
    intro c hc
    simp [h.not_isSeparator c hc]
  unfold cut
  rw [List.splitBy_of_isChain h.ne_nil h.isChain]
  simp [hsep]

/-- A lexeme that ends at a separator or at the end of the text is cut off. -/
theorem cut_append_lexeme {run rest : Text} (hs : Shaped run) (hr : ∀ c ∈ rest.head?, isSeparator c = true) :
    cut (run ++ rest) = run :: cut rest := by
  rw [cut_append (unjoined_of_head (fun c hc => not_isWordChar_of_isSeparator (hr c hc)) run), cut_lexeme hs]
  rfl

/-- Words of the trimmed text are cut as those of the whole text are. -/
theorem cut_toPlain (t : Text) : cut t.toPlain = cut (NumberWord.replaceIn t.strip) := by
  obtain ⟨front, back, hf, hb, he⟩ := Text.replaceIn_trim t.strip
  rw [he, cut_separators_append hf, cut_append_separators hb]
  rfl

/-! ## Lexemes of plain text -/

/-- Joined neighbours are of the kind of the first character. -/
theorem all_of_isChain_joined {a : Char} {run : Text} (h : (a :: run).IsChain fun a b => joined a b = true) :
    (a.isDigit = true → (a :: run).all Char.isDigit = true) ∧
      (a.isLower = true → (a :: run).all Char.isLower = true) := by
  induction run generalizing a with
  | nil =>
    constructor
    · intro hd
      simp [hd]
    · intro hl
      simp [hl]
  | cons b run ih =>
    obtain ⟨hab, hrest⟩ := List.isChain_cons_cons.1 h
    obtain ⟨ihd, ihl⟩ := ih hrest
    simp only [joined, Bool.or_eq_true, Bool.and_eq_true] at hab
    constructor
    · intro hd
      rcases hab with ⟨-, hb⟩ | ⟨ha, -⟩
      · rw [List.all_cons, hd, ihd hb]; rfl
      · rw [not_isLower_of_isDigit hd] at ha; cases ha
    · intro hl
      rcases hab with ⟨ha, -⟩ | ⟨-, hb⟩
      · rw [not_isLower_of_isDigit ha] at hl; cases hl
      · rw [List.all_cons, hl, ihl hb]; rfl

theorem shaped_of_mem_cut {t : Text} (h : ∀ c ∈ t, isPlain c = true) {l : Lexeme} (hl : l ∈ cut t) :
    Shaped l := by
  obtain ⟨hmem, hsep⟩ := List.mem_filter.1 hl
  have hchain := List.isChain_of_mem_splitBy hmem
  cases l with
  | nil => exact absurd hmem (List.nil_notMem_splitBy joined t)
  | cons a run =>
    have ht : a ∈ t := by
      rw [← List.flatten_splitBy joined t]
      exact List.mem_flatten.2 ⟨a :: run, hmem, by simp⟩
    have hplain := h a ht
    have ha : isSeparator a = false := by
      simp only [List.any_cons, Bool.not_eq_true', Bool.or_eq_false_iff] at hsep
      exact hsep.1
    simp only [isPlain, isWordChar, ha, Bool.or_false, Bool.or_eq_true] at hplain
    rcases hplain with (hlow | hdig) | hsym
    · exact .inr (.inl (by simp [isWord, (all_of_isChain_joined hchain).2 hlow]))
    · exact .inl (by simp [Numeral.isNumeral, (all_of_isChain_joined hchain).1 hdig])
    · cases run with
      | nil => exact .inr (.inr ⟨a, hsym, rfl⟩)
      | cons b run =>
        -- A symbol is joined with nothing, so it stands alone.
        have hab := (List.isChain_cons_cons.1 hchain).1
        rw [(not_joined_of_not_isWordChar (not_isWordChar_of_isSymbol hsym) b).1] at hab
        cases hab

/-! ## Tokens -/

/-- The token that a lexeme writes; a word writes none. -/
def token? (lexeme : Lexeme) : Option Token :=
  if Numeral.isNumeral lexeme then some (.number (Numeral.value lexeme))
  else if lexeme = ['('] then some .leftParen
  else if lexeme = [')'] then some .rightParen
  else (Operator.ofLexeme lexeme).toOption.map .operator

theorem token?_of_isNumeral {l : Lexeme} (h : Numeral.isNumeral l = true) :
    l.token? = some (.number (Numeral.value l)) := by
  simp [token?, h]

theorem not_isNumeral_of_isWord {l : Lexeme} (h : l.isWord = true) : Numeral.isNumeral l = false := by
  obtain ⟨hne, hlow⟩ := (isWord_iff l).1 h
  rw [← Bool.not_eq_true, Numeral.isNumeral_iff]
  rintro ⟨-, hdigit⟩
  obtain ⟨c, hc⟩ := List.exists_mem_of_ne_nil l hne
  have hl := hlow c hc
  rw [not_isLower_of_isDigit (hdigit c hc)] at hl
  cases hl

theorem not_isWord_of_isNumeral {l : Lexeme} (h : Numeral.isNumeral l = true) : l.isWord = false := by
  cases hw : l.isWord with
  | false => rfl
  | true => rw [not_isNumeral_of_isWord hw] at h; cases h

theorem token?_of_isWord {l : Lexeme} (h : l.isWord = true) : l.token? = none := by
  have hn := not_isNumeral_of_isWord h
  have hne : ∀ c, isSymbol c = true → l ≠ [c] := by
    rintro c hc rfl
    have hall : symbols.all (fun d => !isWord [d]) = true := by decide
    have hc' := of_isSymbol hall hc
    rw [h] at hc'
    cases hc'
  have hop : (Operator.ofLexeme l).toOption = none := by
    unfold Operator.ofLexeme
    split
    · exact absurd rfl (hne '+' (by decide))
    · exact absurd rfl (hne '-' (by decide))
    · exact absurd rfl (hne '*' (by decide))
    · exact absurd rfl (hne '/' (by decide))
    · rfl
  simp [token?, hn, hne '(' (by decide), hne ')' (by decide), hop]

/-- Classification of a lexeme of plain text within range: its token, and a record
if it is a word. -/
theorem classify_eq {l : Lexeme} (hs : Shaped l) (ha : Allowed l) :
    Token.classify l = ⟨.ok l.token?, if l.isWord then [.dropped l] else []⟩ := by
  rcases hs with hn | hw | ⟨c, hc, rfl⟩
  · rw [token?_of_isNumeral hn, not_isWord_of_isNumeral hn]
    simp only [Token.classify, hn, if_true, ha.read? hn]
    rfl
  · have hn := not_isNumeral_of_isWord hw
    have hl : l ≠ ['('] := by rintro rfl; revert hw; decide
    have hr : l ≠ [')'] := by rintro rfl; revert hw; decide
    rw [token?_of_isWord hw]
    simp only [Token.classify, hn, hl, hr, hw, if_true, if_false, Bool.false_eq_true]
    rfl
  · have hall : symbols.all (fun d => decide (Token.classify [d] =
        ⟨.ok (token? [d]), if isWord [d] then [.dropped [d]] else []⟩)) = true := by decide
    simpa using of_isSymbol hall hc

theorem classifyAll_eq {lexemes : List Lexeme} (hs : ∀ l ∈ lexemes, Shaped l) (ha : ∀ l ∈ lexemes, Allowed l) :
    Token.classifyAll lexemes = ⟨.ok (lexemes.filterMap token?), (lexemes.filter isWord).map .dropped⟩ := by
  induction lexemes with
  | nil => rfl
  | cons l rest ih =>
    rw [List.forall_mem_cons] at hs ha
    simp only [Token.classifyAll, classify_eq hs.1 ha.1, ih hs.2 ha.2]
    cases ht : l.token? <;> cases hw : l.isWord <;> simp [ht, hw, Bind.bind, Functor.map, Except.map]

end Lexeme

end Reckon
