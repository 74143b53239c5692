import Reckon.Proofs.Compilation
import Reckon.Proofs.Pieces
/-!
# Running text that spells a sentence

`Spells` says which running texts spell a list of tokens: numerals or number words
for numbers, symbols or phrases for operators, in any case, with punctuation after
any piece, separators between the pieces, and words without meaning anywhere.
`evaluate_of_spells` ties the whole library together: a text that spells a
sentence has the value of the sentence's tree.

The proof goes from piece to piece. No phrase and no number word crosses the gap
between two pieces, so each piece becomes one lexeme of its own.
-/

namespace Reckon

namespace Spelling

open Text

/-- Punctuation is every ASCII character from `!` to `~` that is no letter, no
digit and no symbol of arithmetic. -/
def isPunctuation (c : Char) : Bool := '!' ≤ c && c ≤ '~' && !c.isAlphanum && !isSymbol c

/-- The ways to write a token. Letters may have any case. -/
inductive Writes : Token → Text → Prop where
  /-- A number up to 20 in decimal digits, with leading zeros. -/
  | digits (zeros n : Nat) : n ≤ 20 → Writes (.number n) (List.replicate zeros '0' ++ Nat.toDigits 10 n)
  | numberWord {n : Nat} {piece : Text} :
      NumberWord.all[n]? = some (piece.map Char.toLower) → Writes (.number n) piece
  | symbol (op : Operator) : Writes (.operator op) [op.symbol]
  | phrase {p : Phrase} {piece : Text} :
      p ∈ Phrase.all → piece.map Char.toLower = p.words → Writes (.operator p.operator) piece
  | leftParen : Writes .leftParen ['(']
  | rightParen : Writes .rightParen [')']

/-- A run of letters without meaning: no number word, and none of the words that
operator phrases start with is inside. -/
structure Filler (piece : Text) : Prop where
  ne_nil : piece ≠ []
  letters : piece.all Char.isAlpha = true
  no_number : piece.map Char.toLower ∉ NumberWord.all
  no_key : ∀ key ∈ Phrase.keys, ¬ key <:+: piece.map Char.toLower

/-- The text spells the tokens, piece by piece. Each piece may be followed by
punctuation, and then by a separator or by nothing. -/
inductive Spells : List Token → Text → Prop where
  | nil : Spells [] []
  | separator {c : Char} {tokens : List Token} {rest : Text} :
      isSeparator c = true → Spells tokens rest → Spells tokens (c :: rest)
  | token {token : Token} {tokens : List Token} (piece punctuation rest : Text) :
      Writes token piece → punctuation.all isPunctuation = true → rest.head?.all isSeparator = true →
      Spells tokens rest →
      Spells (token :: tokens) (piece ++ (punctuation ++ rest))
  | filler {tokens : List Token} (piece punctuation rest : Text) :
      Filler piece → punctuation.all isPunctuation = true → rest.head?.all isSeparator = true →
      Spells tokens rest →
      Spells tokens (piece ++ (punctuation ++ rest))

/-! ## Characters -/

theorem isPunctuation_spec {c : Char} (h : isPunctuation c = true) :
    c.toNat < 128 ∧ c.toLower = c ∧ c.isLower = false ∧ isPlain c = false := by
  simp only [isPunctuation, Bool.and_eq_true, Bool.not_eq_true', decide_eq_true_eq] at h
  obtain ⟨⟨⟨hlow, hhigh⟩, halnum⟩, hsym⟩ := h
  simp only [Char.isAlphanum, isAlpha_eq, Bool.or_eq_false_iff] at halnum
  obtain ⟨⟨hu, hl⟩, hd⟩ := halnum
  have hsep : isSeparator c = false := by
    cases hs : isSeparator c with
    | false => rfl
    | true =>
      have hall : separators.all (fun d => !decide ('!' ≤ d)) = true := by decide
      have hc := of_isSeparator hall hs
      simp [hlow] at hc
  refine ⟨?_, ?_, hl, ?_⟩
  · have h126 : c.toNat ≤ 126 := UInt32.le_iff_toNat_le.1 hhigh
    omega
  · exact toLower_eq_self (by simp [hu])
  · simp [isPlain, isWordChar, hl, hd, hsym, hsep]

/-! ## Pieces and what follows them -/

/-- What is read starts with a separator where the text does. -/
theorem head_replaceIn_scanned {t : Text} (h : ∀ c ∈ t.head?, isSeparator c = true) :
    (∀ c ∈ (scanned t).head?, isSeparator c = true) ∧
      ∀ c ∈ (NumberWord.replaceIn (scanned t)).head?, isSeparator c = true := by
  cases t with
  | nil => exact ⟨by simp [scanned, Phrase.replaceTogether, Phrase.replaceTogether.go],
      by simp [scanned, Phrase.replaceTogether, Phrase.replaceTogether.go, NumberWord.replaceIn, NumberWord.runs]⟩
  | cons d t =>
    have hd : isSeparator d = true := h d rfl
    rw [scanned_cons_separator hd, NumberWord.replaceIn_cons_break (not_isWordChar_of_isSeparator hd)]
    simp [hd]

/-- Punctuation after a piece is left out. -/
theorem scanned_piece {piece core punctuation rest : Text} (h : Reads piece core)
    (hp : ∀ c ∈ punctuation, isPunctuation c = true) (hr : ∀ c ∈ rest.head?, isSeparator c = true) :
    scanned (piece ++ (punctuation ++ rest)) = core ++ scanned rest := by
  have hpl : punctuation.map Char.toLower = punctuation :=
    map_toLower_eq (fun c hc => (isPunctuation_spec (hp c hc)).2.1)
  have hlow : ∀ c ∈ punctuation, c.isLower = false := fun c hc => (isPunctuation_spec (hp c hc)).2.2.1
  have hplain : ∀ c ∈ punctuation, ¬ isPlain c = true := by
    intro c hc
    simp [(isPunctuation_spec (hp c hc)).2.2.2]
  -- Whatever follows the piece, it is no letter, so no phrase goes on there.
  have hhead : ∀ c ∈ (punctuation ++ rest.map Char.toLower).head?, c.isLower = false := by
    cases punctuation with
    | cons d punctuation => simpa using hlow d (by simp)
    | nil =>
      cases rest with
      | nil => simp
      | cons d rest =>
        obtain ⟨-, hl, hn⟩ := isSeparator_spec (hr d rfl)
        simp [hl, hn]
  unfold scanned
  rw [List.map_append, List.map_append, hpl, h.scan _ hhead, Phrase.replaceTogether_append_of_not_isLower hlow,
    List.filter_append, List.filter_append, List.filter_eq_self.2 h.plain, List.filter_eq_nil_iff.2 hplain]
  rfl

/-- A piece with its punctuation becomes one lexeme. -/
theorem cut_piece {piece core punctuation rest : Text} (h : Reads piece core)
    (hp : punctuation.all isPunctuation = true) (hr : rest.head?.all isSeparator = true) :
    Lexeme.cut (NumberWord.replaceIn (scanned (piece ++ (punctuation ++ rest)))) =
      NumberWord.inDigits core :: Lexeme.cut (NumberWord.replaceIn (scanned rest)) := by
  have hr' : ∀ c ∈ rest.head?, isSeparator c = true := (Option.all_eq_true _ _).1 hr
  obtain ⟨h1, h2⟩ := head_replaceIn_scanned hr'
  rw [scanned_piece h (List.all_eq_true.1 hp) hr', h.digits _ h1, Lexeme.cut_append_lexeme h.shaped h2]

/-! ## What each kind of piece says -/

/-- A number of at most 20, in digits. -/
theorem number_of_digits {l : Lexeme} {n : Nat} (hnum : Numeral.isNumeral l = true) (hv : Numeral.value l = n)
    (hn : n ≤ 20) : l.token? = some (.number n) ∧ Lexeme.Allowed l := by
  constructor
  · rw [Lexeme.token?_of_isNumeral hnum, hv]
  · intro _
    rw [hv]
    exact hn

theorem token?_symbol (op : Operator) : Lexeme.token? [op.symbol] = some (.operator op) := by
  cases op <;> rfl

/-- The piece becomes a lexeme within range that writes this token, or none. -/
def Says (piece : Text) (token? : Option Token) : Prop :=
  ∃ core, Reads piece core ∧ Lexeme.token? (NumberWord.inDigits core) = token? ∧
    Lexeme.Allowed (NumberWord.inDigits core)

theorem says_of_symbol {piece : Text} {c : Char} {token : Token} (hc : isSymbol c = true) (h : Reads piece [c])
    (ht : Lexeme.token? [c] = some token) : Says piece (some token) := by
  refine ⟨[c], h, ?_⟩
  rw [NumberWord.inDigits_singleton]
  refine ⟨ht, ?_⟩
  intro hn
  have hall : symbols.all (fun d => !Numeral.isNumeral [d]) = true := by decide
  have hc' := of_isSymbol hall hc
  rw [hn] at hc'
  cases hc'

theorem says_of_writes {token : Token} {piece : Text} (h : Writes token piece) : Says piece (some token) := by
  cases h with
  | digits zeros n hn =>
    have hnum := Numeral.isNumeral_padded zeros n
    refine ⟨_, reads_numeral hnum, ?_⟩
    rw [NumberWord.inDigits_of_none (NumberWord.value?_of_isNumeral hnum)]
    exact number_of_digits hnum (Numeral.value_padded zeros n) hn
  | @numberWord n piece h =>
    obtain ⟨hreads, hdigits, hn⟩ := reads_numberWord h
    refine ⟨_, hreads, ?_⟩
    rw [hdigits]
    exact number_of_digits (Numeral.isNumeral_toDigits n) (Numeral.value_padded 0 n) hn
  | symbol op => exact says_of_symbol (isSymbol_symbol op) (reads_symbol_self (isSymbol_symbol op)) (token?_symbol op)
  | @phrase p piece hp h => exact says_of_symbol (isSymbol_symbol _) (reads_phrase hp h) (token?_symbol _)
  | leftParen => exact says_of_symbol (by decide) (reads_symbol_self (by decide)) rfl
  | rightParen => exact says_of_symbol (by decide) (reads_symbol_self (by decide)) rfl

theorem says_of_filler {piece : Text} (h : Filler piece) : Says piece none := by
  have hlow : ∀ c ∈ piece.map Char.toLower, c.isLower = true := by
    intro c hc
    obtain ⟨d, hd, rfl⟩ := List.mem_map.1 hc
    rw [isLower_toLower]
    exact List.all_eq_true.1 h.letters d hd
  have hword : Lexeme.isWord (piece.map Char.toLower) = true :=
    (Lexeme.isWord_iff _).2 ⟨by simpa using h.ne_nil, hlow⟩
  have hdigits : NumberWord.inDigits (piece.map Char.toLower) = piece.map Char.toLower :=
    NumberWord.inDigits_of_none ((NumberWord.value?_eq_none_iff _).2 h.no_number)
  refine ⟨piece.map Char.toLower, ?_, ?_, ?_⟩
  · apply reads_word h.ne_nil
    · intro c hc
      exact toNat_lt_of_isAlpha (List.all_eq_true.1 h.letters c hc)
    · intro c hc
      simp [isWordChar, hlow c hc]
    · exact h.no_key
    · rw [hdigits]
      exact .inr (.inl hword)
  · rw [hdigits]
    exact Lexeme.token?_of_isWord hword
  · rw [hdigits]
    intro hn
    rw [Lexeme.not_isNumeral_of_isWord hword] at hn
    cases hn

/-! ## Whole texts -/

theorem toNat_lt_of_piece {piece core punctuation rest : Text} (h : Reads piece core)
    (hp : punctuation.all isPunctuation = true) (hr : ∀ c ∈ rest, c.toNat < 128) :
    ∀ c ∈ piece ++ (punctuation ++ rest), c.toNat < 128 := by
  intro c hc
  rcases List.mem_append.1 hc with hc | hc
  · exact h.ascii c hc
  · rcases List.mem_append.1 hc with hc | hc
    · exact (isPunctuation_spec (List.all_eq_true.1 hp c hc)).1
    · exact hr c hc

theorem ascii_of_spells {tokens : List Token} {t : Text} (h : Spells tokens t) : ∀ c ∈ t, c.toNat < 128 := by
  induction h with
  | nil => simp
  | separator hc _ ih => exact List.forall_mem_cons.2 ⟨(isSeparator_spec hc).1, ih⟩
  | token piece punctuation rest hw hp _ _ ih =>
    obtain ⟨core, hreads, -⟩ := says_of_writes hw
    exact toNat_lt_of_piece hreads hp ih
  | filler piece punctuation rest hf hp _ _ ih =>
    obtain ⟨core, hreads, -⟩ := says_of_filler hf
    exact toNat_lt_of_piece hreads hp ih

/-- The lexemes of a text that spells tokens say these tokens. -/
theorem tokens_of_spells {tokens : List Token} {t : Text} (h : Spells tokens t) :
    (∀ l ∈ Lexeme.cut (NumberWord.replaceIn (scanned t)), Lexeme.Allowed l) ∧
      (Lexeme.cut (NumberWord.replaceIn (scanned t))).filterMap Lexeme.token? = tokens := by
  induction h with
  | nil => exact ⟨fun _ hl => (List.not_mem_nil hl).elim, rfl⟩
  | separator hc _ ih =>
    rw [scanned_cons_separator hc, NumberWord.replaceIn_cons_break (not_isWordChar_of_isSeparator hc),
      Lexeme.cut_cons_separator hc]
    exact ih
  | token piece punctuation rest hw hp hr _ ih =>
    obtain ⟨core, hreads, htoken, hallowed⟩ := says_of_writes hw
    rw [cut_piece hreads hp hr, List.filterMap_cons_some htoken, ih.2]
    exact ⟨List.forall_mem_cons.2 ⟨hallowed, ih.1⟩, rfl⟩
  | filler piece punctuation rest hf hp hr _ ih =>
    obtain ⟨core, hreads, htoken, hallowed⟩ := says_of_filler hf
    rw [cut_piece hreads hp hr, List.filterMap_cons_none htoken]
    exact ⟨List.forall_mem_cons.2 ⟨hallowed, ih.1⟩, ih.2⟩

/-- A text that spells a sentence has the value of the sentence's tree: the same
number, or the fault that the tree meets first from the left. -/
theorem evaluate_of_spells {tokens : List Token} {e : Expr} {t : Text} (hd : Derives .sum tokens e)
    (hs : Spells tokens t) : evaluate t = e.value.mapError Rejection.mk := by
  have hcut : Lexeme.cut t.toPlain = Lexeme.cut (NumberWord.replaceIn (scanned t)) := by
    rw [Lexeme.cut_toPlain, strip_eq_scanned (ascii_of_spells hs)]
  obtain ⟨hallowed, htokens⟩ := tokens_of_spells hs
  rw [← hcut] at hallowed htokens
  have hp : ∀ c ∈ t.toPlain, isPlain c = true := fun c hc => Text.isPlain_of_mem_toPlain hc
  have hcompile : (Program.compile t).value = .ok ⟨t.toPlain, e.postorder⟩ := by
    show (Program.compilePlain t.toPlain).value = _
    rw [Program.compilePlain_of_allowed hp hallowed, htokens, Code.ofTokens_of_derives hd]
    rfl
  unfold evaluate
  rw [hcompile]
  show (Machine.run e.postorder).mapError Rejection.mk = _
  rw [Machine.run_postorder]

/-- A question in running text: `(4 - 4) / 2`. -/
theorem evaluate_of_spells_question :
    Derives .sum [.leftParen, .number 4, .operator .subtract, .number 4, .rightParen, .operator .divide, .number 2]
        (.binary .divide (.binary .subtract (.number 4) (.number 4)) (.number 2)) ∧
      Spells [.leftParen, .number 4, .operator .subtract, .number 4, .rightParen, .operator .divide, .number 2]
        "What is ( 004 - FOUR, ) Divided by\ttwo?".toList ∧
      evaluate "What is ( 004 - FOUR, ) Divided by\ttwo?".toList =
        (Expr.binary .divide (.binary .subtract (.number 4) (.number 4)) (.number 2)).value.mapError Rejection.mk := by
  have hd : Derives .sum
      [.leftParen, .number 4, .operator .subtract, .number 4, .rightParen, .operator .divide, .number 2]
      (.binary .divide (.binary .subtract (.number 4) (.number 4)) (.number 2)) :=
    .ofProduct (.product (.inr rfl)
      (.ofFactor (.group (.sum (.inr rfl) (.ofProduct (.ofFactor (.number 4))) (.ofFactor (.number 4)))))
      (.number 2))
  have hs : Spells [.leftParen, .number 4, .operator .subtract, .number 4, .rightParen, .operator .divide, .number 2]
      "What is ( 004 - FOUR, ) Divided by\ttwo?".toList := by
    refine .filler "What".toList [] _ ⟨by decide, by decide, by decide, by decide⟩ rfl rfl (.separator rfl ?_)
    refine .filler "is".toList [] _ ⟨by decide, by decide, by decide, by decide⟩ rfl rfl (.separator rfl ?_)
    refine .token "(".toList [] _ .leftParen rfl rfl (.separator rfl ?_)
    refine .token "004".toList [] _ (.digits 2 4 (by decide)) rfl rfl (.separator rfl ?_)
    refine .token "-".toList [] _ (.symbol .subtract) rfl rfl (.separator rfl ?_)
    refine .token "FOUR".toList ",".toList _ (.numberWord rfl) rfl rfl (.separator rfl ?_)
    refine .token ")".toList [] _ .rightParen rfl rfl (.separator rfl ?_)
    refine .token "Divided by".toList [] _ (@Writes.phrase Phrase.dividedBy _ (by decide) rfl) rfl rfl
      (.separator rfl ?_)
    exact .token "two".toList "?".toList [] (.numberWord rfl) rfl rfl .nil
  exact ⟨hd, hs, evaluate_of_spells hd hs⟩

end Spelling

end Reckon
