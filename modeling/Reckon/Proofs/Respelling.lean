import Mathlib.Logic.Relation
import Reckon.Evaluator
import Reckon.Proofs.Pieces
/-!
# Other spellings of a text

A text may be respelled in steps: a letter in the other case, the symbol for a
phrase wherever that occurs, the numeral for a word that is a number word, more
separators at the ends or fewer. No step changes the plain form, so nothing that
is made from the plain form changes either.

A step happens between two borders. No phrase crosses a border at a symbol or at
another phrase, and none crosses the border of a number word, so what is around
the place of a step is read as before.
-/

namespace Reckon

namespace Respelling

open Text

/-- The characters of the texts in question: ASCII letters and digits, symbols and
separators. -/
def isWritten (c : Char) : Bool := c.isAlphanum || isSymbol c || isSeparator c

/-- One step of respelling, at any place of a text. -/
inductive Step : Text → Text → Prop where
  | letter (front back : Text) {c d : Char} :
      c.isAlpha = true → d.isAlpha = true → c.toLower = d.toLower →
      Step (front ++ c :: back) (front ++ d :: back)
  | phrase (front back : Text) {p : Phrase} {piece : Text} :
      p ∈ Phrase.all → piece.map Char.toLower = p.words →
      Step (front ++ (piece ++ back)) (front ++ p.operator.symbol :: back)
  /-- The word has no letter or digit on either side. -/
  | numberWord (front back : Text) {word : Text} {n : Nat} :
      NumberWord.all[n]? = some (word.map Char.toLower) → front.getLast?.any Char.isAlphanum = false →
      back.head?.any Char.isAlphanum = false →
      Step (front ++ (word ++ back)) (front ++ (Nat.toDigits 10 n ++ back))
  | pad (front t back : Text) :
      front.all isSeparator = true → back.all isSeparator = true → Step t (front ++ (t ++ back))
  | strip (front t back : Text) :
      front.all isSeparator = true → back.all isSeparator = true → Step (front ++ (t ++ back)) t

/-! ## Characters -/

theorem toNat_lt_of_isWritten {c : Char} (h : isWritten c = true) : c.toNat < 128 := by
  simp only [isWritten, Char.isAlphanum, Bool.or_eq_true] at h
  rcases h with ((h | h) | h) | h
  · exact toNat_lt_of_isAlpha h
  · exact (isDigit_spec h).1
  · exact (isSymbol_spec h).1
  · exact (isSeparator_spec h).1

/-- What is no letter and no digit stands for itself and breaks words. -/
theorem mark_spec {c : Char} (h : isWritten c = true) (ha : c.isAlphanum = false) :
    c.toLower = c ∧ c.isLower = false ∧ isPlain c = true ∧ isWordChar c = false := by
  simp only [isWritten, ha, Bool.false_or, Bool.or_eq_true] at h
  rcases h with h | h
  · exact ⟨(isSymbol_spec h).2.1, (isSymbol_spec h).2.2, isPlain_of_isSymbol h, not_isWordChar_of_isSymbol h⟩
  · exact ⟨(isSeparator_spec h).2.1, (isSeparator_spec h).2.2, isPlain_of_isSeparator h,
      not_isWordChar_of_isSeparator h⟩

theorem isWritten_of_isSeparator {c : Char} (h : isSeparator c = true) : isWritten c = true := by
  simp [isWritten, h]

theorem symbol_spec (op : Operator) : isWritten op.symbol = true ∧ op.symbol.isAlphanum = false := by
  cases op <;> decide

/-- A step does not lead out of the texts in question. -/
theorem Step.all_isWritten {t t' : Text} (h : Step t t') (ht : ∀ c ∈ t, isWritten c = true) :
    ∀ c ∈ t', isWritten c = true := by
  cases h with
  | @letter front back c d _ hd _ =>
    have hwritten : isWritten d = true := by simp [isWritten, Char.isAlphanum, hd]
    simp only [List.forall_mem_append, List.forall_mem_cons] at ht ⊢
    exact ⟨ht.1, hwritten, ht.2.2⟩
  | @phrase front back p _ _ _ =>
    simp only [List.forall_mem_append, List.forall_mem_cons] at ht ⊢
    exact ⟨ht.1, (symbol_spec p.operator).1, ht.2.2⟩
  | @numberWord front back _ n _ _ _ =>
    have hdigits : ∀ c ∈ Nat.toDigits 10 n, isWritten c = true := by
      intro c hc
      simp [isWritten, Char.isAlphanum, Nat.isDigit_of_mem_toDigits (by omega) (by omega) hc]
    simp only [List.forall_mem_append] at ht ⊢
    exact ⟨ht.1, hdigits, ht.2.2⟩
  | pad front _ back hf hb =>
    simp only [List.forall_mem_append]
    exact ⟨fun c hc => isWritten_of_isSeparator (List.all_eq_true.1 hf c hc), ht,
      fun c hc => isWritten_of_isSeparator (List.all_eq_true.1 hb c hc)⟩
  | strip front _ back _ _ =>
    simp only [List.forall_mem_append] at ht
    exact ht.2.1

/-! ## Scanning around a border -/

theorem scanned_mark {c : Char} (h : isWritten c = true) (ha : c.isAlphanum = false) (t : Text) :
    scanned (c :: t) = c :: scanned t := by
  obtain ⟨hl, hn, hp, -⟩ := mark_spec h ha
  unfold scanned
  rw [List.map_cons, hl, Phrase.replaceTogether_cons_of_not_isLower hn, List.filter_cons_of_pos hp]

theorem scanned_concat_mark {c : Char} (h : isWritten c = true) (ha : c.isAlphanum = false) (t : Text) :
    scanned (t ++ [c]) = scanned t ++ [c] := by
  obtain ⟨hl, hn, -, -⟩ := mark_spec h ha
  rw [scanned_append (Phrase.not_crosses_of_not_isLower (by simp [hl, hn]) _), scanned_mark h ha]
  rfl

/-- A phrase is scanned as its symbol is, also inside a longer word. -/
theorem scanned_phrase {p : Phrase} {piece : Text} (hp : p ∈ Phrase.all) (h : piece.map Char.toLower = p.words)
    (front back : Text) : scanned (front ++ (piece ++ back)) = scanned (front ++ p.operator.symbol :: back) := by
  obtain ⟨hw, ha⟩ := symbol_spec p.operator
  obtain ⟨hl, -, hplain, -⟩ := mark_spec hw ha
  have hpiece : scanned (piece ++ back) = p.operator.symbol :: scanned back := by
    unfold scanned
    rw [List.map_append, h, Phrase.separate_all.replaceTogether_append hp, List.filter_cons_of_pos hplain]
  have hphrase : ¬ Phrase.Crosses (front.map Char.toLower) ((piece ++ back).map Char.toLower) := by
    rw [List.map_append, h]
    exact Phrase.not_crosses_words hp _ _
  have hsymbol : ¬ Phrase.Crosses (front.map Char.toLower) ((p.operator.symbol :: back).map Char.toLower) := by
    rw [List.map_cons, hl]
    exact Phrase.not_crosses_symbol hp _ _
  rw [scanned_append hphrase, scanned_append hsymbol, hpiece, scanned_mark hw ha]

/-! ## Number words -/

/-- A piece between borders is replaced for itself, if it is not the `by` of a phrase. -/
theorem replaceIn_scanned_piece {front piece back : Text} (hf : ∀ c ∈ front, isWritten c = true)
    (hb : ∀ c ∈ back, isWritten c = true) (hfront : front.getLast?.any Char.isAlphanum = false)
    (hback : back.head?.any Char.isAlphanum = false) (hreads : Reads piece (piece.map Char.toLower))
    (hne : piece ≠ []) (hword : ∀ c ∈ piece.map Char.toLower, isWordChar c = true)
    (hby : (piece.map Char.toLower).head? ≠ some 'b') :
    NumberWord.replaceIn (scanned (front ++ (piece ++ back))) =
      NumberWord.replaceIn (scanned front) ++
        (NumberWord.inDigits (piece.map Char.toLower) ++ NumberWord.replaceIn (scanned back)) := by
  have hne' : piece.map Char.toLower ≠ [] := by simpa using hne
  -- Behind the piece stands nothing or a mark.
  have hrest : NumberWord.replaceIn (scanned (piece ++ back)) =
      NumberWord.inDigits (piece.map Char.toLower) ++ NumberWord.replaceIn (scanned back) := by
    cases back with
    | nil =>
      rw [scanned_reads hreads (by simp)]
      exact NumberWord.replaceIn_append_word hne' hword (by simp)
    | cons d back =>
      rw [List.head?_cons, Option.any_some] at hback
      obtain ⟨hl, hn, -, hbreak⟩ := mark_spec (hb d (by simp)) hback
      rw [scanned_reads hreads (by simp [hl, hn]), scanned_mark (hb d (by simp)) hback]
      exact NumberWord.replaceIn_append_word hne' hword (by simp [hbreak])
  -- So it is before the piece.
  rcases List.eq_nil_or_concat front with rfl | ⟨front, c, rfl⟩
  · exact hrest
  · rw [List.concat_eq_append] at hf hfront ⊢
    rw [List.getLast?_concat, Option.any_some] at hfront
    have hc : isWritten c = true := hf c (by simp)
    obtain ⟨hl, hn, -, hbreak⟩ := mark_spec hc hfront
    have hborder : ¬ Phrase.Crosses ((front ++ [c]).map Char.toLower) ((piece ++ back).map Char.toLower) := by
      intro hcross
      have hhead := Phrase.head?_of_crosses hcross (by simp [hl, hn])
      rw [List.map_append, List.head?_append_of_ne_nil _ hne'] at hhead
      exact hby hhead
    rw [scanned_append hborder, scanned_concat_mark hc hfront, List.append_assoc, List.singleton_append,
      NumberWord.replaceIn_append_break hbreak, NumberWord.replaceIn_append_break hbreak, hrest]
    simp [NumberWord.replaceIn, NumberWord.runs]

theorem replaceIn_scanned_numberWord {front back word : Text} {n : Nat} (hf : ∀ c ∈ front, isWritten c = true)
    (hb : ∀ c ∈ back, isWritten c = true) (hfront : front.getLast?.any Char.isAlphanum = false)
    (hback : back.head?.any Char.isAlphanum = false) (h : NumberWord.all[n]? = some (word.map Char.toLower)) :
    NumberWord.replaceIn (scanned (front ++ (word ++ back))) =
      NumberWord.replaceIn (scanned (front ++ (Nat.toDigits 10 n ++ back))) := by
  have hmem : word.map Char.toLower ∈ NumberWord.all := List.mem_of_getElem? h
  obtain ⟨hwreads, hwdigits, -⟩ := reads_numberWord h
  have hall : ∀ w ∈ NumberWord.all, w ≠ [] ∧ w.all isWordChar = true ∧ w.head? ≠ some 'b' := by decide
  obtain ⟨hwne, hwword, hwby⟩ := hall _ hmem
  have hnum := Numeral.isNumeral_toDigits n
  have hdigit : ∀ c ∈ Nat.toDigits 10 n, c.isDigit = true := ((Numeral.isNumeral_iff _).1 hnum).2
  have hlower : (Nat.toDigits 10 n).map Char.toLower = Nat.toDigits 10 n :=
    map_toLower_eq (fun c hc => (isDigit_spec (hdigit c hc)).2.1)
  have hdreads := reads_numeral hnum
  have hdby : (Nat.toDigits 10 n).head? ≠ some 'b' := by
    intro hhead
    exact absurd (hdigit 'b' (List.mem_of_mem_head? hhead)) (by decide)
  rw [replaceIn_scanned_piece hf hb hfront hback hwreads (by simpa using hwne) (List.all_eq_true.1 hwword) hwby,
    replaceIn_scanned_piece hf hb hfront hback (by rwa [hlower]) Nat.toDigits_ne_nil
      (by rw [hlower]; intro c hc; simp [isWordChar, hdigit c hc]) (by rwa [hlower]),
    hlower, hwdigits, NumberWord.inDigits_of_none (NumberWord.value?_of_isNumeral hnum)]

/-! ## Plain forms -/

theorem toPlain_eq_scanned {t : Text} (h : ∀ c ∈ t, isWritten c = true) :
    t.toPlain = Text.trim (NumberWord.replaceIn (scanned t)) := by
  rw [Text.toPlain_eq, Text.trim_replaceIn, strip_eq_scanned (fun c hc => toNat_lt_of_isWritten (h c hc))]

/-- Separators at the ends do not change the plain form. -/
theorem toPlain_pad {front t back : Text} (hf : front.all isSeparator = true) (hb : back.all isSeparator = true)
    (ht : ∀ c ∈ front ++ (t ++ back), isWritten c = true) : (front ++ (t ++ back)).toPlain = t.toPlain := by
  have hsep := List.all_eq_true.1 hf
  have hsep' := List.all_eq_true.1 hb
  have hback : scanned (t ++ back) = scanned t ++ back := by
    have hlow : ∀ c ∈ back.map Char.toLower, c.isLower = false := by
      intro c hc
      obtain ⟨d, hd, rfl⟩ := List.mem_map.1 hc
      rw [(isSeparator_spec (hsep' d hd)).2.1, (isSeparator_spec (hsep' d hd)).2.2]
    have hself := scanned_separators_append hsep' []
    rw [List.append_nil, scanned_nil, List.append_nil] at hself
    rw [scanned_append (Phrase.not_crosses_of_not_isLower hlow _), hself]
  have ht' : ∀ c ∈ t, isWritten c = true := by
    simp only [List.forall_mem_append] at ht
    exact ht.2.1
  rw [Text.toPlain_eq, Text.toPlain_eq, strip_eq_scanned (fun c hc => toNat_lt_of_isWritten (ht c hc)),
    strip_eq_scanned (fun c hc => toNat_lt_of_isWritten (ht' c hc)), scanned_separators_append hsep, hback,
    Text.trim_pad hsep hsep']

/-- One step does not change the plain form. -/
theorem Step.toPlain_eq {t t' : Text} (h : Step t t') (ht : ∀ c ∈ t, isWritten c = true) :
    t.toPlain = t'.toPlain := by
  have ht' := h.all_isWritten ht
  cases h with
  | letter front back _ _ hlower =>
    rw [toPlain_eq_scanned ht, toPlain_eq_scanned ht']
    simp only [scanned, List.map_append, List.map_cons, hlower]
  | phrase front back hp hpiece =>
    rw [toPlain_eq_scanned ht, toPlain_eq_scanned ht', scanned_phrase hp hpiece]
  | numberWord front back h hfront hback =>
    rw [toPlain_eq_scanned ht, toPlain_eq_scanned ht']
    simp only [List.forall_mem_append] at ht
    rw [replaceIn_scanned_numberWord ht.1 ht.2.2 hfront hback h]
  | pad front _ back hf hb => exact (toPlain_pad hf hb ht').symm
  | strip front _ back hf hb => exact toPlain_pad hf hb ht

theorem toPlain_of_steps {t t' : Text} (h : Relation.ReflTransGen Step t t') (ht : ∀ c ∈ t, isWritten c = true) :
    (∀ c ∈ t', isWritten c = true) ∧ t.toPlain = t'.toPlain := by
  induction h with
  | refl => exact ⟨ht, rfl⟩
  | tail _ hstep ih =>
    obtain ⟨hwritten, heq⟩ := ih
    exact ⟨hstep.all_isWritten hwritten, heq.trans (hstep.toPlain_eq hwritten)⟩

/-- Respelled in any number of steps, a text has the same plain form. So it has the
same program, value, faults and records, and an evaluator in any state, over any
cache, keeps the two under one key. -/
theorem respelled_alike {t t' : Text} (ht : t.all isWritten = true) (h : Relation.ReflTransGen Step t t') :
    t.toPlain = t'.toPlain ∧ Program.compile t = Program.compile t' ∧ evaluate t = evaluate t' ∧
      ∀ (cache : Cache Text Program) (e : Evaluator cache),
        e.compile t = e.compile t' ∧ e.evaluate t = e.evaluate t' := by
  obtain ⟨-, hplain⟩ := toPlain_of_steps h (List.all_eq_true.1 ht)
  have hcompile : Program.compile t = Program.compile t' := by
    unfold Program.compile
    rw [hplain]
  have hevaluator : ∀ (cache : Cache Text Program) (e : Evaluator cache), e.compile t = e.compile t' := by
    intro cache e
    unfold Evaluator.compile
    rw [hplain]
  refine ⟨hplain, hcompile, ?_, ?_⟩
  · unfold evaluate
    rw [hcompile]
  · intro cache e
    refine ⟨hevaluator cache e, ?_⟩
    unfold Evaluator.evaluate
    rw [hevaluator cache e]

/-- A step of each kind, one of them inside a longer word; the plain form is `6 sur+ one2`. -/
theorem respelled_alike_surplus :
    " Six surPLUS one2".toList.all isWritten = true ∧
      Relation.ReflTransGen Step " Six surPLUS one2".toList "6 sur+ One2\t".toList ∧
      Text.toPlain " Six surPLUS one2".toList = Text.toPlain "6 sur+ One2\t".toList := by
  have hwritten : " Six surPLUS one2".toList.all isWritten = true := by decide
  have hstrip : Step " Six surPLUS one2".toList "Six surPLUS one2".toList :=
    .strip [' '] "Six surPLUS one2".toList [] rfl rfl
  have hnumber : Step "Six surPLUS one2".toList "6 surPLUS one2".toList :=
    @Step.numberWord [] " surPLUS one2".toList "Six".toList 6 rfl rfl rfl
  have hphrase : Step "6 surPLUS one2".toList "6 sur+ one2".toList :=
    @Step.phrase "6 sur".toList " one2".toList Phrase.plus "PLUS".toList (by decide) rfl
  have hletter : Step "6 sur+ one2".toList "6 sur+ One2".toList :=
    @Step.letter "6 sur+ ".toList "ne2".toList 'o' 'O' rfl rfl rfl
  have hpad : Step "6 sur+ One2".toList "6 sur+ One2\t".toList :=
    .pad [] "6 sur+ One2".toList ['\t'] rfl rfl
  have hsteps : Relation.ReflTransGen Step " Six surPLUS one2".toList "6 sur+ One2\t".toList :=
    (((Relation.ReflTransGen.single hstrip).tail hnumber |>.tail hphrase).tail hletter).tail hpad
  exact ⟨hwritten, hsteps, (respelled_alike hwritten hsteps).1⟩

end Respelling

end Reckon
