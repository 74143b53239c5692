import Reckon.Peg
import Reckon.Proofs.Lexemes
/-!
# The one way to cut a text

A text is cut into lexemes if these stand in it one after the other, with only
separators around them, and none of them is a part of a longer run. We show that
plain text can be cut in exactly one way, which is the one that `split` finds, and
that other text cannot be cut at all.

The lexical grammar, matched as a parsing expression, finds the same lexemes and
fails on the same texts. The proof follows the cuts of the longest plain front of
the text: each step of them is a step of the grammar's repetition.
-/

namespace Reckon

namespace Lexeme

/-! ## Cuts of a text -/

/-- The lexeme is no part of a longer run: no digit is beside a numeral, and no
letter is beside a word. -/
def Maximal (before lexeme after : Text) : Prop :=
  (Numeral.isNumeral lexeme = true →
    (∀ c ∈ before.getLast?, c.isDigit = false) ∧ ∀ c ∈ after.head?, c.isDigit = false) ∧
  (isWord lexeme = true → (∀ c ∈ before.getLast?, c.isLower = false) ∧ ∀ c ∈ after.head?, c.isLower = false)

/-- The text, which stands behind `before`, is cut into lexemes. -/
inductive Cuts : Text → Text → List Lexeme → Prop where
  | nil (before : Text) : Cuts before [] []
  | separator {before t : Text} {c : Char} {lexemes : List Lexeme} :
      isSeparator c = true → Cuts (before ++ [c]) t lexemes → Cuts before (c :: t) lexemes
  | lexeme {before t : Text} {l : Lexeme} {lexemes : List Lexeme} :
      Shaped l → Maximal before l t → Cuts (before ++ l) t lexemes → Cuts before (l ++ t) (l :: lexemes)

/-! ## Borders -/

theorem Unjoined.append {l u : Text} (h : Unjoined l u) (hne : l ≠ []) (t : Text) : Unjoined (t ++ l) u := by
  intro a ha
  rw [List.getLast?_append_of_ne_nil _ hne] at ha
  exact h a ha

/-- A character of a class is joined with those of its class. -/
def IsClass (p : Char → Bool) : Prop := ∀ c, p c = true → ∀ d, joined c d = p d ∧ joined d c = p d

theorem isClass_isDigit : IsClass Char.isDigit := by
  intro c hc d
  simp [joined, hc, not_isLower_of_isDigit hc]

theorem isClass_isLower : IsClass Char.isLower := by
  intro c hc d
  simp [joined, hc, not_isDigit_of_isLower hc]

theorem IsClass.unjoined_iff {p : Char → Bool} (hp : IsClass p) {l : Text} (hne : l ≠ [])
    (hl : ∀ c ∈ l, p c = true) (t : Text) :
    (Unjoined t l ↔ ∀ c ∈ t.getLast?, p c = false) ∧ (Unjoined l t ↔ ∀ c ∈ t.head?, p c = false) := by
  refine ⟨⟨?_, ?_⟩, ⟨?_, ?_⟩⟩
  · intro h c hc
    rw [← (hp (l.head hne) (hl _ (List.head_mem hne)) c).2]
    exact h c hc _ (List.head_mem_head? hne)
  · intro h a ha b hb
    rw [(hp b (hl b (List.mem_of_mem_head? hb)) a).2]
    exact h a ha
  · intro h c hc
    rw [← (hp (l.getLast hne) (hl _ (List.getLast_mem hne)) c).1]
    exact h _ (List.getLast_mem_getLast? hne) c hc
  · intro h a ha b hb
    rw [(hp a (hl a (List.mem_of_mem_getLast? ha)) b).1]
    exact h b hb

/-- A lexeme is maximal exactly if it is joined with nothing on either side. -/
theorem maximal_iff {l : Lexeme} (h : Shaped l) (before after : Text) :
    Maximal before l after ↔ Unjoined before l ∧ Unjoined l after := by
  unfold Maximal
  rcases h with hn | hw | ⟨c, hc, rfl⟩
  · have hw := not_isWord_of_isNumeral hn
    obtain ⟨hne, hl⟩ := (Numeral.isNumeral_iff l).1 hn
    rw [(isClass_isDigit.unjoined_iff hne hl before).1, (isClass_isDigit.unjoined_iff hne hl after).2]
    simp only [hn, hw, forall_const, Bool.false_eq_true, false_implies, and_true]
  · obtain ⟨hne, hl⟩ := (isWord_iff l).1 hw
    rw [(isClass_isLower.unjoined_iff hne hl before).1, (isClass_isLower.unjoined_iff hne hl after).2]
    simp only [not_isNumeral_of_isWord hw, hw, forall_const, Bool.false_eq_true, false_implies, true_and]
  · have hall : symbols.all (fun d => !Numeral.isNumeral [d] && !isWord [d]) = true := by decide
    have hkind := of_isSymbol hall hc
    rw [Bool.and_eq_true, Bool.not_eq_true', Bool.not_eq_true'] at hkind
    have hbreak := not_isWordChar_of_isSymbol hc
    have hbefore : Unjoined before [c] := unjoined_of_head (by simp [hbreak]) before
    have hafter : Unjoined [c] after := unjoined_of_last (by simp [hbreak]) after
    simp only [hkind.1, hkind.2, hbefore, hafter, Bool.false_eq_true, false_implies, and_self]

/-! ## One cut at most -/

theorem Shaped.isPlain {l : Lexeme} (h : Shaped l) : ∀ c ∈ l, isPlain c = true := by
  intro c hc
  rcases h.cases with ⟨-, hd⟩ | ⟨-, hl⟩ | ⟨d, hd, rfl⟩
  · exact isPlain_of_isWordChar (by simp [isWordChar, hd c hc])
  · exact isPlain_of_isWordChar (by simp [isWordChar, hl c hc])
  · rw [List.mem_singleton.1 hc]
    exact isPlain_of_isSymbol hd

/-- Whoever cuts a text cuts it as `cut` does. -/
theorem Cuts.eq_cut {before t : Text} {lexemes : List Lexeme} (h : Cuts before t lexemes) :
    (∀ c ∈ t, isPlain c = true) ∧ cut t = lexemes := by
  induction h with
  | nil => exact ⟨by simp, rfl⟩
  | separator hc _ ih =>
    rw [cut_cons_separator hc, List.forall_mem_cons]
    exact ⟨⟨isPlain_of_isSeparator hc, ih.1⟩, ih.2⟩
  | lexeme hs hm _ ih =>
    have hafter := ((maximal_iff hs _ _).1 hm).2
    rw [cut_append hafter, cut_lexeme hs, ih.2, List.forall_mem_append]
    exact ⟨⟨hs.isPlain, ih.1⟩, rfl⟩

/-- Lexemes put together are the text without its separators. -/
theorem Cuts.flatten_eq {before t : Text} {lexemes : List Lexeme} (h : Cuts before t lexemes) :
    lexemes.flatten = t.filter fun c => !isSeparator c := by
  induction h with
  | nil => rfl
  | separator hc _ ih => rw [List.filter_cons_of_neg (by simp [hc]), ih]
  | @lexeme _ _ l _ hs _ _ ih =>
    have hl : l.filter (fun c => !isSeparator c) = l := by
      rw [List.filter_eq_self]
      intro c hc
      simp [hs.not_isSeparator c hc]
    rw [List.flatten_cons, List.filter_append, hl, ih]

/-! ## One cut at least -/

/-- Plain text that starts with no separator starts with a lexeme. -/
theorem exists_lexeme {c : Char} (hp : isPlain c = true) (hc : isSeparator c = false) (t : Text) :
    ∃ l rest, c :: t = l ++ rest ∧ Shaped l ∧ Unjoined l rest := by
  simp only [isPlain, isWordChar, hc, Bool.or_false, Bool.or_eq_true] at hp
  rcases hp with (hl | hd) | hs
  · obtain ⟨run, rest, he, hne, hrun, hrest⟩ := exists_run hl t
    exact ⟨run, rest, he, .inr (.inl ((isWord_iff run).2 ⟨hne, hrun⟩)),
      (isClass_isLower.unjoined_iff hne hrun rest).2.2 hrest⟩
  · obtain ⟨run, rest, he, hne, hrun, hrest⟩ := exists_run hd t
    exact ⟨run, rest, he, .inl ((Numeral.isNumeral_iff run).2 ⟨hne, hrun⟩),
      (isClass_isDigit.unjoined_iff hne hrun rest).2.2 hrest⟩
  · have hbreak := not_isWordChar_of_isSymbol hs
    exact ⟨[c], t, rfl, .inr (.inr ⟨c, hs, rfl⟩), unjoined_of_last (by simp [hbreak]) t⟩

theorem exists_cuts {before t : Text} (hp : ∀ c ∈ t, isPlain c = true) (hb : Unjoined before t) :
    ∃ lexemes, Cuts before t lexemes := by
  induction hn : t.length using Nat.strong_induction_on generalizing before t with
  | _ n ih =>
    subst hn
    cases t with
    | nil => exact ⟨[], .nil before⟩
    | cons c t =>
      obtain ⟨hpc, hpt⟩ := List.forall_mem_cons.1 hp
      cases hc : isSeparator c with
      | true =>
        have hbreak := not_isWordChar_of_isSeparator hc
        have hbefore : Unjoined (before ++ [c]) t := unjoined_of_last (by simp [hbreak]) t
        obtain ⟨lexemes, h⟩ := ih _ (by simp) hpt hbefore rfl
        exact ⟨lexemes, .separator hc h⟩
      | false =>
        obtain ⟨l, rest, he, hs, hafter⟩ := exists_lexeme hpc hc t
        have hlen : rest.length < (c :: t).length := by
          have := List.length_pos_iff.2 hs.ne_nil
          rw [he, List.length_append]
          omega
        have hrest : ∀ d ∈ rest, isPlain d = true := by
          rw [he, List.forall_mem_append] at hp
          exact hp.2
        have hbefore : Unjoined before l := by
          intro a ha b hb'
          refine hb a ha b ?_
          rw [he, List.head?_append_of_ne_nil _ hs.ne_nil]
          exact hb'
        obtain ⟨lexemes, h⟩ := ih _ hlen hrest (hafter.append hs.ne_nil before) rfl
        rw [he]
        exact ⟨l :: lexemes, .lexeme hs ((maximal_iff hs before rest).2 ⟨hbefore, hafter⟩) h⟩

theorem cuts_cut {t : Text} (hp : ∀ c ∈ t, isPlain c = true) : Cuts [] t (cut t) := by
  have hnil : Unjoined [] t := unjoined_of_last (by simp) t
  obtain ⟨lexemes, h⟩ := exists_cuts hp hnil
  rw [h.eq_cut.2]
  exact h

example : cut "2six3 +".toList = ["2".toList, "six".toList, "3".toList, "+".toList] := by decide

end Lexeme

/-! ## Matching the lexical grammar -/

namespace Peg

/-- An expression can be matched in one way only. -/
theorem Matches.unique {e : Peg} {t : Text} {result result' : Option (List Text × Text)} (h : Matches e t result)
    (h' : Matches e t result') : result = result' := by
  induction h generalizing result' with
  | empty => cases h'; rfl
  | finish => cases h'; rfl
  | not_finish => cases h'; rfl
  | one t hc =>
    cases h' with
    | one => rfl
    | not_one hn => rw [hn _ rfl] at hc; cases hc
  | not_one hn =>
    cases h' with
    | one t hc => rw [hn _ rfl] at hc; cases hc
    | not_one => rfl
  | seq _ _ ih ih' =>
    cases h' with
    | seq hf hs => cases ih hf; cases ih' hs; rfl
    | not_first hf => cases ih hf
    | not_second hf hs => cases ih hf; cases ih' hs
  | not_first _ ih =>
    cases h' with
    | seq hf _ => cases ih hf
    | not_first => rfl
    | not_second => rfl
  | not_second _ _ ih ih' =>
    cases h' with
    | seq hf hs => cases ih hf; cases ih' hs
    | not_first => rfl
    | not_second => rfl
  | left _ ih =>
    cases h' with
    | left hf => exact ih hf
    | right hf _ => cases ih hf
  | right _ _ ih ih' =>
    cases h' with
    | left hf => cases ih hf
    | right _ hs => exact ih' hs
  | stop _ ih =>
    cases h' with
    | stop => rfl
    | again hb _ => cases ih hb
  | again _ _ ih ih' =>
    cases h' with
    | stop hb => cases ih hb
    | again hb hs => cases ih hb; cases ih' hs; rfl
  | token _ he ih =>
    cases h' with
    | token hb he' =>
      cases ih hb
      rw [he, List.append_left_inj] at he'
      rw [he']
    | not_token hb => cases ih hb
  | not_token _ ih =>
    cases h' with
    | token hb _ => cases ih hb
    | not_token => rfl

/-- A repetition takes all characters of its class. -/
theorem matches_star_one {holds : Char → Bool} {front rest : Text} (hf : ∀ c ∈ front, holds c = true)
    (hr : ∀ c ∈ rest.head?, holds c = false) : Matches (star (one holds)) (front ++ rest) (some ([], rest)) := by
  induction front with
  | nil => exact .stop (.not_one hr)
  | cons c front ih =>
    rw [List.forall_mem_cons] at hf
    exact .again (.one (front ++ rest) hf.1) (ih hf.2)

theorem matches_run {holds : Char → Bool} {front rest : Text} (hne : front ≠ []) (hf : ∀ c ∈ front, holds c = true)
    (hr : ∀ c ∈ rest.head?, holds c = false) : Matches (run holds) (front ++ rest) (some ([front], rest)) := by
  cases front with
  | nil => exact absurd rfl hne
  | cons c front =>
    rw [List.forall_mem_cons] at hf
    exact .token (.seq (.one (front ++ rest) hf.1) (matches_star_one hf.2 hr)) rfl

theorem not_matches_run {holds : Char → Bool} {t : Text} (h : ∀ c ∈ t.head?, holds c = false) :
    Matches (run holds) t none :=
  .not_token (.not_first (.not_one h))

/-- At the front of a text the grammar meets the lexeme that stands there. -/
theorem matches_lexeme {l rest : Text} (hs : Lexeme.Shaped l) (hr : Lexeme.Unjoined l rest) :
    Matches lexeme (l ++ rest) (some ([l], rest)) := by
  have hhead : ∀ {p : Char → Bool}, (∀ c ∈ l, p c = false) → ∀ c ∈ (l ++ rest).head?, p c = false := by
    intro p hp c hc
    rw [List.head?_append_of_ne_nil _ hs.ne_nil] at hc
    exact hp c (List.mem_of_mem_head? hc)
  rcases hs.cases with ⟨hne, hd⟩ | ⟨hne, hl⟩ | ⟨c, hc, rfl⟩
  · exact .left (matches_run hne hd ((Lexeme.isClass_isDigit.unjoined_iff hne hd rest).2.1 hr))
  · have hnumeral : ∀ c ∈ l, c.isDigit = false := fun c hc => not_isDigit_of_isLower (hl c hc)
    exact .right (not_matches_run (hhead hnumeral))
      (.left (matches_run hne hl ((Lexeme.isClass_isLower.unjoined_iff hne hl rest).2.1 hr)))
  · have hall : symbols.all (fun d => !d.isDigit && !d.isLower) = true := by decide
    have hkind := of_isSymbol hall hc
    rw [Bool.and_eq_true, Bool.not_eq_true', Bool.not_eq_true'] at hkind
    exact .right (not_matches_run (hhead (by simp [hkind.1])))
      (.right (not_matches_run (hhead (by simp [hkind.2]))) (.token (.one rest hc) rfl))

/-! ### Beyond the plain front -/

section Front
variable {u : Text} (hu : ∀ c ∈ u.head?, isPlain c = false)
include hu

theorem not_matches_lexeme : Matches lexeme u none := by
  have hnone : ∀ c ∈ u.head?, c.isLower = false ∧ c.isDigit = false ∧ isSymbol c = false := by
    intro c hc
    obtain ⟨hword, hsymbol, -⟩ := of_not_isPlain (hu c hc)
    rw [isWordChar, Bool.or_eq_false_iff] at hword
    exact ⟨hword.1, hword.2, hsymbol⟩
  exact .right (not_matches_run fun c hc => (hnone c hc).2.1) (.right (not_matches_run fun c hc => (hnone c hc).1)
    (.not_token (.not_one fun c hc => (hnone c hc).2.2)))

theorem matches_gap {gaps : Text} (hg : ∀ c ∈ gaps, isSeparator c = true) :
    Matches gap (gaps ++ u) (some ([], u)) :=
  matches_star_one hg (fun c hc => (of_not_isPlain (hu c hc)).2.2)

/-- The repetition in the grammar goes along the cuts of a front, whether it has
found a lexeme already or not. It leaves the separators that no lexeme follows. -/
theorem matches_cuts {before front : Text} {lexemes : List Lexeme} (h : Lexeme.Cuts before front lexemes)
    {gaps : Text} (hg : ∀ c ∈ gaps, isSeparator c = true) :
    (∃ back, (∀ c ∈ back, isSeparator c = true) ∧
      Matches (star (seq gap lexeme)) (gaps ++ (front ++ u)) (some (lexemes, back ++ u))) ∧
    ∃ t back, (∀ c ∈ back, isSeparator c = true) ∧ Matches gap (gaps ++ (front ++ u)) (some ([], t)) ∧
      Matches (spacedStar lexeme) t (some (lexemes, back ++ u)) := by
  induction h generalizing gaps with
  | nil =>
    have hgap := matches_gap hu hg
    have hlexeme := not_matches_lexeme hu
    exact ⟨⟨gaps, hg, .stop (.not_second hgap hlexeme)⟩,
      ⟨u, [], by simp, hgap, .right (.not_first hlexeme) (.empty u)⟩⟩
  | @separator before t c lexemes hc _ ih =>
    have hg' : ∀ d ∈ gaps ++ [c], isSeparator d = true := by
      rw [List.forall_mem_append]
      exact ⟨hg, by simp [hc]⟩
    have he : gaps ++ (c :: t ++ u) = gaps ++ [c] ++ (t ++ u) := by simp
    rw [he]
    exact ih hg'
  | @lexeme before t l lexemes hs hm _ ih =>
    have hafter := ((Lexeme.maximal_iff hs before t).1 hm).2
    have hrest : Lexeme.Unjoined l (t ++ u) := by
      cases t with
      | cons d t => exact hafter
      | nil => exact Lexeme.unjoined_of_head (fun c hc => (of_not_isPlain (hu c hc)).1) l
    have hgap : Matches gap (gaps ++ (l ++ (t ++ u))) (some ([], l ++ (t ++ u))) := by
      apply matches_star_one hg
      intro c hc
      rw [List.head?_append_of_ne_nil _ hs.ne_nil] at hc
      exact hs.not_isSeparator c (List.mem_of_mem_head? hc)
    have hlexeme := matches_lexeme hs hrest
    obtain ⟨back, hb, htail⟩ := (@ih [] (by simp)).1
    rw [List.append_assoc]
    exact ⟨⟨back, hb, .again (.seq hgap hlexeme) htail⟩, ⟨_, back, hb, hgap, .left (.seq hlexeme htail)⟩⟩

/-- The grammar goes through to the end of a text exactly if its longest plain front
is all of it. -/
theorem matches_lexemes {front : Text} (hp : ∀ c ∈ front, isPlain c = true) :
    Matches lexemes (front ++ u) (if u = [] then some (Lexeme.cut front, []) else none) := by
  obtain ⟨t, back, hb, hgap, hmany⟩ := (matches_cuts hu (Lexeme.cuts_cut hp) (List.forall_mem_nil _)).2
  have hback := matches_gap hu hb
  cases u with
  | nil =>
    have h := Matches.seq (.empty _) (.seq hgap (.seq hmany (.seq hback .finish)))
    simpa [lexemes, spaced] using h
  | cons c u =>
    exact .not_second (.empty _) (.not_second hgap (.not_second hmany (.not_second hback (.not_finish c u))))

end Front

/-- The grammar finds the lexemes that `split` finds, and fails where that fails. -/
theorem matches_lexemes_iff (t : Text) (result : Option (List Text × Text)) :
    Matches lexemes t result ↔ result = (Lexeme.split t).toOption.map fun lexemes => (lexemes, []) := by
  have h : Matches lexemes t ((Lexeme.split t).toOption.map fun lexemes => (lexemes, [])) := by
    by_cases hp : ∀ c ∈ t, isPlain c = true
    · have hmatch := @matches_lexemes [] (by simp) t hp
      rw [List.append_nil] at hmatch
      rw [Lexeme.split_eq hp]
      exact hmatch
    · have hfront : ∀ c ∈ t.takeWhile isPlain, isPlain c = true := fun c hc => List.mem_takeWhile_imp hc
      have hne : t.dropWhile isPlain ≠ [] := by
        intro hnil
        exact hp (List.dropWhile_eq_nil_iff.1 hnil)
      have hmatch := matches_lexemes (@head?_dropWhile isPlain t) hfront
      rw [List.takeWhile_append_dropWhile, if_neg hne] at hmatch
      rw [Lexeme.split_eq_error hp]
      exact hmatch
  constructor
  · intro h'
    exact h'.unique h
  · rintro rfl
    exact h

end Peg

namespace Lexeme

/-- A text can be cut exactly if all its characters are plain, and otherwise it is an
invalid expression. The lexemes that are found are the only ones into which the text
can be cut, so put together they are the text without its separators. The lexical
grammar finds them too, and nothing else. -/
theorem split_exact (t : Text) :
    ((∃ lexemes, split t = .ok lexemes) ↔ ∀ c ∈ t, isPlain c = true) ∧
      ((¬ ∀ c ∈ t, isPlain c = true) → split t = .error .invalidExpression) ∧
      (∀ lexemes, split t = .ok lexemes ↔ Cuts [] t lexemes) ∧
      (∀ lexemes, split t = .ok lexemes → lexemes.flatten = t.filter fun c => !isSeparator c) ∧
      ∀ result, Peg.Matches Peg.lexemes t result ↔
        result = (split t).toOption.map fun lexemes => (lexemes, []) := by
  have hcuts : ∀ lexemes, split t = .ok lexemes ↔ Cuts [] t lexemes := by
    intro lexemes
    constructor
    · intro h
      by_cases hp : ∀ c ∈ t, isPlain c = true
      · rw [split_eq hp] at h
        cases h
        exact cuts_cut hp
      · rw [split_eq_error hp] at h
        cases h
    · intro h
      obtain ⟨hp, he⟩ := h.eq_cut
      rw [split_eq hp, he]
  refine ⟨⟨?_, ?_⟩, split_eq_error, hcuts, ?_, Peg.matches_lexemes_iff t⟩
  · rintro ⟨lexemes, h⟩
    exact ((hcuts lexemes).1 h).eq_cut.1
  · intro hp
    exact ⟨cut t, split_eq hp⟩
  · intro lexemes h
    exact ((hcuts lexemes).1 h).flatten_eq

end Lexeme

end Reckon
