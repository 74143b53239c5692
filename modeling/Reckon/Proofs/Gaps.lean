import Mathlib.Data.List.Forall2
import Reckon.Proofs.Compilation
/-!
# Words without meaning and the gaps between lexemes

In a text that is taken as plain, a run of letters says nothing and a run of
separators only keeps lexemes apart. So any of these runs may be replaced by any
separators: the text compiles to the same code, or fails for the same reason.

The text falls apart between its runs, and a run that is replaced leaves a
separator behind, so what stood on both sides of it does not grow together.
-/

namespace Reckon

namespace Gaps

/-- Do two neighbouring characters belong to one run, of letters, digits or separators? -/
def kindred (a b : Char) : Bool := Lexeme.joined a b || (isSeparator a && isSeparator b)

/-- The maximal runs of letters, of digits and of separators; any other character
is a run of its own. -/
def runs (t : Text) : List Text := t.splitBy kindred

/-- A run may stay, and separators may take the place of a word or of separators. -/
inductive Refill : Text → Text → Prop where
  | keep (run : Text) : Refill run run
  | word {run gap : Text} : Lexeme.isWord run = true → gap ≠ [] → gap.all isSeparator = true → Refill run gap
  | gap {run gap : Text} : run.all isSeparator = true → gap ≠ [] → gap.all isSeparator = true → Refill run gap

/-- The second text is the first one with separators for some of its words, and
other separators for some of its separators. -/
def Refills (s s' : Text) : Prop := ∃ pieces, List.Forall₂ Refill (runs s) pieces ∧ pieces.flatten = s'

/-! ## Lexemes with a meaning -/

/-- The lexemes of a text that are no words. -/
def meaning (t : Text) : List Lexeme := (Lexeme.cut t).filter fun l => !l.isWord

theorem meaning_append {t u : Text} (h : Lexeme.Unjoined t u) : meaning (t ++ u) = meaning t ++ meaning u := by
  unfold meaning
  rw [Lexeme.cut_append h, List.filter_append]

theorem meaning_of_isWord {word : Text} (h : Lexeme.isWord word = true) : meaning word = [] := by
  unfold meaning
  rw [Lexeme.cut_lexeme (.inr (.inl h))]
  simp [h]

theorem meaning_of_separators {gap : Text} (h : gap.all isSeparator = true) : meaning gap = [] := by
  have hcut := Lexeme.cut_separators_append (List.all_eq_true.1 h) []
  rw [List.append_nil] at hcut
  unfold meaning
  rw [hcut]
  rfl

/-- Words write no tokens. -/
theorem filterMap_meaning (t : Text) : (meaning t).filterMap Lexeme.token? = (Lexeme.cut t).filterMap Lexeme.token? := by
  unfold meaning
  rw [List.filterMap_filter]
  apply List.filterMap_congr
  intro l _
  cases hw : l.isWord with
  | true => simp [Lexeme.token?_of_isWord hw]
  | false => simp

/-- Words are never out of range. -/
theorem allowed_meaning_iff (t : Text) :
    (∀ l ∈ meaning t, Lexeme.Allowed l) ↔ ∀ l ∈ Lexeme.cut t, Lexeme.Allowed l := by
  constructor
  · intro h l hl hn
    exact h l (List.mem_filter.2 ⟨hl, by simp [Lexeme.not_isWord_of_isNumeral hn]⟩) hn
  · intro h l hl
    exact h l (List.mem_filter.1 hl).1

/-! ## Runs that are replaced -/

theorem Refill.meaning_eq {run piece : Text} (h : Refill run piece) : meaning run = meaning piece := by
  cases h with
  | keep => rfl
  | word hw _ hg => rw [meaning_of_isWord hw, meaning_of_separators hg]
  | gap hr _ hg => rw [meaning_of_separators hr, meaning_of_separators hg]

theorem all_isPlain_of_isWord {word : Text} (h : Lexeme.isWord word = true) : word.all isPlain = true := by
  rw [List.all_eq_true]
  intro c hc
  exact isPlain_of_isWordChar (by simp [isWordChar, ((Lexeme.isWord_iff word).1 h).2 c hc])

theorem all_isPlain_of_separators {gap : Text} (h : gap.all isSeparator = true) : gap.all isPlain = true := by
  rw [List.all_eq_true]
  intro c hc
  exact isPlain_of_isSeparator (List.all_eq_true.1 h c hc)

theorem Refill.all_isPlain {run piece : Text} (h : Refill run piece) : run.all isPlain = piece.all isPlain := by
  cases h with
  | keep => rfl
  | word hw _ hg => rw [all_isPlain_of_isWord hw, all_isPlain_of_separators hg]
  | gap hr _ hg => rw [all_isPlain_of_separators hr, all_isPlain_of_separators hg]

/-- A run stays, or separators stand in its place. -/
theorem Refill.same_or_separators {run piece : Text} (h : Refill run piece) :
    piece = run ∨ piece ≠ [] ∧ ∀ c ∈ piece, isSeparator c = true := by
  cases h with
  | keep => exact .inl rfl
  | word _ hne hg | gap _ hne hg => exact .inr ⟨hne, List.all_eq_true.1 hg⟩

/-- Runs that follow each other end and start with characters that are not kindred. -/
def Border (run next : Text) : Prop :=
  ∃ (hr : run ≠ []) (hn : next ≠ []), kindred (run.getLast hr) (next.head hn) = false

theorem not_joined_of_not_kindred {a b : Char} (h : kindred a b = false) : Lexeme.joined a b = false := by
  unfold kindred at h
  exact (Bool.or_eq_false_iff.1 h).1

/-- A run is not joined with what follows it, whether the runs that follow are
replaced or not. -/
theorem not_joined_flatten {run : Text} {rest pieces : List Text} (hb : (run :: rest).IsChain Border)
    (h : List.Forall₂ Refill rest pieces) :
    ∀ a ∈ run.getLast?, ∀ b ∈ pieces.flatten.head?, Lexeme.joined a b = false := by
  intro a ha b hb'
  cases h with
  | nil => cases hb'
  | @cons next piece rest pieces hnext _ =>
    obtain ⟨hr, hn, hkind⟩ := (List.isChain_cons_cons.1 hb).1
    rw [List.flatten_cons] at hb'
    rcases hnext.same_or_separators with rfl | ⟨hne, hsep⟩
    · rw [List.head?_append_of_ne_nil _ hn, List.head?_eq_some_head hn, Option.mem_some_iff] at hb'
      rw [List.getLast?_eq_getLast_of_ne_nil hr, Option.mem_some_iff] at ha
      rw [← ha, ← hb']
      exact not_joined_of_not_kindred hkind
    · rw [List.head?_append_of_ne_nil _ hne] at hb'
      exact (Lexeme.not_joined_of_isSeparator (hsep b (List.mem_of_mem_head? hb')) a).2

theorem refl_refill (rest : List Text) : List.Forall₂ Refill rest rest :=
  List.forall₂_same.2 fun run _ => .keep run

theorem meaning_flatten {rest pieces : List Text} (h : List.Forall₂ Refill rest pieces) (hb : rest.IsChain Border) :
    meaning rest.flatten = meaning pieces.flatten := by
  induction h with
  | nil => rfl
  | @cons run piece rest pieces hrun hrest ih =>
    have hbefore := not_joined_flatten hb (refl_refill rest)
    -- The piece ends as the run does, or with a separator.
    have hafter : ∀ a ∈ piece.getLast?, ∀ b ∈ pieces.flatten.head?, Lexeme.joined a b = false := by
      rcases hrun.same_or_separators with rfl | ⟨-, hsep⟩
      · exact not_joined_flatten hb hrest
      · intro a ha b _
        exact (Lexeme.not_joined_of_isSeparator (hsep a (List.mem_of_mem_getLast? ha)) b).1
    rw [List.flatten_cons, List.flatten_cons, meaning_append hbefore, meaning_append hafter, hrun.meaning_eq,
      ih hb.tail]

theorem all_isPlain_flatten {rest pieces : List Text} (h : List.Forall₂ Refill rest pieces) :
    rest.flatten.all isPlain = pieces.flatten.all isPlain := by
  induction h with
  | nil => rfl
  | cons hrun _ ih => rw [List.flatten_cons, List.flatten_cons, List.all_append, List.all_append, hrun.all_isPlain, ih]

/-- What is kept when runs are replaced. -/
theorem Refills.meaning_eq {s s' : Text} (h : Refills s s') :
    meaning s = meaning s' ∧ s.all isPlain = s'.all isPlain := by
  obtain ⟨pieces, hpieces, rfl⟩ := h
  have hflat : (runs s).flatten = s := List.flatten_splitBy kindred s
  have hmeaning := meaning_flatten hpieces (List.isChain_getLast_head_splitBy kindred s)
  have hplain := all_isPlain_flatten hpieces
  rw [hflat] at hmeaning hplain
  exact ⟨hmeaning, hplain⟩

/-! ## Programs -/

/-- What a text compiles to is a matter of its lexemes with a meaning. -/
theorem map_code_eq {s s' : Text} (hmeaning : meaning s = meaning s') (hplain : s.all isPlain = s'.all isPlain) :
    (Program.compilePlain s).value.map Program.code = (Program.compilePlain s').value.map Program.code := by
  have hchars : (∀ c ∈ s, isPlain c = true) ↔ ∀ c ∈ s', isPlain c = true := by
    rw [← List.all_eq_true, ← List.all_eq_true, hplain]
  have hallowed : (∀ l ∈ Lexeme.cut s, Lexeme.Allowed l) ↔ ∀ l ∈ Lexeme.cut s', Lexeme.Allowed l := by
    rw [← allowed_meaning_iff, ← allowed_meaning_iff, hmeaning]
  by_cases hp : ∀ c ∈ s, isPlain c = true
  · by_cases ha : ∀ l ∈ Lexeme.cut s, Lexeme.Allowed l
    · rw [Program.compilePlain_of_allowed hp ha, Program.compilePlain_of_allowed (hchars.1 hp) (hallowed.1 ha),
        ← filterMap_meaning, ← filterMap_meaning, hmeaning]
      cases Code.ofTokens ((meaning s').filterMap Lexeme.token?) <;> rfl
    · rw [Program.compilePlain_of_not_allowed hp ha,
        Program.compilePlain_of_not_allowed (hchars.1 hp) (fun h => ha (hallowed.2 h))]
  · rw [Program.compilePlain_of_not_plain hp, Program.compilePlain_of_not_plain (fun h => hp (hchars.2 h))]

/-- Words and the kind and number of separators do not matter to a text that is taken
as plain: with other separators for any of them it fails for the same reason, or it
has the same code and with that the same result. -/
theorem compilePlain_refills {s s' : Text} (h : Refills s s') :
    (∃ r, (Program.compilePlain s).value = .error r ∧ (Program.compilePlain s').value = .error r) ∨
      ∃ p p', (Program.compilePlain s).value = .ok p ∧ (Program.compilePlain s').value = .ok p' ∧
        p.code = p'.code ∧ p.run = p'.run := by
  obtain ⟨hmeaning, hplain⟩ := h.meaning_eq
  have hcode := map_code_eq hmeaning hplain
  cases hs : (Program.compilePlain s).value with
  | error r =>
    rw [hs] at hcode
    cases hs' : (Program.compilePlain s').value with
    | error r' => rw [hs'] at hcode; cases hcode; exact .inl ⟨r, rfl, rfl⟩
    | ok p' => rw [hs'] at hcode; cases hcode
  | ok p =>
    rw [hs] at hcode
    cases hs' : (Program.compilePlain s').value with
    | error r' => rw [hs'] at hcode; cases hcode
    | ok p' =>
      rw [hs'] at hcode
      have hpp : p.code = p'.code := Except.ok.inj hcode
      refine .inr ⟨p, p', rfl, rfl, hpp, ?_⟩
      unfold Program.run
      rw [hpp]

/-- The word between two digits leaves a gap: `2six3` compiles as `2 3` does. -/
theorem compilePlain_refills_between_digits :
    Refills "2six3\t+".toList "2\n 3 +".toList ∧
      ∃ p p', (Program.compilePlain "2six3\t+".toList).value = .ok p ∧
        (Program.compilePlain "2\n 3 +".toList).value = .ok p' ∧ p.code = p'.code ∧ p.run = p'.run := by
  have h : Refills "2six3\t+".toList "2\n 3 +".toList := by
    refine ⟨[['2'], ['\n', ' '], ['3'], [' '], ['+']], ?_, rfl⟩
    have hruns : runs "2six3\t+".toList = [['2'], "six".toList, ['3'], ['\t'], ['+']] := by decide
    rw [hruns]
    exact .cons (.keep _) (.cons (.word rfl (by simp) rfl) (.cons (.keep _)
      (.cons (.gap rfl (by simp) rfl) (.cons (.keep _) .nil))))
  refine ⟨h, ?_⟩
  rcases compilePlain_refills h with ⟨r, hr, -⟩ | hok
  · have hcompiles : (Program.compilePlain "2six3\t+".toList).value =
        .ok ⟨"2six3\t+".toList, [.push 2, .push 3, .apply .add]⟩ := by rfl
    rw [hcompiles] at hr
    cases hr
  · exact hok

end Gaps

end Reckon
