import Mathlib.Data.List.Forall2
import Reckon.Proofs.PlainText
/-!
# The scan for number words

A text has one division into gaps and words, where a word is a maximal run of word
characters. The text with numerals for its number words has the same gaps, and word
for word either the numeral or what was there before. None of its words is a number
word, so to replace once more changes nothing.

The text can be had by a scan from left to right that looks for one word after the
other and never goes back. We show that this scan ends after as many turns as there
are words.
-/

namespace Reckon.NumberWord

/-! ## Gaps and words -/

/-- A gap, which holds no word character, and the word behind it. -/
structure Piece where
  gap : Text
  word : Text

/-- A text starts with the piece and goes on with `rest`, where its word has ended. -/
structure Piece.Before (p : Piece) (rest : Text) : Prop where
  gap : ∀ c ∈ p.gap, isWordChar c = false
  ne_nil : p.word ≠ []
  word : ∀ c ∈ p.word, isWordChar c = true
  rest : ∀ c ∈ rest.head?, isWordChar c = false

/-- The text consists of the pieces and a last gap. Each word has ended where the next
gap starts, so no gap between two words is empty, and words are maximal runs. -/
inductive Parted : Text → List Piece → Text → Prop where
  | last {gap : Text} : (∀ c ∈ gap, isWordChar c = false) → Parted gap [] gap
  | piece {p : Piece} {t last : Text} {pieces : List Piece} :
      p.Before t → Parted t pieces last → Parted (p.gap ++ (p.word ++ t)) (p :: pieces) last

theorem exists_parted (t : Text) : ∃ pieces last, Parted t pieces last := by
  induction t using word_induction with
  | nil => exact ⟨[], [], .last (by simp)⟩
  | mark c t hc ih =>
    obtain ⟨pieces, last, h⟩ := ih
    cases h with
    | last hgap => exact ⟨[], c :: t, .last (List.forall_mem_cons.2 ⟨hc, hgap⟩)⟩
    | @piece p t last pieces hp ht =>
      have hlonger : Piece.Before ⟨c :: p.gap, p.word⟩ t :=
        ⟨List.forall_mem_cons.2 ⟨hc, hp.gap⟩, hp.ne_nil, hp.word, hp.rest⟩
      exact ⟨_, last, .piece hlonger ht⟩
  | word w t hne hw hhead ih =>
    obtain ⟨pieces, last, h⟩ := ih
    have hp : Piece.Before ⟨[], w⟩ t := ⟨by simp, hne, hw, hhead⟩
    exact ⟨_, last, .piece hp h⟩

/-- A run that ends where its class does is the longest front of the text in that class. -/
theorem takeWhile_run (p : Char → Bool) {run rest : Text} (h : ∀ c ∈ run, p c = true)
    (hr : ∀ c ∈ rest.head?, p c = false) :
    (run ++ rest).takeWhile p = run ∧ (run ++ rest).dropWhile p = rest := by
  rw [List.takeWhile_append_of_pos h, List.dropWhile_append_of_pos h]
  cases rest with
  | nil => simp
  | cons c rest => simp [hr c rfl]

theorem run_unique (p : Char → Bool) {run rest run' rest' : Text} (h : ∀ c ∈ run, p c = true)
    (hr : ∀ c ∈ rest.head?, p c = false) (h' : ∀ c ∈ run', p c = true) (hr' : ∀ c ∈ rest'.head?, p c = false)
    (he : run ++ rest = run' ++ rest') : run = run' ∧ rest = rest' := by
  obtain ⟨htake, hdrop⟩ := takeWhile_run p h hr
  obtain ⟨htake', hdrop'⟩ := takeWhile_run p h' hr'
  rw [he] at htake hdrop
  exact ⟨htake.symm.trans htake', hdrop.symm.trans hdrop'⟩

namespace Piece.Before

variable {p : Piece} {t : Text}

theorem head? (h : p.Before t) : ∀ c ∈ (p.word ++ t).head?, isWordChar c = true := by
  intro c hc
  rw [List.head?_append_of_ne_nil _ h.ne_nil] at hc
  exact h.word c (List.mem_of_mem_head? hc)

/-- What starts with a piece is no gap. -/
theorem not_gap (h : p.Before t) : ¬ ∀ c ∈ p.gap ++ (p.word ++ t), isWordChar c = false := by
  intro hgap
  obtain ⟨c, hc⟩ := List.exists_mem_of_ne_nil _ h.ne_nil
  have hword := h.word c hc
  rw [hgap c (by simp [hc])] at hword
  cases hword

theorem unique {p' : Piece} {t' : Text} (h : p.Before t) (h' : p'.Before t')
    (he : p.gap ++ (p.word ++ t) = p'.gap ++ (p'.word ++ t')) : p = p' ∧ t = t' := by
  obtain ⟨hgap, hrest⟩ := run_unique (fun c => !isWordChar c) (by simpa using h.gap) (by simpa using h.head?)
    (by simpa using h'.gap) (by simpa using h'.head?) he
  obtain ⟨hword, ht⟩ := run_unique isWordChar h.word h.rest h'.word h'.rest hrest
  exact ⟨by cases p; cases p'; congr, ht⟩

end Piece.Before

theorem Parted.unique {t last last' : Text} {pieces pieces' : List Piece} (h : Parted t pieces last)
    (h' : Parted t pieces' last') : pieces = pieces' ∧ last = last' := by
  induction h generalizing pieces' with
  | last hgap =>
    cases h' with
    | last => exact ⟨rfl, rfl⟩
    | piece hp _ => exact absurd hgap hp.not_gap
  | @piece p t last pieces hp _ ih =>
    generalize hu : p.gap ++ (p.word ++ t) = u at h'
    cases h' with
    | last hgap => exact absurd (hu ▸ hgap) hp.not_gap
    | piece hp' ht' =>
      obtain ⟨rfl, rfl⟩ := hp.unique hp' hu
      obtain ⟨rfl, rfl⟩ := ih ht'
      exact ⟨rfl, rfl⟩

/-! ## Words in digits -/

/-- What is put for a word: the numeral of its value if it is a number word, and
otherwise the word itself. -/
inductive Becomes : Text → Text → Prop where
  | numeral {n : Nat} {word : Text} : all[n]? = some word → Becomes word (Nat.toDigits 10 n)
  | same {word : Text} : word ∉ all → Becomes word word

theorem becomes_inDigits (word : Text) : Becomes word (inDigits word) := by
  cases hv : value? word with
  | none =>
    rw [inDigits_of_none hv]
    exact .same ((value?_eq_none_iff word).1 hv)
  | some n =>
    rw [inDigits_of_value hv]
    refine .numeral ?_
    obtain ⟨hn, hword, -⟩ := List.idxOf?_eq_some_iff.1 hv
    rw [List.getElem?_eq_getElem hn, hword]

namespace Piece

/-- The piece with its word in digits if that is a number word. -/
def inDigits (p : Piece) : Piece := ⟨p.gap, NumberWord.inDigits p.word⟩

theorem Before.replaceIn_eq {p : Piece} {t : Text} (h : p.Before t) :
    replaceIn (p.gap ++ (p.word ++ t)) = p.inDigits.gap ++ (p.inDigits.word ++ replaceIn t) := by
  rw [replaceIn_breaks_append h.gap, replaceIn_append_word h.ne_nil h.word h.rest]
  rfl

theorem Before.inDigits {p : Piece} {t : Text} (h : p.Before t) : p.inDigits.Before (replaceIn t) where
  gap := h.gap
  ne_nil := (inDigits_word h.ne_nil h.word).1
  word := (inDigits_word h.ne_nil h.word).2
  rest := head?_replaceIn_break h.rest

end Piece

/-- The gaps stay, and the words stay apart. -/
theorem Parted.replaceIn {t last : Text} {pieces : List Piece} (h : Parted t pieces last) :
    Parted (replaceIn t) (pieces.map Piece.inDigits) last := by
  induction h with
  | last hgap =>
    rw [replaceIn_breaks hgap]
    exact .last hgap
  | piece hp _ ih =>
    rw [hp.replaceIn_eq]
    exact .piece hp.inDigits ih

theorem replaceIn_replaceIn (t : Text) : replaceIn (replaceIn t) = replaceIn t :=
  replaceIn_eq_self fun _ hrun => notMem_of_mem_runs_replaceIn hrun

/-! ## From left to right -/

/-- A scan under way: what it has put out, and what it still has to read. -/
structure Scan where
  output : Text
  rest : Text

namespace Scan

/-- A turn looks for the next word. It puts out what stands before it and then the word,
in digits if it is a number word. When there is no word any more, there is no turn. -/
def turn? (s : Scan) : Option Scan := do
  let start ← s.rest.findIdx? isWordChar
  let tail := s.rest.drop start
  let stop := tail.findIdx fun c => !isWordChar c
  return ⟨s.output ++ s.rest.take start ++ inDigits (tail.take stop), tail.drop stop⟩

/-- What the scan has put out at its end, if it comes there in fewer than `n` turns. -/
def run : Nat → Scan → Option Text
  | 0, _ => none
  | n + 1, s =>
    match s.turn? with
    | some s' => run n s'
    | none => some (s.output ++ s.rest)

theorem turn?_gap {gap : Text} (h : ∀ c ∈ gap, isWordChar c = false) (output : Text) :
    turn? ⟨output, gap⟩ = none := by
  have hnone : gap.findIdx? isWordChar = none := List.findIdx?_eq_none_iff.2 h
  simp [turn?, hnone]

theorem turn?_piece {p : Piece} {t : Text} (h : p.Before t) (output : Text) :
    turn? ⟨output, p.gap ++ (p.word ++ t)⟩ = some ⟨output ++ p.gap ++ inDigits p.word, t⟩ := by
  have hstart : (p.gap ++ (p.word ++ t)).findIdx? isWordChar = some p.gap.length := by
    rw [List.findIdx?_append, List.findIdx?_eq_none_iff.2 h.gap, Option.none_or]
    cases hw : p.word with
    | nil => exact absurd hw h.ne_nil
    | cons c word =>
      have hc : isWordChar c = true := h.word c (by simp [hw])
      simp [List.findIdx?_cons, hc]
  obtain ⟨htake, hdrop⟩ := takeWhile_run isWordChar h.word h.rest
  rw [List.takeWhile_eq_take_findIdx_not] at htake
  rw [List.dropWhile_eq_drop_findIdx_not] at hdrop
  simp [turn?, hstart, htake, hdrop]

/-- The scan puts out the text with its number words replaced, in as many turns as the
text has words. -/
theorem run_eq {t last : Text} {pieces : List Piece} (h : Parted t pieces last) (n : Nat) (output : Text) :
    run n ⟨output, t⟩ = if pieces.length < n then some (output ++ replaceIn t) else none := by
  induction h generalizing n output with
  | last hgap =>
    cases n with
    | zero => rfl
    | succ n => simp [run, turn?_gap hgap, replaceIn_breaks hgap]
  | piece hp _ ih =>
    cases n with
    | zero => rfl
    | succ n => simp [run, turn?_piece hp, ih, hp.replaceIn_eq, Piece.inDigits]

end Scan

/-- A text falls into gaps and words in one way. Its number words, and only these, are
replaced by their numerals: the gaps stay, and the words of the result are, one for
one, those numerals and the words that were none. They are no number words, so the
text does not change again. A scan that takes one word after the other ends with this
text, after one turn for each word. -/
theorem replaceIn_exact (t : Text) :
    ∃ (pieces pieces' : List Piece) (last : Text), Parted t pieces last ∧ Parted (replaceIn t) pieces' last ∧
      List.Forall₂ (fun p p' => p'.gap = p.gap ∧ Becomes p.word p'.word) pieces pieces' ∧
      (∀ p' ∈ pieces', p'.word ∉ all) ∧
      (∀ u qs qs' l l', Parted u qs l → Parted u qs' l' → qs = qs' ∧ l = l') ∧
      (∀ n, Scan.run n ⟨[], t⟩ = if pieces.length < n then some (replaceIn t) else none) ∧
      replaceIn (replaceIn t) = replaceIn t := by
  obtain ⟨pieces, last, h⟩ := exists_parted t
  refine ⟨pieces, pieces.map Piece.inDigits, last, h, h.replaceIn, ?_, ?_, fun _ _ _ _ _ => Parted.unique, ?_,
    replaceIn_replaceIn t⟩
  · rw [List.forall₂_map_right_iff, List.forall₂_same]
    exact fun p _ => ⟨rfl, becomes_inDigits p.word⟩
  · intro p' hp'
    obtain ⟨p, -, rfl⟩ := List.mem_map.1 hp'
    exact inDigits_notMem p.word
  · intro n
    exact Scan.run_eq h n []

example : replaceIn "2six (seventeen),SIX six".toList = "2six (17),SIX 6".toList := by decide

end Reckon.NumberWord
