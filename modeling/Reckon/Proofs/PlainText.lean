import Mathlib.Data.List.SplitBy
import Mathlib.Data.List.TakeWhile
import Reckon.Proofs.Phrases
import Reckon.Text.Plain
/-!
# What plain text is made of

A plain form holds plain characters only. The scan for number words never looks
beyond a character that is no word character: a text falls apart there, and each
of its words is read for itself. Trimming takes away separators only, which no
word contains.

What comes before that is a single scan if the text is in ASCII (`scanned`), and this
scan falls apart wherever no phrase crosses from one part to the other.
-/

namespace Reckon

/-! ## Character classes -/

theorem isUpper_iff_toNat {c : Char} : c.isUpper = true ↔ 65 ≤ c.toNat ∧ c.toNat ≤ 90 := by
  show decide ('A'.val ≤ c.val ∧ c.val ≤ 'Z'.val) = true ↔ _
  rw [decide_eq_true_eq, UInt32.le_iff_toNat_le, UInt32.le_iff_toNat_le]
  rfl

theorem isLower_iff_toNat {c : Char} : c.isLower = true ↔ 97 ≤ c.toNat ∧ c.toNat ≤ 122 := by
  show (decide ('a'.val ≤ c.val) && decide (c.val ≤ 'z'.val)) = true ↔ _
  rw [Bool.and_eq_true, decide_eq_true_eq, decide_eq_true_eq, UInt32.le_iff_toNat_le, UInt32.le_iff_toNat_le]
  rfl

theorem isAlpha_eq (c : Char) : c.isAlpha = (c.isUpper || c.isLower) := rfl

theorem isAlpha_of_isLower {c : Char} (h : c.isLower = true) : c.isAlpha = true := by
  rw [isAlpha_eq, h, Bool.or_true]

theorem not_isLower_of_isDigit {c : Char} (h : c.isDigit = true) : c.isLower = false := by
  have hlast : c.toNat ≤ 57 := (Char.isDigit_iff_toNat.1 h).2
  rw [← Bool.not_eq_true, isLower_iff_toNat]
  omega

theorem not_isDigit_of_isLower {c : Char} (h : c.isLower = true) : c.isDigit = false := by
  cases hd : c.isDigit with
  | false => rfl
  | true => rw [not_isLower_of_isDigit hd] at h; cases h

/-- What is checked of each separator holds of all of them. -/
theorem of_isSeparator {p : Char → Bool} (hall : separators.all p = true) {c : Char} (h : isSeparator c = true) :
    p c = true :=
  List.all_eq_true.1 hall c (List.contains_iff_mem.1 h)

/-- What is checked of each symbol holds of all of them. -/
theorem of_isSymbol {p : Char → Bool} (hall : symbols.all p = true) {c : Char} (h : isSymbol c = true) :
    p c = true :=
  List.all_eq_true.1 hall c (List.contains_iff_mem.1 h)

theorem not_isWordChar_of_isSeparator {c : Char} (h : isSeparator c = true) : isWordChar c = false := by
  have hall : separators.all (fun d => !isWordChar d) = true := by decide
  simpa using of_isSeparator hall h

theorem not_isWordChar_of_isSymbol {c : Char} (h : isSymbol c = true) : isWordChar c = false := by
  have hall : symbols.all (fun d => !isWordChar d) = true := by decide
  simpa using of_isSymbol hall h

theorem not_isSeparator_of_isWordChar {c : Char} (h : isWordChar c = true) : isSeparator c = false := by
  cases hs : isSeparator c with
  | false => rfl
  | true => rw [not_isWordChar_of_isSeparator hs] at h; cases h

theorem isPlain_of_isWordChar {c : Char} (h : isWordChar c = true) : isPlain c = true := by
  simp [isPlain, h]

theorem isPlain_of_isSeparator {c : Char} (h : isSeparator c = true) : isPlain c = true := by
  simp [isPlain, h]

theorem isPlain_of_isSymbol {c : Char} (h : isSymbol c = true) : isPlain c = true := by
  simp [isPlain, h]

theorem isSymbol_symbol (op : Operator) : isSymbol op.symbol = true := by
  cases op <;> decide

theorem of_not_isPlain {c : Char} (h : isPlain c = false) :
    isWordChar c = false ∧ isSymbol c = false ∧ isSeparator c = false := by
  simp only [isPlain, Bool.or_eq_false_iff] at h
  exact ⟨h.1.1, h.1.2, h.2⟩

/-! ## Lower case -/

/-- Capital letters are moved, and every other character stays. -/
theorem toNat_toLower (c : Char) :
    c.toLower.toNat = if 65 ≤ c.toNat ∧ c.toNat ≤ 90 then c.toNat + 32 else c.toNat := by
  unfold Char.toLower
  split
  · next h =>
    have hupper : 65 ≤ c.toNat ∧ c.toNat ≤ 90 := isUpper_iff_toNat.1 (decide_eq_true h)
    rw [if_pos hupper]
    show (c.val + 32).toNat = c.toNat + 32
    rw [UInt32.toNat_add, Char.toNat_val]
    exact Nat.mod_eq_of_lt (by simp; omega)
  · next h =>
    have hother : ¬ (65 ≤ c.toNat ∧ c.toNat ≤ 90) := fun hc => h (of_decide_eq_true (isUpper_iff_toNat.2 hc))
    rw [if_neg hother]

theorem toLower_eq_self {c : Char} (h : ¬ c.isUpper = true) : c.toLower = c := by
  rw [isUpper_iff_toNat] at h
  rw [← Char.toNat_inj, toNat_toLower, if_neg h]

theorem toLower_of_isLower {c : Char} (h : c.isLower = true) : c.toLower = c := by
  apply toLower_eq_self
  rw [isLower_iff_toNat] at h
  rw [isUpper_iff_toNat]
  omega

theorem toLower_toLower (c : Char) : c.toLower.toLower = c.toLower := by
  apply toLower_eq_self
  rw [isUpper_iff_toNat, toNat_toLower]
  split <;> omega

theorem isLower_toLower (c : Char) : c.toLower.isLower = c.isAlpha := by
  rw [Bool.eq_iff_iff, isLower_iff_toNat, toNat_toLower, isAlpha_eq, Bool.or_eq_true, isUpper_iff_toNat,
    isLower_iff_toNat]
  split <;> omega

theorem toNat_toLower_lt_iff {c : Char} : c.toLower.toNat < 128 ↔ c.toNat < 128 := by
  rw [toNat_toLower]
  split <;> omega

theorem toNat_lt_of_isAlpha {c : Char} (h : c.isAlpha = true) : c.toNat < 128 := by
  rw [isAlpha_eq, Bool.or_eq_true, isUpper_iff_toNat, isLower_iff_toNat] at h
  omega

theorem isSeparator_spec {c : Char} (h : isSeparator c = true) :
    c.toNat < 128 ∧ c.toLower = c ∧ c.isLower = false := by
  have hall : separators.all (fun d => decide (d.toNat < 128 ∧ d.toLower = d ∧ d.isLower = false)) = true := by decide
  simpa using of_isSeparator hall h

theorem isSymbol_spec {c : Char} (h : isSymbol c = true) :
    c.toNat < 128 ∧ c.toLower = c ∧ c.isLower = false := by
  have hall : symbols.all (fun d => decide (d.toNat < 128 ∧ d.toLower = d ∧ d.isLower = false)) = true := by decide
  simpa using of_isSymbol hall h

theorem isDigit_spec {c : Char} (h : c.isDigit = true) :
    c.toNat < 128 ∧ c.toLower = c ∧ c.isLower = false := by
  have hlast : c.toNat ≤ 57 := (Char.isDigit_iff_toNat.1 h).2
  have hupper : ¬ c.isUpper = true := by
    rw [isUpper_iff_toNat]
    omega
  exact ⟨by omega, toLower_eq_self hupper, not_isLower_of_isDigit h⟩

/-- A plain character stands for itself. -/
theorem isPlain_spec {c : Char} (h : isPlain c = true) : c.toNat < 128 ∧ c.toLower = c := by
  simp only [isPlain, isWordChar, Bool.or_eq_true] at h
  rcases h with ((hl | hd) | hsym) | hsep
  · exact ⟨toNat_lt_of_isAlpha (isAlpha_of_isLower hl), toLower_of_isLower hl⟩
  · exact ⟨(isDigit_spec hd).1, (isDigit_spec hd).2.1⟩
  · exact ⟨(isSymbol_spec hsym).1, (isSymbol_spec hsym).2.1⟩
  · exact ⟨(isSeparator_spec hsep).1, (isSeparator_spec hsep).2.1⟩

theorem map_toLower_eq {t : Text} (h : ∀ c ∈ t, c.toLower = c) : t.map Char.toLower = t :=
  (List.map_congr_left h).trans (List.map_id t)

theorem toNat_lt_of_map_toLower {t : Text} (h : ∀ c ∈ t.map Char.toLower, c.toNat < 128) :
    ∀ c ∈ t, c.toNat < 128 := by
  intro c hc
  exact toNat_toLower_lt_iff.1 (h c.toLower (List.mem_map_of_mem hc))

theorem Text.lowercaseAfter_of_ascii {t : Text} (h : ∀ c ∈ t, c.toNat < 128) (before : Text) :
    lowercaseAfter before t = t.map Char.toLower := by
  induction t generalizing before with
  | nil => rfl
  | cons c t ih =>
    have hc : c.toNat < 128 := h c (by simp)
    have hi : c ≠ 'İ' := by rintro rfl; revert hc; decide
    have hs : c ≠ 'Σ' := by rintro rfl; revert hc; decide
    simp only [lowercaseAfter, hi, hs, if_false, Unicode.lower, hc, if_true,
      ih (fun d hd => h d (by simp [hd]))]
    rfl

theorem Text.lowercase_of_ascii {t : Text} (h : ∀ c ∈ t, c.toNat < 128) : lowercase t = t.map Char.toLower :=
  lowercaseAfter_of_ascii h []

/-! ## Number words -/

/-- A text is cut on both sides of a character that is joined with no other one. -/
theorem splitBy_append_cons_alone {r : Char → Char → Bool} {c : Char} (h : ∀ d, r c d = false ∧ r d c = false)
    (t u : Text) : (t ++ c :: u).splitBy r = t.splitBy r ++ [c] :: u.splitBy r := by
  have hbefore : (t ++ c :: u).splitBy r = t.splitBy r ++ ([c] ++ u).splitBy r := by
    apply List.splitBy_append_cons
    intro d _
    exact (h d).2
  have hafter : ([c] ++ u).splitBy r = [[c]] ++ u.splitBy r := by
    apply List.splitBy_append
    intro d hd e _
    rw [List.getLast?_singleton, Option.mem_some_iff] at hd
    rw [← hd]
    exact (h e).1
  rw [hbefore, hafter]
  rfl

theorem head?_dropWhile {p : Char → Bool} {t : Text} : ∀ c ∈ (t.dropWhile p).head?, p c = false := by
  intro c hc
  have hnot := List.head?_dropWhile_not p t
  rw [Option.mem_def] at hc
  rwa [hc] at hnot

/-- The longest front of a text in a class. -/
theorem exists_run {p : Char → Bool} {c : Char} (hc : p c = true) (t : Text) :
    ∃ run rest, c :: t = run ++ rest ∧ run ≠ [] ∧ (∀ d ∈ run, p d = true) ∧ ∀ d ∈ rest.head?, p d = false := by
  refine ⟨(c :: t).takeWhile p, (c :: t).dropWhile p, List.takeWhile_append_dropWhile.symm, ?_, ?_, head?_dropWhile⟩
  · rw [List.takeWhile_cons_of_pos hc]
    simp
  · exact fun d hd => List.mem_takeWhile_imp hd

namespace NumberWord

theorem value?_eq_none_iff (word : Text) : value? word = none ↔ word ∉ all := by
  unfold value?
  exact List.idxOf?_eq_none_iff

/-- A number word has at least three letters. -/
theorem value?_short {word : Text} (h : word.length < 3) : value? word = none := by
  rw [value?_eq_none_iff]
  intro hm
  have hall : ∀ w ∈ all, 3 ≤ w.length := by decide
  have := hall word hm
  omega

theorem value?_eq_some {word : Text} {n : Nat} (h : all[n]? = some word) : value? word = some n := by
  have hnodup : all.Nodup := by decide
  obtain ⟨hn, rfl⟩ := List.getElem?_eq_some_iff.1 h
  unfold value?
  rw [List.idxOf?_eq_some_iff]
  refine ⟨hn, rfl, ?_⟩
  intro j hj
  have hne := (List.pairwise_iff_getElem.1 hnodup) j n (by omega) hn hj
  simpa using hne

theorem inDigits_of_value {word : Text} {n : Nat} (h : value? word = some n) : inDigits word = Nat.toDigits 10 n := by
  simp only [inDigits, h]

theorem inDigits_of_none {word : Text} (h : value? word = none) : inDigits word = word := by
  simp only [inDigits, h]

theorem inDigits_singleton (c : Char) : inDigits [c] = [c] :=
  inDigits_of_none (value?_short (by simp))

theorem mem_inDigits {run : Text} {c : Char} (h : c ∈ inDigits run) : c ∈ run ∨ c.isDigit = true := by
  unfold inDigits at h
  split at h
  · exact .inr (Nat.isDigit_of_mem_toDigits (by omega) (by omega) h)
  · exact .inl h

theorem mem_replaceIn {t : Text} {c : Char} (h : c ∈ replaceIn t) : c ∈ t ∨ c.isDigit = true := by
  obtain ⟨run, hr, hc⟩ := List.mem_flatMap.1 h
  rcases mem_inDigits hc with hm | hd
  · refine .inl ?_
    rw [← List.flatten_splitBy (fun a b => isWordChar a && isWordChar b) t]
    exact List.mem_flatten.2 ⟨run, hr, hm⟩
  · exact .inr hd

theorem runs_append_break {c : Char} (hc : isWordChar c = false) (t u : Text) :
    runs (t ++ c :: u) = runs t ++ [c] :: runs u :=
  splitBy_append_cons_alone (by simp [hc]) t u

theorem runs_append_word {word rest : Text} (hne : word ≠ []) (hw : ∀ c ∈ word, isWordChar c = true)
    (hr : ∀ c ∈ rest.head?, isWordChar c = false) : runs (word ++ rest) = word :: runs rest := by
  have hchain : word.IsChain fun a b => (isWordChar a && isWordChar b) = true := by
    apply List.Pairwise.isChain
    apply List.pairwise_of_forall_mem_list
    intro a ha b hb
    simp [hw a ha, hw b hb]
  have happ : runs (word ++ rest) = runs word ++ runs rest := by
    apply List.splitBy_append
    intro a _ b hb
    simp [hr b hb]
  have hone : runs word = [word] := List.splitBy_of_isChain hne hchain
  rw [happ, hone]
  rfl

/-- The scan falls apart at a character that is no word character. -/
theorem replaceIn_append_break {c : Char} (hc : isWordChar c = false) (t u : Text) :
    replaceIn (t ++ c :: u) = replaceIn t ++ c :: replaceIn u := by
  unfold replaceIn
  rw [runs_append_break hc, List.flatMap_append, List.flatMap_cons, inDigits_singleton]
  rfl

theorem replaceIn_cons_break {c : Char} (hc : isWordChar c = false) (t : Text) :
    replaceIn (c :: t) = c :: replaceIn t :=
  replaceIn_append_break hc [] t

/-- A text of breaks only stays, and so does what follows it. -/
theorem replaceIn_breaks_append {breaks : Text} (h : ∀ c ∈ breaks, isWordChar c = false) (t : Text) :
    replaceIn (breaks ++ t) = breaks ++ replaceIn t := by
  induction breaks with
  | nil => rfl
  | cons c breaks ih =>
    rw [List.cons_append, replaceIn_cons_break (h c (by simp)), ih (fun d hd => h d (by simp [hd]))]
    rfl

theorem replaceIn_breaks {breaks : Text} (h : ∀ c ∈ breaks, isWordChar c = false) : replaceIn breaks = breaks := by
  have happend := replaceIn_breaks_append h []
  simpa [replaceIn, runs] using happend

theorem replaceIn_append_breaks {breaks : Text} (h : ∀ c ∈ breaks, isWordChar c = false) (t : Text) :
    replaceIn (t ++ breaks) = replaceIn t ++ breaks := by
  cases breaks with
  | nil => simp
  | cons c breaks =>
    rw [List.forall_mem_cons] at h
    rw [replaceIn_append_break h.1, replaceIn_breaks h.2]

/-- A word that ends at a break or at the end of the text is read for itself. -/
theorem replaceIn_append_word {word rest : Text} (hne : word ≠ []) (hw : ∀ c ∈ word, isWordChar c = true)
    (hr : ∀ c ∈ rest.head?, isWordChar c = false) : replaceIn (word ++ rest) = inDigits word ++ replaceIn rest := by
  unfold replaceIn
  rw [runs_append_word hne hw hr, List.flatMap_cons]

/-- A run has digits at its ends, or those characters that it had. -/
theorem ends_inDigits {run : Text} (h : run ≠ []) :
    inDigits run ≠ [] ∧ (inDigits run = run ∨ ∀ c ∈ inDigits run, c.isDigit = true) := by
  unfold inDigits
  split
  · exact ⟨Nat.toDigits_ne_nil, .inr (fun c hc => Nat.isDigit_of_mem_toDigits (by omega) (by omega) hc)⟩
  · exact ⟨h, .inl rfl⟩

theorem inDigits_notMem (run : Text) : inDigits run ∉ all := by
  have hall : ∀ word ∈ all, word.all Char.isLower = true := by decide
  unfold inDigits
  split
  · next n _ =>
    intro hm
    obtain ⟨c, hc⟩ := List.exists_mem_of_ne_nil _ (Nat.toDigits_ne_nil (n := n) (b := 10))
    have hlow := List.all_eq_true.1 (hall _ hm) c hc
    rw [not_isLower_of_isDigit (Nat.isDigit_of_mem_toDigits (by omega) (by omega) hc)] at hlow
    cases hlow
  · next hnone => exact (value?_eq_none_iff run).1 hnone

/-- A text goes on behind a break, or else behind one of its words. -/
theorem word_induction {motive : Text → Prop} (nil : motive [])
    (mark : ∀ c t, isWordChar c = false → motive t → motive (c :: t))
    (word : ∀ w t, w ≠ [] → (∀ c ∈ w, isWordChar c = true) → (∀ c ∈ t.head?, isWordChar c = false) → motive t →
      motive (w ++ t)) (t : Text) : motive t := by
  induction hn : t.length using Nat.strong_induction_on generalizing t with
  | _ n ih =>
    subst hn
    cases t with
    | nil => exact nil
    | cons c t =>
      cases hc : isWordChar c with
      | false => exact mark c t hc (ih _ (by simp) t rfl)
      | true =>
        obtain ⟨w, rest, he, hne, hw, hrest⟩ := exists_run hc t
        have hlen : rest.length < (c :: t).length := by
          have := List.length_pos_iff.2 hne
          rw [he, List.length_append]
          omega
        rw [he]
        exact word w rest hne hw hrest (ih _ hlen rest rfl)

/-- A word becomes a word. -/
theorem inDigits_word {word : Text} (hne : word ≠ []) (hw : ∀ c ∈ word, isWordChar c = true) :
    inDigits word ≠ [] ∧ ∀ c ∈ inDigits word, isWordChar c = true := by
  obtain ⟨hne', hends⟩ := ends_inDigits hne
  refine ⟨hne', ?_⟩
  intro c hc
  rcases hends with he | hd
  · rw [he] at hc
    exact hw c hc
  · simp [isWordChar, hd c hc]

/-- A text that starts with a break, or is empty, goes on to do so. -/
theorem head?_replaceIn_break {t : Text} (h : ∀ c ∈ t.head?, isWordChar c = false) :
    ∀ c ∈ (replaceIn t).head?, isWordChar c = false := by
  cases t with
  | nil => simp [replaceIn, runs]
  | cons d t =>
    rw [replaceIn_cons_break (h d rfl)]
    exact h

/-- The runs are replaced one by one and stay apart. -/
theorem runs_replaceIn (t : Text) : runs (replaceIn t) = (runs t).map inDigits := by
  induction t using word_induction with
  | nil => rfl
  | mark c t hc ih =>
    have hruns : ∀ u, runs (c :: u) = [c] :: runs u := runs_append_break hc []
    rw [replaceIn_cons_break hc, hruns, hruns, ih, List.map_cons, inDigits_singleton]
  | word w t hne hw hhead ih =>
    obtain ⟨hne', hw'⟩ := inDigits_word hne hw
    rw [replaceIn_append_word hne hw hhead, runs_append_word hne' hw' (head?_replaceIn_break hhead),
      runs_append_word hne hw hhead, ih, List.map_cons]

theorem notMem_of_mem_runs_replaceIn {t run : Text} (h : run ∈ runs (replaceIn t)) : run ∉ all := by
  rw [runs_replaceIn] at h
  obtain ⟨run', -, rfl⟩ := List.mem_map.1 h
  exact inDigits_notMem run'

/-- A text none of whose runs is a number word stays. -/
theorem replaceIn_eq_self {t : Text} (h : ∀ run ∈ runs t, run ∉ all) : replaceIn t = t := by
  have hself : ∀ run ∈ runs t, inDigits run = run := by
    intro run hrun
    exact inDigits_of_none ((value?_eq_none_iff run).2 (h run hrun))
  unfold replaceIn
  rw [List.flatMap_def, List.map_congr_left hself, List.map_id']
  exact List.flatten_splitBy _ t

/-! ### What digits cannot make -/

/-- A part of a run's digits that holds no digit is empty. -/
theorem eq_nil_of_digits {s digits : Text} (hs : ∀ c ∈ s, c.isDigit = false) (hd : ∀ c ∈ digits, c.isDigit = true)
    (h : s ⊆ digits) : s = [] := by
  rw [List.eq_nil_iff_forall_not_mem]
  intro c hc
  have hdigit := hd c (h hc)
  rw [hs c hc] at hdigit
  cases hdigit

theorem prefix_of_prefix_flatMap {texts : List Text} (hne : [] ∉ texts) {s : Text}
    (hs : ∀ c ∈ s, c.isDigit = false) (h : s <+: texts.flatMap inDigits) : s <+: texts.flatten := by
  induction texts generalizing s with
  | nil => exact h
  | cons run texts ih =>
    rw [List.mem_cons, not_or] at hne
    obtain ⟨hne', hends⟩ := ends_inDigits (Ne.symm hne.1)
    rw [List.flatMap_cons] at h
    rw [List.flatten_cons]
    rcases hends with he | hd
    · rw [he] at h
      rcases List.prefix_or_prefix_of_prefix h (List.prefix_append run _) with hrun | ⟨s', rfl⟩
      · exact hrun.trans (List.prefix_append run _)
      · rw [List.prefix_append_right_inj] at h ⊢
        exact ih hne.2 (fun c hc => hs c (List.mem_append_right run hc)) h
    · rcases List.prefix_or_prefix_of_prefix h (List.prefix_append (inDigits run) _) with hrun | hrun
      · rw [eq_nil_of_digits hs hd hrun.subset]
        exact List.nil_prefix
      · -- The digits of the run would be part of `s`.
        have hnone : ∀ c ∈ inDigits run, c.isDigit = false := fun c hc => hs c (hrun.subset hc)
        exact absurd (eq_nil_of_digits hnone hd (List.Subset.refl _)) hne'

theorem infix_of_infix_flatMap {texts : List Text} (hne : [] ∉ texts) {s : Text}
    (hs : ∀ c ∈ s, c.isDigit = false) (h : s <:+: texts.flatMap inDigits) : s <:+: texts.flatten := by
  induction texts generalizing s with
  | nil => exact h
  | cons run texts ih =>
    rw [List.mem_cons, not_or] at hne
    obtain ⟨-, hends⟩ := ends_inDigits (Ne.symm hne.1)
    rw [List.flatMap_cons, List.infix_append_iff] at h
    rw [List.flatten_cons]
    rcases h with hrun | hrest | ⟨u, v, rfl, hu, hv⟩
    · rcases hends with he | hd
      · rw [he] at hrun
        exact hrun.trans (List.prefix_append run _).isInfix
      · rw [eq_nil_of_digits hs hd hrun.subset]
        exact List.nil_infix
    · exact (ih hne.2 hs hrest).trans (List.suffix_append run _).isInfix
    · rw [List.forall_mem_append] at hs
      have hv' := prefix_of_prefix_flatMap hne.2 hs.2 hv
      rcases hends with he | hd
      · rw [he] at hu
        exact List.infix_append_iff.2 (.inr (.inr ⟨u, v, rfl, hu, hv'⟩))
      · rw [eq_nil_of_digits hs.1 hd hu.subset]
        exact hv'.isInfix.trans (List.suffix_append run _).isInfix

/-- Numerals bring nothing into a text but digits: what holds no digit was there before. -/
theorem infix_of_infix_replaceIn {s t : Text} (hs : ∀ c ∈ s, c.isDigit = false) (h : s <:+: replaceIn t) :
    s <:+: t := by
  have hpart := infix_of_infix_flatMap (List.nil_notMem_splitBy _ t) hs h
  rwa [List.flatten_splitBy] at hpart

/-! ### The ends of a text -/

theorem head?_replaceIn {t : Text} {c : Char} (h : c ∈ (replaceIn t).head?) : c ∈ t.head? ∨ c.isDigit = true := by
  have hflat : (runs t).flatten = t := List.flatten_splitBy _ t
  have hne : [] ∉ runs t := List.nil_notMem_splitBy _ t
  unfold replaceIn at h
  cases hr : runs t with
  | nil => rw [hr] at h; cases h
  | cons run rest =>
    rw [hr] at h hflat hne
    have hrun : run ≠ [] := fun e => hne (by simp [e])
    obtain ⟨hdigits, hends⟩ := ends_inDigits hrun
    rw [List.flatMap_cons, List.head?_append_of_ne_nil _ hdigits] at h
    rcases hends with he | hd
    · rw [he] at h
      rw [← hflat, List.flatten_cons, List.head?_append_of_ne_nil _ hrun]
      exact .inl h
    · exact .inr (hd c (List.mem_of_mem_head? h))

theorem getLast?_replaceIn {t : Text} {c : Char} (h : c ∈ (replaceIn t).getLast?) :
    c ∈ t.getLast? ∨ c.isDigit = true := by
  have hflat : (runs t).flatten = t := List.flatten_splitBy _ t
  have hne : [] ∉ runs t := List.nil_notMem_splitBy _ t
  unfold replaceIn at h
  rcases List.eq_nil_or_concat (runs t) with hr | ⟨rest, run, hr⟩
  · rw [hr] at h; cases h
  · rw [hr, List.concat_eq_append] at h hflat hne
    have hrun : run ≠ [] := fun e => hne (by simp [e])
    obtain ⟨hdigits, hends⟩ := ends_inDigits hrun
    rw [List.flatMap_append, List.flatMap_singleton, List.getLast?_append_of_ne_nil _ hdigits] at h
    rcases hends with he | hd
    · rw [he] at h
      rw [← hflat, List.flatten_append, List.flatten_singleton, List.getLast?_append_of_ne_nil _ hrun]
      exact .inl h
    · exact .inr (hd c (List.mem_of_mem_getLast? h))

end NumberWord

/-! ## Both ends -/

namespace Text

theorem trimStart_spec (t : Text) : ∃ front, (∀ c ∈ front, isSeparator c = true) ∧ t = front ++ trimStart t :=
  ⟨t.takeWhile isSeparator, fun _ hc => List.mem_takeWhile_imp hc, List.takeWhile_append_dropWhile.symm⟩

theorem trimEnd_spec (t : Text) : ∃ back, (∀ c ∈ back, isSeparator c = true) ∧ t = trimEnd t ++ back := by
  obtain ⟨front, hf, he⟩ := trimStart_spec t.reverse
  refine ⟨front.reverse, ?_, ?_⟩
  · intro c hc
    exact hf c (List.mem_reverse.1 hc)
  · unfold trimEnd
    rw [← List.reverse_append, ← he, List.reverse_reverse]

/-- Trimming takes separators away from both ends and nothing else. -/
theorem trim_spec (t : Text) : ∃ front back, (∀ c ∈ front, isSeparator c = true) ∧
    (∀ c ∈ back, isSeparator c = true) ∧ t = front ++ (trim t ++ back) := by
  obtain ⟨front, hf, hs⟩ := trimStart_spec t
  obtain ⟨back, hb, he⟩ := trimEnd_spec (trimStart t)
  exact ⟨front, back, hf, hb, by rw [trim, ← he, ← hs]⟩

theorem trim_isInfix (t : Text) : trim t <:+: t := by
  obtain ⟨front, back, -, -, he⟩ := trim_spec t
  exact ⟨front, back, by rw [List.append_assoc, ← he]⟩

/-- Number words are found in the trimmed text as they are in the whole one. -/
theorem replaceIn_trim (t : Text) : ∃ front back, (∀ c ∈ front, isSeparator c = true) ∧
    (∀ c ∈ back, isSeparator c = true) ∧
    NumberWord.replaceIn t = front ++ (NumberWord.replaceIn (trim t) ++ back) := by
  obtain ⟨front, back, hf, hb, he⟩ := trim_spec t
  refine ⟨front, back, hf, hb, ?_⟩
  conv_lhs => rw [he]
  rw [NumberWord.replaceIn_breaks_append (fun c hc => not_isWordChar_of_isSeparator (hf c hc)),
    NumberWord.replaceIn_append_breaks (fun c hc => not_isWordChar_of_isSeparator (hb c hc))]

theorem trimStart_eq_self {t : Text} (h : ∀ c ∈ t.head?, isSeparator c = false) : trimStart t = t := by
  cases t with
  | nil => rfl
  | cons c t => exact List.dropWhile_cons_of_neg (by simp [h c rfl])

theorem trimStart_append {front : Text} (h : ∀ c ∈ front, isSeparator c = true) (t : Text) :
    trimStart (front ++ t) = trimStart t :=
  List.dropWhile_append_of_pos h

/-- Trimming takes away what is around a text that has no separators at its own ends. -/
theorem trim_eq {front t back : Text} (hf : ∀ c ∈ front, isSeparator c = true)
    (hb : ∀ c ∈ back, isSeparator c = true) (hhead : ∀ c ∈ t.head?, isSeparator c = false)
    (hlast : ∀ c ∈ t.getLast?, isSeparator c = false) : trim (front ++ (t ++ back)) = t := by
  have hreverse : ∀ c ∈ back.reverse, isSeparator c = true := fun c hc => hb c (List.mem_reverse.1 hc)
  have hend : trimEnd (t ++ back) = t := by
    unfold trimEnd
    rw [List.reverse_append, trimStart_append hreverse, trimStart_eq_self (by rwa [List.head?_reverse]),
      List.reverse_reverse]
  unfold trim
  rw [trimStart_append hf]
  cases t with
  | nil =>
    have hnil : trimStart back = [] := by
      have := trimStart_append hb []
      rwa [List.append_nil] at this
    rw [List.nil_append, hnil]
    rfl
  | cons c t => rw [@trimStart_eq_self (c :: t ++ back) hhead, hend]

theorem trim_eq_self {t : Text} (hhead : ∀ c ∈ t.head?, isSeparator c = false)
    (hlast : ∀ c ∈ t.getLast?, isSeparator c = false) : trim t = t := by
  have h : trim ([] ++ (t ++ [])) = t := trim_eq (by simp) (by simp) hhead hlast
  rwa [List.nil_append, List.append_nil] at h

theorem head?_trimStart {t : Text} : ∀ c ∈ (trimStart t).head?, isSeparator c = false :=
  head?_dropWhile

theorem getLast?_trim {t : Text} : ∀ c ∈ (trim t).getLast?, isSeparator c = false := by
  unfold trim trimEnd
  rw [List.getLast?_reverse]
  exact head?_trimStart

theorem head?_trim {t : Text} : ∀ c ∈ (trim t).head?, isSeparator c = false := by
  obtain ⟨back, -, he⟩ := trimEnd_spec (trimStart t)
  intro c hc
  apply head?_trimStart (t := t) c
  rw [he, List.head?_append]
  show (trim t).head?.or _ = _
  rw [hc]
  rfl

/-- Separators around a text are trimmed away with its own. -/
theorem trim_pad {front back : Text} (hf : ∀ c ∈ front, isSeparator c = true) (hb : ∀ c ∈ back, isSeparator c = true)
    (t : Text) : trim (front ++ (t ++ back)) = trim t := by
  obtain ⟨front', back', hf', hb', he⟩ := trim_spec t
  have hall : front ++ (t ++ back) = (front ++ front') ++ (trim t ++ (back' ++ back)) := by
    conv_lhs => rw [he]
    simp only [List.append_assoc]
  rw [hall]
  apply trim_eq _ _ head?_trim getLast?_trim
  · intro c hc
    exact (List.mem_append.1 hc).elim (hf c) (hf' c)
  · intro c hc
    exact (List.mem_append.1 hc).elim (hb' c) (hb c)

/-- Trimming before the number words are replaced or after it is the same. -/
theorem trim_replaceIn (t : Text) : trim (NumberWord.replaceIn t) = NumberWord.replaceIn (trim t) := by
  have hdigit : ∀ c : Char, c.isDigit = true → isSeparator c = false :=
    fun c hc => not_isSeparator_of_isWordChar (by simp [isWordChar, hc])
  obtain ⟨front, back, hf, hb, he⟩ := replaceIn_trim t
  rw [he]
  apply trim_eq hf hb
  · intro c hc
    rcases NumberWord.head?_replaceIn hc with h | h
    · exact head?_trim c h
    · exact hdigit c h
  · intro c hc
    rcases NumberWord.getLast?_replaceIn hc with h | h
    · exact getLast?_trim c h
    · exact hdigit c h

/-! ## The plain form -/

/-- The plain form before it is trimmed: phrases replaced, other characters left out. -/
def strip (t : Text) : Text := (Phrase.replaceEach Phrase.all (lowercase t)).filter isPlain

theorem toPlain_eq (t : Text) : toPlain t = NumberWord.replaceIn (trim (strip t)) := rfl

theorem isPlain_of_mem_toPlain {t : Text} {c : Char} (h : c ∈ toPlain t) : isPlain c = true := by
  rw [toPlain_eq] at h
  rcases NumberWord.mem_replaceIn h with hm | hd
  · exact (List.mem_filter.1 ((trim_isInfix _).subset hm)).2
  · exact isPlain_of_isWordChar (by simp [isWordChar, hd])

/-! ### Scanned once -/

/-- The text in lower case with its phrases replaced and other characters left
out, which for ASCII text is the plain form before it is trimmed. -/
def scanned (t : Text) : Text := (Phrase.replaceTogether Phrase.all (t.map Char.toLower)).filter isPlain

theorem strip_eq_scanned {t : Text} (h : ∀ c ∈ t, c.toNat < 128) : strip t = scanned t := by
  unfold strip scanned
  rw [lowercase_of_ascii h, Phrase.replaceEach_eq_replaceTogether Phrase.separate_all]

@[simp] theorem scanned_nil : scanned [] = [] := rfl

theorem scanned_cons_separator {c : Char} (h : isSeparator c = true) (t : Text) :
    scanned (c :: t) = c :: scanned t := by
  obtain ⟨-, hl, hn⟩ := isSeparator_spec h
  unfold scanned
  rw [List.map_cons, hl, Phrase.replaceTogether_cons_of_not_isLower hn,
    List.filter_cons_of_pos (isPlain_of_isSeparator h)]

theorem scanned_separators_append {front : Text} (h : ∀ c ∈ front, isSeparator c = true) (t : Text) :
    scanned (front ++ t) = front ++ scanned t := by
  induction front with
  | nil => rfl
  | cons c front ih =>
    rw [List.cons_append, scanned_cons_separator (h c (by simp)), ih (fun d hd => h d (by simp [hd]))]
    rfl

theorem scanned_append {front rest : Text} (h : ¬ Phrase.Crosses (front.map Char.toLower) (rest.map Char.toLower)) :
    scanned (front ++ rest) = scanned front ++ scanned rest := by
  unfold scanned
  rw [List.map_append, Phrase.replaceTogether_append h, List.filter_append]

end Text

end Reckon
