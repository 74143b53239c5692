import Mathlib.Data.List.Infix
import Reckon.Phrase
/-!
# Phrases one after the other, or all at once

The operator phrases do not overlap each other, and no symbol is a part of one.
We show that replacing them one after the other is then the same as one scan that
replaces whichever phrase it meets. The scan has two rules, and everything about
the replacement of phrases follows from them.
-/

namespace Reckon

namespace Text

/-- A front in which no occurrence starts stays. -/
theorem replaceAll_append_of_free {pattern front t : Text} (c : Char)
    (h : ∀ s, s <:+ front → s ≠ [] → ¬ pattern <+: s ++ t) :
    replaceAll pattern c (front ++ t) = front ++ replaceAll pattern c t := by
  induction front with
  | nil => rfl
  | cons d front ih =>
    have hd : ¬ pattern <+: d :: (front ++ t) := h (d :: front) (List.suffix_refl _) (by simp)
    rw [List.cons_append, replaceAll_cons c hd, ih (fun s hs => h s (hs.trans (List.suffix_cons d front)))]
    rfl

/-- Replacing puts only `c` into a text, so what starts the result and holds no
`c` starts the text. -/
theorem prefix_of_prefix_replaceAll {pattern s t : Text} {c : Char} (hp : pattern ≠ []) (hc : c ∉ s)
    (h : s <+: replaceAll pattern c t) : s <+: t := by
  induction t generalizing s with
  | nil => exact h
  | cons d t ih =>
    by_cases hd : pattern <+: d :: t
    · obtain ⟨rest, hrest⟩ := hd
      rw [← hrest, replaceAll_append c rest hp] at h
      rcases List.prefix_cons_iff.1 h with rfl | ⟨s', rfl, -⟩
      · exact List.nil_prefix
      · exact absurd (List.mem_cons_self ..) hc
    · rw [replaceAll_cons c hd] at h
      rcases List.prefix_cons_iff.1 h with rfl | ⟨s', rfl, hs'⟩
      · exact List.nil_prefix
      · exact List.cons_prefix_cons.2 ⟨rfl, ih (fun hm => hc (List.mem_cons_of_mem d hm)) hs'⟩

end Text

namespace Phrase

/-- Phrases that cannot disturb each other: none overlaps another one, and none
contains the symbol of one. -/
structure Separate (phrases : List Phrase) : Prop where
  nodup : phrases.Nodup
  ne_nil : ∀ p ∈ phrases, p.words ≠ []
  symbol_notMem : ∀ p ∈ phrases, ∀ q ∈ phrases, p.operator.symbol ∉ q.words
  apart : ∀ p ∈ phrases, ∀ q ∈ phrases, p ≠ q → ∀ s ∈ q.words.tails, s ≠ [] → ¬ s <+: p.words ∧ ¬ p.words <+: s

theorem separate_all : Separate all where
  nodup := by decide
  ne_nil := by decide
  symbol_notMem := by decide
  apart := by decide

theorem Separate.tail {p : Phrase} {phrases : List Phrase} (h : Separate (p :: phrases)) : Separate phrases where
  nodup := (List.nodup_cons.1 h.nodup).2
  ne_nil q hq := h.ne_nil q (List.mem_cons_of_mem p hq)
  symbol_notMem q hq r hr := h.symbol_notMem q (List.mem_cons_of_mem p hq) r (List.mem_cons_of_mem p hr)
  apart q hq r hr := h.apart q (List.mem_cons_of_mem p hq) r (List.mem_cons_of_mem p hr)

/-- No occurrence of `p` starts inside one of `q`. -/
theorem Separate.not_prefix {phrases : List Phrase} (h : Separate phrases) {p q : Phrase} (hp : p ∈ phrases)
    (hq : q ∈ phrases) (hne : p ≠ q) {s t : Text} (hs : s <:+ q.words) (hnil : s ≠ []) : ¬ p.words <+: s ++ t := by
  obtain ⟨h1, h2⟩ := h.apart p hp q hq hne s ((List.mem_tails s q.words).2 hs) hnil
  intro hpre
  rcases List.prefix_or_prefix_of_prefix hpre (List.prefix_append s t) with h' | h'
  · exact h2 h'
  · exact h1 h'

/-! ## The single scan -/

theorem atFront?_eq_none {phrases : List Phrase} {t : Text} (h : ∀ q ∈ phrases, ¬ q.words <+: t) :
    atFront? phrases t = none := by
  unfold atFront?
  rw [List.find?_eq_none]
  intro q hq hpre
  exact h q hq (List.isPrefixOf_iff_prefix.1 hpre)

/-- A text starts with one phrase at most. -/
theorem Separate.atFront?_append {phrases : List Phrase} (h : Separate phrases) {q : Phrase} (hq : q ∈ phrases)
    (t : Text) : atFront? phrases (q.words ++ t) = some q := by
  cases hf : atFront? phrases (q.words ++ t) with
  | none =>
    unfold atFront? at hf
    rw [List.find?_eq_none] at hf
    exact absurd (List.isPrefixOf_iff_prefix.2 (List.prefix_append q.words t)) (hf q hq)
  | some p =>
    unfold atFront? at hf
    have hp : p ∈ phrases := List.mem_of_find?_eq_some hf
    have hpre : p.words <+: q.words ++ t := by simpa using List.find?_some hf
    by_cases hne : p = q
    · rw [hne]
    · exact absurd hpre (h.not_prefix hp hq hne (List.suffix_refl _) (h.ne_nil q hq))

theorem replaceTogether_go_eq (phrases : List Phrase) (n : Nat) (t : Text) :
    replaceTogether.go phrases n t = replaceTogether phrases (t.drop n) := by
  induction t generalizing n with
  | nil => cases n <;> rfl
  | cons c t ih =>
    cases n with
    | zero => rfl
    | succ n => exact ih n

/-- A character that starts no phrase stays. -/
theorem replaceTogether_cons {phrases : List Phrase} {c : Char} {t : Text}
    (h : ∀ q ∈ phrases, ¬ q.words <+: c :: t) :
    replaceTogether phrases (c :: t) = c :: replaceTogether phrases t := by
  simp only [replaceTogether, replaceTogether.go, atFront?_eq_none h]

/-- A phrase at the front becomes its symbol. -/
theorem Separate.replaceTogether_append {phrases : List Phrase} (h : Separate phrases) {q : Phrase}
    (hq : q ∈ phrases) (t : Text) :
    replaceTogether phrases (q.words ++ t) = q.operator.symbol :: replaceTogether phrases t := by
  have hfront := h.atFront?_append hq t
  cases hw : q.words with
  | nil => exact absurd hw (h.ne_nil q hq)
  | cons c words =>
    rw [hw, List.cons_append] at hfront
    rw [List.cons_append]
    simp only [replaceTogether, replaceTogether.go, hfront]
    rw [replaceTogether_go_eq, hw]
    simp [replaceTogether]

/-- A front in which no phrase starts stays. -/
theorem replaceTogether_append_of_free {phrases : List Phrase} {front t : Text}
    (h : ∀ q ∈ phrases, ∀ s, s <:+ front → s ≠ [] → ¬ q.words <+: s ++ t) :
    replaceTogether phrases (front ++ t) = front ++ replaceTogether phrases t := by
  induction front with
  | nil => rfl
  | cons d front ih =>
    have hd : ∀ q ∈ phrases, ¬ q.words <+: d :: (front ++ t) :=
      fun q hq => h q hq (d :: front) (List.suffix_refl _) (by simp)
    rw [List.cons_append, replaceTogether_cons hd,
      ih (fun q hq s hs => h q hq s (hs.trans (List.suffix_cons d front)))]
    rfl

/-- The scan goes on behind a phrase, or else behind one character. What it meets
is covered by these two steps. -/
theorem scan_induction {phrases : List Phrase} (hne : ∀ q ∈ phrases, q.words ≠ []) {motive : Text → Prop}
    (nil : motive []) (phrase : ∀ q ∈ phrases, ∀ t, motive t → motive (q.words ++ t))
    (other : ∀ c t, (∀ q ∈ phrases, ¬ q.words <+: c :: t) → motive t → motive (c :: t)) (t : Text) : motive t := by
  induction hn : t.length using Nat.strong_induction_on generalizing t with
  | _ n ih =>
    subst hn
    by_cases hfront : ∃ q ∈ phrases, q.words <+: t
    · obtain ⟨q, hq, u, rfl⟩ := hfront
      have hlen : u.length < (q.words ++ u).length := by
        have := List.length_pos_iff.2 (hne q hq)
        simp only [List.length_append]
        omega
      exact phrase q hq u (ih _ hlen u rfl)
    · cases t with
      | nil => exact nil
      | cons c t => exact other c t (fun q hq hpre => hfront ⟨q, hq, hpre⟩) (ih _ (by simp) t rfl)

/-! ## What the scan leaves -/

/-- Where no phrase is, the scan changes nothing. -/
theorem replaceTogether_eq_self {phrases : List Phrase} {t : Text} (h : ∀ q ∈ phrases, ¬ q.words <:+: t) :
    replaceTogether phrases t = t := by
  induction t with
  | nil => rfl
  | cons c t ih =>
    rw [replaceTogether_cons (fun q hq hpre => h q hq hpre.isInfix),
      ih (fun q hq hpart => h q hq (hpart.trans (List.suffix_cons c t).isInfix))]

/-- The scan puts only symbols into a text. -/
theorem Separate.mem_replaceTogether {phrases : List Phrase} (h : Separate phrases) {t : Text} {c : Char}
    (hc : c ∈ replaceTogether phrases t) : c ∈ t ∨ ∃ q ∈ phrases, c = q.operator.symbol := by
  induction t using scan_induction h.ne_nil with
  | nil => exact .inl hc
  | phrase q hq t ih =>
    rw [h.replaceTogether_append hq] at hc
    rcases List.mem_cons.1 hc with rfl | hc
    · exact .inr ⟨q, hq, rfl⟩
    · exact (ih hc).imp_left (List.mem_append_right q.words)
  | other d t hnone ih =>
    rw [replaceTogether_cons hnone] at hc
    rcases List.mem_cons.1 hc with rfl | hc
    · exact .inl (by simp)
    · exact (ih hc).imp_left (List.mem_cons_of_mem d)

/-- What starts the result and holds no symbol starts the text. -/
theorem Separate.prefix_of_prefix_replaceTogether {phrases : List Phrase} (h : Separate phrases) {s t : Text}
    (hs : ∀ q ∈ phrases, q.operator.symbol ∉ s) (hpre : s <+: replaceTogether phrases t) : s <+: t := by
  induction t using scan_induction h.ne_nil generalizing s with
  | nil => exact hpre
  | phrase q hq t ih =>
    rw [h.replaceTogether_append hq] at hpre
    rcases List.prefix_cons_iff.1 hpre with rfl | ⟨s', rfl, -⟩
    · exact List.nil_prefix
    · exact absurd (List.mem_cons_self ..) (hs q hq)
  | other d t hnone ih =>
    rw [replaceTogether_cons hnone] at hpre
    rcases List.prefix_cons_iff.1 hpre with rfl | ⟨s', rfl, hs'⟩
    · exact List.nil_prefix
    · exact List.cons_prefix_cons.2 ⟨rfl, ih (fun q hq hm => hs q hq (List.mem_cons_of_mem d hm)) hs'⟩

/-- No phrase is left, and none comes about by what is put in. -/
theorem Separate.not_infix_replaceTogether {phrases : List Phrase} (h : Separate phrases) {p : Phrase}
    (hp : p ∈ phrases) (t : Text) : ¬ p.words <:+: replaceTogether phrases t := by
  have hsymbol : ∀ q ∈ phrases, q.operator.symbol ∉ p.words := fun q hq => h.symbol_notMem q hq p hp
  induction t using scan_induction h.ne_nil with
  | nil => exact fun hpart => h.ne_nil p hp (List.infix_nil.1 hpart)
  | phrase q hq t ih =>
    rw [h.replaceTogether_append hq]
    intro hpart
    rcases List.infix_cons_iff.1 hpart with hpre | hpart
    · rcases List.prefix_cons_iff.1 hpre with hnil | ⟨words, hw, -⟩
      · exact h.ne_nil p hp hnil
      · exact hsymbol q hq (by rw [hw]; exact List.mem_cons_self ..)
    · exact ih hpart
  | other d t hnone ih =>
    intro hpart
    rw [replaceTogether_cons hnone] at hpart
    rcases List.infix_cons_iff.1 hpart with hpre | hpart
    · rw [← replaceTogether_cons hnone] at hpre
      exact hnone p hp (h.prefix_of_prefix_replaceTogether hsymbol hpre)
    · exact ih hpart

/-! ## Fronts that hold no phrase -/

/-- The words that the operator phrases start with. -/
def keys : List Text := ["multiplied", "divided", "plus", "minus"].map String.toList

theorem exists_key {p : Phrase} (hp : p ∈ all) :
    ∃ key ∈ keys, key <+: p.words ∧ ∀ c ∈ key, c.isLower = true := by
  have hall : ∀ p ∈ all, ∃ key ∈ keys, key <+: p.words ∧ key.all Char.isLower = true := by decide
  obtain ⟨key, hkey, hpre, hlow⟩ := hall p hp
  exact ⟨key, hkey, hpre, List.all_eq_true.1 hlow⟩

/-- Letters that start a text start its front, if the front ends at another character. -/
theorem prefix_front_of_letters {key front rest : Text} (hk : ∀ c ∈ key, c.isLower = true)
    (hr : ∀ c ∈ rest.head?, c.isLower = false) (h : key <+: front ++ rest) : key <+: front := by
  induction front generalizing key with
  | nil =>
    cases rest with
    | nil => exact h
    | cons d rest =>
      rcases List.prefix_cons_iff.1 h with rfl | ⟨key', rfl, -⟩
      · exact List.nil_prefix
      · have hd := hk d (by simp)
        rw [hr d rfl] at hd
        cases hd
  | cons d front ih =>
    rcases List.prefix_cons_iff.1 h with rfl | ⟨key', rfl, h'⟩
    · exact List.nil_prefix
    · exact List.cons_prefix_cons.2 ⟨rfl, ih (fun c hc => hk c (by simp [hc])) h'⟩

/-- A front that holds none of the phrases' first words stays, if it does not end
within a word. -/
theorem replaceTogether_append_of_keyless {front rest : Text} (h : ∀ key ∈ keys, ¬ key <:+: front)
    (hr : ∀ c ∈ rest.head?, c.isLower = false) :
    replaceTogether all (front ++ rest) = front ++ replaceTogether all rest := by
  apply replaceTogether_append_of_free
  intro q hq s hs _ hpre
  -- A phrase that starts in the front has its first word there, since no letter follows.
  obtain ⟨key, hkey, hkq, hlow⟩ := exists_key hq
  have hks : key <+: s := prefix_front_of_letters hlow hr (hkq.trans hpre)
  exact h key hkey (hks.isInfix.trans hs.isInfix)

theorem keyless_of_not_isLower {t : Text} (h : ∀ c ∈ t, c.isLower = false) :
    ∀ key ∈ keys, ¬ key <:+: t := by
  intro key hkey hpart
  have hall : ∀ key ∈ keys, key.any Char.isLower = true := by decide
  obtain ⟨c, hc, hlow⟩ := List.any_eq_true.1 (hall key hkey)
  rw [h c (hpart.subset hc)] at hlow
  cases hlow

theorem replaceTogether_cons_of_not_isLower {c : Char} (hc : c.isLower = false) (t : Text) :
    replaceTogether all (c :: t) = c :: replaceTogether all t := by
  apply replaceTogether_cons
  intro q hq hpre
  have hfirst : ∀ q ∈ all, q.words.head?.all Char.isLower = true := by decide
  rcases List.prefix_cons_iff.1 hpre with hnil | ⟨words, hw, -⟩
  · exact separate_all.ne_nil q hq hnil
  · have hd := hfirst q hq
    rw [hw, List.head?_cons, Option.all_some, hc] at hd
    cases hd

/-- Characters that are no letters stay, and the scan goes on behind them. -/
theorem replaceTogether_append_of_not_isLower {front : Text} (h : ∀ c ∈ front, c.isLower = false) (t : Text) :
    replaceTogether all (front ++ t) = front ++ replaceTogether all t := by
  induction front with
  | nil => rfl
  | cons c front ih =>
    rw [List.cons_append, replaceTogether_cons_of_not_isLower (h c (by simp)), ih (fun d hd => h d (by simp [hd]))]
    rfl

/-! ## Borders that no phrase crosses -/

/-- A phrase crosses the border between two texts: it starts before it and ends behind it. -/
def Crosses (front rest : Text) : Prop :=
  ∃ q ∈ all, ∃ s u, q.words = s ++ u ∧ s ≠ [] ∧ u ≠ [] ∧ s <:+ front ∧ u <+: rest

/-- The scan falls apart at a border that no phrase crosses. -/
theorem replaceTogether_append {front rest : Text} (h : ¬ Crosses front rest) :
    replaceTogether all (front ++ rest) = replaceTogether all front ++ replaceTogether all rest := by
  induction front using scan_induction separate_all.ne_nil with
  | nil => rfl
  | phrase q hq u ih =>
    have hu : ¬ Crosses u rest := by
      rintro ⟨p, hp, s, v, he, hs, hv, hsu, hvr⟩
      exact h ⟨p, hp, s, v, he, hs, hv, hsu.trans (List.suffix_append q.words u), hvr⟩
    rw [List.append_assoc, separate_all.replaceTogether_append hq, separate_all.replaceTogether_append hq, ih hu]
    rfl
  | other d front hnone ih =>
    have hlonger : ∀ q ∈ all, ¬ q.words <+: d :: (front ++ rest) := by
      intro q hq hpre
      rw [← List.cons_append] at hpre
      rcases List.prefix_or_prefix_of_prefix hpre (List.prefix_append (d :: front) rest) with h' | ⟨u, hu⟩
      · exact hnone q hq h'
      · -- The phrase is longer than the front, so it crosses the border.
        have hne : u ≠ [] := by
          rintro rfl
          rw [List.append_nil] at hu
          exact hnone q hq (hu ▸ List.prefix_refl _)
        rw [← hu, List.prefix_append_right_inj] at hpre
        exact h ⟨q, hq, d :: front, u, hu.symm, by simp, hne, List.suffix_refl _, hpre⟩
    have hd : ¬ Crosses front rest := by
      rintro ⟨p, hp, s, v, he, hs, hv, hsu, hvr⟩
      exact h ⟨p, hp, s, v, he, hs, hv, hsu.trans (List.suffix_cons d front), hvr⟩
    rw [List.cons_append, replaceTogether_cons hlonger, replaceTogether_cons hnone, ih hd]
    rfl

/-- No phrase reaches into another occurrence of a phrase. -/
theorem not_crosses_words {p : Phrase} (hp : p ∈ all) (front rest : Text) : ¬ Crosses front (p.words ++ rest) := by
  have hall : ∀ q ∈ all, ∀ p ∈ all, ∀ u ∈ q.words.tail.tails, u ≠ [] → ¬ u <+: p.words ∧ ¬ p.words <+: u := by
    decide
  rintro ⟨q, hq, s, u, he, hs, hu, -, hpre⟩
  have htail : u ∈ q.words.tail.tails := by
    rw [he, List.mem_tails, List.tail_append_of_ne_nil hs]
    exact List.suffix_append s.tail u
  obtain ⟨h1, h2⟩ := hall q hq p hp u htail hu
  rcases List.prefix_or_prefix_of_prefix hpre (List.prefix_append p.words rest) with h | h
  · exact h1 h
  · exact h2 h

theorem not_crosses_symbol {p : Phrase} (hp : p ∈ all) (front rest : Text) :
    ¬ Crosses front (p.operator.symbol :: rest) := by
  rintro ⟨q, hq, s, u, he, -, hu, -, hpre⟩
  rcases List.prefix_cons_iff.1 hpre with rfl | ⟨u', rfl, -⟩
  · exact hu rfl
  · exact separate_all.symbol_notMem p hp q hq (by rw [he]; simp)

/-- A phrase ends with a letter, so it does not end in a text without letters. -/
theorem not_crosses_of_not_isLower {rest : Text} (h : ∀ c ∈ rest, c.isLower = false) (front : Text) :
    ¬ Crosses front rest := by
  have hall : ∀ q ∈ all, q.words.getLast?.all Char.isLower = true := by decide
  rintro ⟨q, hq, s, u, he, -, hu, -, hpre⟩
  have hlast := hall q hq
  rw [he, List.getLast?_append_of_ne_nil _ hu, List.getLast?_eq_getLast_of_ne_nil hu, Option.all_some,
    h _ (hpre.subset (List.getLast_mem hu))] at hlast
  cases hlast

/-- Behind a character that is no letter a phrase can only go on with `by`. -/
theorem head?_of_crosses {front rest : Text} (h : Crosses front rest)
    (hf : ∀ c ∈ front.getLast?, c.isLower = false) : rest.head? = some 'b' := by
  have hall : ∀ q ∈ all, ∀ s ∈ q.words.inits, s ≠ [] → s.getLast?.all Char.isLower = false →
      s = q.words ∨ (q.words.drop s.length).head? = some 'b' := by decide
  obtain ⟨q, hq, s, u, he, hs, hu, ⟨front', rfl⟩, ⟨rest', rfl⟩⟩ := h
  rw [List.getLast?_append_of_ne_nil _ hs, List.getLast?_eq_getLast_of_ne_nil hs] at hf
  have hlast : s.getLast?.all Char.isLower = false := by
    rw [List.getLast?_eq_getLast_of_ne_nil hs, Option.all_some]
    exact hf _ rfl
  rcases hall q hq s (by simp [he]) hs hlast with heq | hb
  · rw [he] at heq
    exact absurd (List.self_eq_append_right.1 heq) hu
  · rw [he, List.drop_left] at hb
    rw [List.head?_append_of_ne_nil _ hu, hb]

/-! ## One phrase after the other -/

/-- The scan may replace one of its phrases ahead of the others. -/
theorem replaceTogether_replaceIn {p : Phrase} {phrases : List Phrase} (h : Separate (p :: phrases)) (t : Text) :
    replaceTogether phrases (p.replaceIn t) = replaceTogether (p :: phrases) t := by
  have hp : p ∈ p :: phrases := List.mem_cons_self ..
  have hsymbol : ∀ q ∈ phrases, ∀ u, ¬ q.words <+: p.operator.symbol :: u := by
    intro q hq u hpre
    rcases List.prefix_cons_iff.1 hpre with hnil | ⟨words, hw, -⟩
    · exact h.tail.ne_nil q hq hnil
    · exact h.symbol_notMem p hp q (List.mem_cons_of_mem p hq) (by rw [hw]; exact List.mem_cons_self ..)
  unfold replaceIn
  induction t using scan_induction h.ne_nil with
  | nil => rfl
  | phrase q hq u ih =>
    rw [h.replaceTogether_append hq]
    rcases List.mem_cons.1 hq with rfl | hq'
    · rw [Text.replaceAll_append _ _ (h.ne_nil q hp), replaceTogether_cons (fun r hr => hsymbol r hr _), ih]
    · -- The phrase at the front is not `p`, so `p` does not reach into it.
      have hne : p ≠ q := fun e => (List.nodup_cons.1 h.nodup).1 (e ▸ hq')
      rw [Text.replaceAll_append_of_free _ (fun s hs hnil => h.not_prefix hp hq hne hs hnil),
        h.tail.replaceTogether_append hq', ih]
  | other d t hnone ih =>
    rw [Text.replaceAll_cons _ (hnone p hp), replaceTogether_cons hnone, replaceTogether_cons, ih]
    -- Behind `d` the text has changed, but only by symbols, which are in no phrase.
    intro q hq hpre
    rw [← Text.replaceAll_cons _ (hnone p hp)] at hpre
    have hq' : q ∈ p :: phrases := List.mem_cons_of_mem p hq
    exact hnone q hq' (Text.prefix_of_prefix_replaceAll (h.ne_nil p hp) (h.symbol_notMem p hp q hq') hpre)

theorem replaceEach_eq_replaceTogether {phrases : List Phrase} (h : Separate phrases) (t : Text) :
    replaceEach phrases t = replaceTogether phrases t := by
  induction phrases generalizing t with
  | nil => rw [replaceTogether_eq_self (by simp)]; rfl
  | cons p phrases ih =>
    rw [← replaceTogether_replaceIn h, ← ih h.tail]
    rfl

/-! ## In any order -/

theorem Separate.perm {phrases phrases' : List Phrase} (h : Separate phrases) (hp : phrases'.Perm phrases) :
    Separate phrases' where
  nodup := hp.nodup_iff.2 h.nodup
  ne_nil p hm := h.ne_nil p (hp.subset hm)
  symbol_notMem p hm q hq := h.symbol_notMem p (hp.subset hm) q (hp.subset hq)
  apart p hm q hq := h.apart p (hp.subset hm) q (hp.subset hq)

/-- The scan does not depend on the order in which it looks for its phrases. -/
theorem Separate.replaceTogether_perm {phrases phrases' : List Phrase} (h : Separate phrases)
    (hp : phrases'.Perm phrases) (t : Text) : replaceTogether phrases' t = replaceTogether phrases t := by
  have h' : Separate phrases' := h.perm hp
  induction t using scan_induction h.ne_nil with
  | nil => rfl
  | phrase q hq t ih => rw [h'.replaceTogether_append (hp.symm.subset hq), h.replaceTogether_append hq, ih]
  | other c t hnone ih =>
    rw [replaceTogether_cons hnone, replaceTogether_cons (fun q hq => hnone q (hp.subset hq)), ih]

/-- Replaces one phrase after the other, each only where the text is found to hold it. -/
def replaceFound (phrases : List Phrase) (t : Text) : Text :=
  phrases.foldl (fun t p => if p.words <:+: t then p.replaceIn t else t) t

theorem replaceIn_eq_self {p : Phrase} {t : Text} (h : ¬ p.words <:+: t) : p.replaceIn t = t := by
  have hfree := @Text.replaceAll_append_of_free p.words t [] p.operator.symbol
  simp only [List.append_nil, Text.replaceAll_nil] at hfree
  exact hfree (fun s hs _ hpre => h (hpre.isInfix.trans hs.isInfix))

/-- To look for a phrase first makes no difference. -/
theorem replaceFound_eq (phrases : List Phrase) (t : Text) : replaceFound phrases t = replaceEach phrases t := by
  induction phrases generalizing t with
  | nil => rfl
  | cons p phrases ih =>
    have hstep : (if p.words <:+: t then p.replaceIn t else t) = p.replaceIn t := by
      split
      · rfl
      · next h => exact (replaceIn_eq_self h).symm
    show replaceFound phrases (if p.words <:+: t then p.replaceIn t else t) = replaceEach phrases (p.replaceIn t)
    rw [hstep, ih]

/-- An occurrence becomes its symbol wherever it stands. -/
theorem replaceTogether_append_words_append {p : Phrase} (hp : p ∈ all) (front back : Text) :
    replaceTogether all (front ++ (p.words ++ back)) =
      replaceTogether all front ++ p.operator.symbol :: replaceTogether all back := by
  rw [replaceTogether_append (not_crosses_words hp front back), separate_all.replaceTogether_append hp]

/-- The operator phrases may be replaced in any order, each only where it is found or
without looking. The text is always that of the single scan, in which every occurrence
of every phrase has become its symbol, and none of them is left. -/
theorem replaceFound_of_perm {phrases : List Phrase} (h : phrases.Perm all) (t : Text) :
    replaceFound phrases t = replaceTogether all t ∧ replaceEach phrases t = replaceTogether all t ∧
      (∀ p ∈ all, ∀ front back, t = front ++ (p.words ++ back) →
        replaceTogether all t = replaceTogether all front ++ p.operator.symbol :: replaceTogether all back) ∧
      ∀ p ∈ all, ¬ p.words <:+: replaceTogether all t := by
  have heach : replaceEach phrases t = replaceTogether all t := by
    rw [replaceEach_eq_replaceTogether (separate_all.perm h), separate_all.replaceTogether_perm h]
  refine ⟨(replaceFound_eq phrases t).trans heach, heach, ?_, ?_⟩
  · rintro p hp front back rfl
    exact replaceTogether_append_words_append hp front back
  · intro p hp
    exact separate_all.not_infix_replaceTogether hp t

/-- From the last phrase to the first: two that touch, one with another one behind it,
and two that are none because of a second blank and of a character in between. -/
theorem replaceFound_of_perm_reversed :
    all.reverse.Perm all ∧
      replaceFound all.reverse "surplusminus 2 multiplied byplus divided  by pl?us".toList =
        "sur+- 2 *+ divided  by pl?us".toList :=
  ⟨List.reverse_perm all, (replaceFound_of_perm (List.reverse_perm all) _).1.trans (by decide +kernel)⟩

end Phrase

end Reckon
