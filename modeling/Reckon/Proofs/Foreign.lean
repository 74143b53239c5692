import Reckon.Proofs.PlainText
/-!
# Characters outside ASCII

A character outside ASCII counts as a question mark. It does not get into a plain
form, and until it is left out it keeps apart what stands on its two sides. Two
letters are different, because their lower-case forms have a letter of ASCII: the
Kelvin sign becomes `k`, and `İ` becomes `i` with a dot above.

No other letter is lower-cased into ASCII, whatever stands around it. And as phrases
are in ASCII, their replacement cannot tell one foreign character from another.
-/

namespace Reckon

/-! ## Lower-case forms -/

namespace Unicode

/-- The rows lead to characters outside ASCII, except that of the Kelvin sign. -/
theorem upperRows_spec : ∀ row ∈ upperRows, row = ⟨0x212A, 0x212A, 1, 0x6B⟩ ∨
    128 ≤ row.target ∧ (row.target + (row.last - row.first) < 0xD800 ∨
      0xDFFF < row.target ∧ row.target + (row.last - row.first) < 0x110000) := by
  decide +kernel

theorem CaseRow.toNat_image {row : CaseRow} (hrow : row ∈ upperRows) {c : Char} (hc : row.covers c = true)
    (hk : c ≠ '\u212a') : 128 ≤ (row.image c).toNat := by
  simp only [covers, Bool.and_eq_true, decide_eq_true_eq] at hc
  obtain ⟨⟨hfirst, hlast⟩, -⟩ := hc
  rcases upperRows_spec row hrow with rfl | ⟨htarget, hvalid⟩
  · -- This row has a single character.
    have hcode : c.toNat = 0x212A := Nat.le_antisymm hlast hfirst
    refine absurd ?_ hk
    rw [← Char.ofNat_toNat c, hcode]
  · have hcode : (row.target + (c.toNat - row.first)).isValidChar := by
      unfold Nat.isValidChar
      omega
    have hnat : (row.image c).toNat = row.target + (c.toNat - row.first) := by
      rw [image, Char.ofNat, dif_pos hcode]
      rfl
    omega

/-- No character outside ASCII but the Kelvin sign has its lower-case form in ASCII. -/
theorem toNat_lower {c : Char} (h : 128 ≤ c.toNat) (hk : c ≠ '\u212a') : 128 ≤ (lower c).toNat := by
  unfold lower
  rw [if_neg (by omega)]
  cases hf : upperRows.find? (·.covers c) with
  | none => exact h
  | some row => exact CaseRow.toNat_image (List.mem_of_find?_eq_some hf) (by simpa using List.find?_some hf) hk

theorem lower_kelvin : lower '\u212a' = 'k' := by decide +kernel

end Unicode

/-! ## In ASCII -/

/-- What a character counts as. -/
def inAscii (c : Char) : Text :=
  if c = 'İ' then ['i', '?']
  else if c = '\u212a' then ['k']
  else if c.toNat < 128 then [c.toLower]
  else ['?']

theorem inAscii_of_foreign {c : Char} (h : 128 ≤ c.toNat) (hi : c ≠ 'İ') (hk : c ≠ '\u212a') : inAscii c = ['?'] := by
  rw [inAscii, if_neg hi, if_neg hk, if_neg (by omega)]

theorem inAscii_spec {c d : Char} (h : d ∈ inAscii c) : d.toNat < 128 ∧ d.toLower = d := by
  have hother : ∀ d ∈ ['i', '?', 'k'], d.toNat < 128 ∧ d.toLower = d := by simp
  unfold inAscii at h
  split_ifs at h with hi hk hc
  · exact hother d (List.mem_append_left ['k'] h)
  · exact hother d (List.mem_append_right ['i', '?'] h)
  · rw [List.mem_singleton.1 h]
    exact ⟨toNat_toLower_lt_iff.2 hc, toLower_toLower c⟩
  · exact hother d (by simp [List.mem_singleton.1 h])

/-- What characters count as is in lower case already. -/
theorem Text.lowercase_flatMap_inAscii (t : Text) : lowercase (t.flatMap inAscii) = t.flatMap inAscii := by
  have hspec : ∀ d ∈ t.flatMap inAscii, d.toNat < 128 ∧ d.toLower = d := by
    intro d hd
    obtain ⟨c, -, hc⟩ := List.mem_flatMap.1 hd
    exact inAscii_spec hc
  rw [lowercase_of_ascii fun d hd => (hspec d hd).1]
  exact map_toLower_eq fun d hd => (hspec d hd).2

/-- The character, or a question mark if it is outside ASCII. -/
def masked (c : Char) : Char := if c.toNat < 128 then c else '?'

theorem masked_of_ascii {c : Char} (h : c.toNat < 128) : masked c = c := if_pos h

theorem masked_of_foreign {c : Char} (h : 128 ≤ c.toNat) : masked c = '?' := if_neg (by omega)

/-- No other character is turned into one of ASCII apart from the question mark. -/
theorem masked_eq_iff {c d : Char} (hd : d.toNat < 128) (hq : d ≠ '?') : masked c = d ↔ c = d := by
  by_cases hc : c.toNat < 128
  · rw [masked_of_ascii hc]
  · rw [masked_of_foreign (by omega)]
    constructor
    · intro h
      exact absurd h.symm hq
    · rintro rfl
      exact absurd hd hc

theorem masked_lowerSigma (before after : Text) : masked (Text.lowerSigma before after) = '?' := by
  unfold Text.lowerSigma
  split <;> rfl

theorem masked_lower {c : Char} (hi : c ≠ 'İ') : [masked (Unicode.lower c)] = inAscii c := by
  by_cases hk : c = '\u212a'
  · rw [hk, Unicode.lower_kelvin]
    rfl
  · by_cases hc : c.toNat < 128
    · have hlower : Unicode.lower c = c.toLower := if_pos hc
      rw [hlower, masked_of_ascii (toNat_toLower_lt_iff.2 hc), inAscii, if_neg hi, if_neg hk, if_pos hc]
    · have hforeign : 128 ≤ c.toNat := by omega
      rw [masked_of_foreign (Unicode.toNat_lower hforeign hk), inAscii_of_foreign hforeign hi hk]

/-- Lower-casing takes every character to what it counts as, up to characters outside
ASCII. The form that `Σ` has at the end of a word makes no difference. -/
theorem Text.map_masked_lowercaseAfter (before t : Text) :
    (lowercaseAfter before t).map masked = t.flatMap inAscii := by
  induction t generalizing before with
  | nil => rfl
  | cons c t ih =>
    rw [lowercaseAfter, List.map_append, ih, List.flatMap_cons]
    congr 1
    split_ifs with hi hs
    · rw [hi]
      rfl
    · rw [hs, List.map_singleton, masked_lowerSigma]
      rfl
    · exact masked_lower hi

/-! ## Phrases and plain characters -/

/-- A map that leaves the characters of the phrases alone, and takes no other one to
them, may come before the scan or after it. -/
theorem Phrase.Separate.replaceTogether_map {phrases : List Phrase} (h : Separate phrases) {f : Char → Char}
    (hwords : ∀ p ∈ phrases, ∀ d ∈ p.words, ∀ c, f c = d ↔ c = d)
    (hsymbol : ∀ p ∈ phrases, f p.operator.symbol = p.operator.symbol) (t : Text) :
    replaceTogether phrases (t.map f) = (replaceTogether phrases t).map f := by
  have hself : ∀ p ∈ phrases, p.words.map f = p.words := by
    intro p hp
    exact (List.map_congr_left fun d hd => (hwords p hp d hd d).2 rfl).trans (List.map_id p.words)
  induction t using scan_induction h.ne_nil with
  | nil => rfl
  | phrase q hq t ih =>
    rw [List.map_append, hself q hq, h.replaceTogether_append hq, h.replaceTogether_append hq, ih, List.map_cons,
      hsymbol q hq]
  | other c t hnone ih =>
    have hmap : ∀ q ∈ phrases, ¬ q.words <+: f c :: t.map f := by
      intro q hq hpre
      obtain ⟨s, hs, he⟩ := List.prefix_map_iff.1 (List.map_cons ▸ hpre)
      -- Nothing but the phrase itself is mapped to the phrase.
      have hsame : s.map f = s := by
        refine (List.map_congr_left fun d hd => ?_).trans (List.map_id s)
        exact ((hwords q hq (f d) (he ▸ List.mem_map_of_mem hd) d).1 rfl).symm
      exact hnone q hq (he.trans hsame ▸ hs)
    rw [List.map_cons, replaceTogether_cons hmap, replaceTogether_cons hnone, ih, List.map_cons]

theorem Phrase.replaceTogether_map_masked (t : Text) :
    replaceTogether all (t.map masked) = (replaceTogether all t).map masked := by
  have hwords : ∀ p ∈ all, p.words.all (fun d => decide (d.toNat < 128 ∧ d ≠ '?')) = true := by decide
  have hsymbols : ∀ p ∈ all, masked p.operator.symbol = p.operator.symbol := by decide
  apply separate_all.replaceTogether_map _ hsymbols
  intro p hp d hd c
  obtain ⟨hascii, hne⟩ := of_decide_eq_true (List.all_eq_true.1 (hwords p hp) d hd)
  exact masked_eq_iff hascii hne

/-- A question mark is left out as a character outside ASCII is. -/
theorem filter_map_masked (t : Text) : (t.map masked).filter isPlain = t.filter isPlain := by
  induction t with
  | nil => rfl
  | cons c t ih =>
    by_cases hc : c.toNat < 128
    · rw [List.map_cons, masked_of_ascii hc, List.filter_cons, List.filter_cons, ih]
    · have hplain : ¬ isPlain c = true := fun h => hc (isPlain_spec h).1
      have hmark : ¬ isPlain '?' = true := by decide
      rw [List.map_cons, masked_of_foreign (by omega), List.filter_cons_of_neg hmark, List.filter_cons_of_neg hplain,
        ih]

namespace Text

theorem strip_flatMap_inAscii (t : Text) : strip (t.flatMap inAscii) = strip t := by
  unfold strip
  rw [Phrase.replaceEach_eq_replaceTogether Phrase.separate_all, Phrase.replaceEach_eq_replaceTogether Phrase.separate_all,
    lowercase_flatMap_inAscii, ← map_masked_lowercaseAfter [] t, Phrase.replaceTogether_map_masked, filter_map_masked]
  rfl

theorem toPlain_flatMap_inAscii (t : Text) : toPlain (t.flatMap inAscii) = toPlain t := by
  rw [toPlain_eq, toPlain_eq, strip_flatMap_inAscii]

/-- A text has the plain form of its characters in ASCII, where `İ` counts as `i?`, the
Kelvin sign as `k` and every other foreign character as a question mark. So a foreign
character may be replaced by a question mark, wherever it stands, exactly if it is
none of these two. -/
theorem toPlain_foreign :
    (∀ t : Text, t.toPlain = toPlain (t.flatMap inAscii)) ∧
      ∀ c : Char, 128 ≤ c.toNat →
        ((∀ front back : Text, toPlain (front ++ c :: back) = toPlain (front ++ '?' :: back)) ↔
          c ≠ 'İ' ∧ c ≠ '\u212a') := by
  refine ⟨fun t => (toPlain_flatMap_inAscii t).symm, ?_⟩
  intro c hc
  constructor
  · intro h
    constructor
    · rintro rfl
      exact absurd (h [] []) (by decide +kernel)
    · rintro rfl
      exact absurd (h [] []) (by decide +kernel)
  · rintro ⟨hi, hk⟩ front back
    have hmark : inAscii c = inAscii '?' := inAscii_of_foreign hc hi hk
    rw [← toPlain_flatMap_inAscii, ← toPlain_flatMap_inAscii (front ++ '?' :: back), List.flatMap_append,
      List.flatMap_append, List.flatMap_cons, List.flatMap_cons, hmark]

example : toPlain "1 mİnus ΣΊΧ \u212A２".toList = "1 minus  k".toList := by decide +kernel

end Text

end Reckon
