import Mathlib.Data.List.Chain
import Mathlib.Data.List.Induction
import Mathlib.Data.List.Infix
import Reckon.Proofs.Execution
import Reckon.Proofs.Reordering
/-!
# Which tokens have a value

The yard does not ask where an operator stands, so `1 2 +` goes through like
`1 + 2`. We show what it makes of any tokens: those with balanced parentheses are
loosely formed, and it sends out their loose code. Tokens have a value exactly if
that code is the post-order of a tree with that value.

So tokens that are no sentence may have a value, but then two faults make up for
each other. Where no two operands stand side by side there are at most as many
numbers as the operators need, and where no operand is missing at least as many;
in both cases exactly as many only in a sentence.
-/

namespace Reckon

/-! ## Balanced tokens are loosely formed -/

namespace Loose

/-- What may follow the operands of a factor may follow any loosely formed tokens. -/
theorem extend {last : List Token}
    (hlast : ∀ tokens code, Loose .factor tokens code → ∃ code', Loose .factor (tokens ++ last) code')
    {level : Level} {tokens : List Token} {code : Code} (h : Loose level tokens code) :
    ∃ code', Loose level (tokens ++ last) code' := by
  induction h with
  | nothing => exact hlast _ _ .nothing
  | number n h _ => exact hlast _ _ (.number n h)
  | group h hg _ _ => exact hlast _ _ (.group h hg)
  | ofFactor _ ih =>
    obtain ⟨code', h⟩ := ih
    exact ⟨code', .ofFactor h⟩
  | ofProduct _ ih =>
    obtain ⟨code', h⟩ := ih
    exact ⟨code', .ofProduct h⟩
  | product hop hl _ _ ihr =>
    obtain ⟨code', hr⟩ := ihr
    rw [List.append_assoc]
    exact ⟨_, .product hop hl hr⟩
  | sum hop hl _ _ ihr =>
    obtain ⟨code', hr⟩ := ihr
    rw [List.append_assoc]
    exact ⟨_, .sum hop hl hr⟩

theorem append_operator (op : Operator) {tokens : List Token} {code : Code} (h : Loose .sum tokens code) :
    ∃ code', Loose .sum (tokens ++ [.operator op]) code' := by
  rcases op.loose_or_tight with hop | hop
  · exact ⟨_, .sum hop h (.ofFactor .nothing)⟩
  · -- A tight operator goes on with the last product.
    cases h with
    | ofProduct h => exact ⟨_, .ofProduct (.product hop h .nothing)⟩
    | sum hop' hl hr =>
      rw [List.append_assoc]
      exact ⟨_, .sum hop' hl (.product hop hr .nothing)⟩

end Loose

/-- In the tokens this many parentheses are open, and what stands before, between
and behind these is loosely formed. -/
inductive Open : Nat → List Token → Prop where
  | outside {tokens : List Token} {code : Code} : Loose .sum tokens code → Open 0 tokens
  | inside {depth : Nat} {tokens inner : List Token} {code : Code} :
      Open depth tokens → Loose .sum inner code → Open (depth + 1) (tokens ++ .leftParen :: inner)

namespace Open

theorem append {last : List Token}
    (hlast : ∀ tokens code, Loose .sum tokens code → ∃ code', Loose .sum (tokens ++ last) code')
    {depth : Nat} {tokens : List Token} (h : Open depth tokens) : Open depth (tokens ++ last) := by
  cases h with
  | outside h =>
    obtain ⟨code', h'⟩ := hlast _ _ h
    exact .outside h'
  | inside h hi =>
    obtain ⟨code', hi'⟩ := hlast _ _ hi
    rw [List.append_assoc]
    exact .inside h hi'

/-- Tokens that close no parenthesis before it is open can be taken apart at the
parentheses that stay open. -/
theorem of_fronts {tokens : List Token}
    (h : ∀ front, front <+: tokens → front.count .rightParen ≤ front.count .leftParen) :
    ∃ depth, tokens.count .rightParen + depth = tokens.count .leftParen ∧ Open depth tokens := by
  induction tokens using List.reverseRecOn with
  | nil => exact ⟨0, rfl, .outside (.ofProduct (.ofFactor .nothing))⟩
  | append_singleton tokens token ih =>
    obtain ⟨depth, hdepth, ho⟩ := ih (fun front hf => h front (hf.trans (List.prefix_append tokens [token])))
    have hall := h _ (List.prefix_refl _)
    rw [List.count_append, List.count_append] at hall ⊢
    cases token with
    | number n =>
      exact ⟨depth, hdepth, ho.append (fun _ _ => Loose.extend (fun _ _ h => ⟨_, .number n h⟩))⟩
    | operator op => exact ⟨depth, hdepth, ho.append (fun _ _ => Loose.append_operator op)⟩
    | leftParen =>
      have hleft : [Token.leftParen].count .leftParen = 1 := rfl
      have hright : [Token.leftParen].count .rightParen = 0 := rfl
      exact ⟨depth + 1, by omega, .inside ho (.ofProduct (.ofFactor .nothing))⟩
    | rightParen =>
      have hleft : [Token.rightParen].count .leftParen = 0 := rfl
      have hright : [Token.rightParen].count .rightParen = 1 := rfl
      cases ho with
      | outside => omega
      | @inside depth tokens inner code ho hi =>
        refine ⟨depth, by omega, ?_⟩
        rw [List.append_assoc]
        exact ho.append (fun _ _ => Loose.extend (fun _ _ h => ⟨_, .group h hi⟩))

end Open

theorem loose_of_balanced {tokens : List Token} (h : Balanced tokens) : ∃ code, Loose .sum tokens code := by
  obtain ⟨depth, hdepth, ho⟩ := Open.of_fronts h.1
  have hzero : depth = 0 := by
    have := h.2
    omega
  subst hzero
  cases ho with
  | outside h => exact ⟨_, h⟩

/-- What the yard makes of any tokens. -/
theorem Code.ofTokens_eq_ok_iff (tokens : List Token) (code : Code) :
    Code.ofTokens tokens = .ok code ↔ Loose .sum tokens code := by
  constructor
  · intro h
    obtain ⟨code', hl⟩ := loose_of_balanced (Code.balanced_of_ofTokens h)
    rw [Code.ofTokens_of_loose hl] at h
    cases h
    exact hl
  · exact Code.ofTokens_of_loose

/-! ## Operands beside each other, and operands that are missing -/

namespace Token

/-- Does the token end an operand? -/
def endsOperand : Token → Bool
  | number _ => true
  | rightParen => true
  | operator _ => false
  | leftParen => false

/-- Does the token start an operand? -/
def startsOperand : Token → Bool
  | number _ => true
  | leftParen => true
  | operator _ => false
  | rightParen => false

/-- No operand starts where one ends. -/
def Apart (a b : Token) : Prop := a.endsOperand = true → b.startsOperand = false

/-- An operand starts where none ends. -/
def Meets (a b : Token) : Prop := a.endsOperand = false → b.startsOperand = true

theorem meets_of_ends {a : Token} (b : Token) (h : a.endsOperand = true) : Meets a b := by
  intro ha
  rw [h] at ha
  cases ha

end Token

theorem isChain_apart_cons {tokens : List Token} {t : Token} (ht : t.endsOperand = false)
    (h : tokens.IsChain Token.Apart) : (t :: tokens).IsChain Token.Apart := by
  refine List.isChain_cons.2 ⟨?_, h⟩
  intro _ _ hends
  rw [ht] at hends
  cases hends

theorem isChain_apart_concat {tokens : List Token} {t : Token} (ht : t.startsOperand = false)
    (h : tokens.IsChain Token.Apart) : (tokens ++ [t]).IsChain Token.Apart := by
  refine List.isChain_append.2 ⟨h, List.isChain_singleton t, ?_⟩
  intro _ _ b hb _
  rw [List.head?_cons, Option.mem_some_iff] at hb
  rw [← hb, ht]

/-- Two operands stand side by side. -/
def Crowded (tokens : List Token) : Prop :=
  ∃ front a b back, tokens = front ++ a :: b :: back ∧ a.endsOperand = true ∧ b.startsOperand = true

/-- Between `a` and `b` an operand starts wherever one has to. -/
def Filled (a : Token) (tokens : List Token) (b : Token) : Prop := (a :: (tokens ++ [b])).IsChain Token.Meets

/-- An operand is missing: when the tokens are put in parentheses, a left
parenthesis or an operator is followed by a right parenthesis or an operator. -/
def Wanting (tokens : List Token) : Prop :=
  ∃ front a b back, .leftParen :: (tokens ++ [.rightParen]) = front ++ a :: b :: back ∧
    a.endsOperand = false ∧ b.startsOperand = false

theorem isChain_apart_of_not_crowded {tokens : List Token} (h : ¬ Crowded tokens) : tokens.IsChain Token.Apart := by
  rw [List.isChain_iff_forall_rel_of_append_cons_cons]
  intro a b front back he ha
  cases hb : b.startsOperand with
  | false => rfl
  | true => exact absurd ⟨front, a, b, back, he, ha, hb⟩ h

theorem filled_of_not_wanting {tokens : List Token} (h : ¬ Wanting tokens) :
    Filled .leftParen tokens .rightParen := by
  unfold Filled
  rw [List.isChain_iff_forall_rel_of_append_cons_cons]
  intro a b front back he ha
  cases hb : b.startsOperand with
  | true => rfl
  | false => exact absurd ⟨front, a, b, back, he, ha, hb⟩ h

namespace Filled

variable {a b t : Token} {tokens tokens' : List Token}

theorem nil (h : Token.Meets a b) : Filled a [] b := List.isChain_cons_cons.2 ⟨h, List.isChain_singleton b⟩

theorem append_iff : Filled a (tokens ++ t :: tokens') b ↔ Filled a tokens t ∧ Filled t tokens' b := by
  have he : a :: ((tokens ++ t :: tokens') ++ [b]) = (a :: tokens) ++ t :: (tokens' ++ [b]) := by simp
  unfold Filled
  rw [he, List.isChain_split]
  rfl

/-- What stands in front only matters in that no operand ends there. -/
theorem of_left {a' : Token} (h : Filled a tokens b) (ha : a.endsOperand = false) : Filled a' tokens b := by
  obtain ⟨hhead, htail⟩ := List.isChain_cons.1 h
  exact List.isChain_cons.2 ⟨fun t ht _ => hhead t ht ha, htail⟩

/-- What stands behind only matters in that no operand starts there. -/
theorem of_right {b' : Token} (h : Filled a tokens b) (hb : b.startsOperand = false) : Filled a tokens b' := by
  unfold Filled at h ⊢
  rw [← List.cons_append] at h ⊢
  obtain ⟨hfront, -, hlast⟩ := List.isChain_append.1 h
  refine List.isChain_append.2 ⟨hfront, List.isChain_singleton b', ?_⟩
  intro t ht _ _ hends
  have hstarts := hlast t ht b rfl hends
  rw [hb] at hstarts
  cases hstarts

end Filled

/-- An operator expects operands on both sides as parentheses do. -/
theorem Filled.of_operator {op : Operator} {tokens tokens' : List Token}
    (h : Filled .leftParen (tokens ++ .operator op :: tokens') .rightParen) :
    Filled .leftParen tokens .rightParen ∧ Filled .leftParen tokens' .rightParen := by
  obtain ⟨hl, hr⟩ := Filled.append_iff.1 h
  exact ⟨hl.of_right rfl, hr.of_left rfl⟩

/-! ## Counting operands -/

/-- The operator that a token is. -/
def Token.operator? : Token → Option Operator
  | operator op => some op
  | _ => none

/-- The operator that an instruction applies. -/
def Instruction.operator? : Instruction → Option Operator
  | push _ => none
  | apply op => some op

/-- How many numbers the tokens have beyond what their operators need. -/
def excess (tokens : List Token) : Int :=
  (tokens.filterMap Token.number?).length - (tokens.filterMap Token.operator?).length - 1

theorem excess_number (tokens : List Token) (n : Nat) : excess (tokens ++ [.number n]) = excess tokens + 1 := by
  simp [excess, List.filterMap_cons, Token.number?, Token.operator?]
  omega

theorem excess_group (tokens inner : List Token) :
    excess (tokens ++ .leftParen :: (inner ++ [.rightParen])) = excess tokens + excess inner + 1 := by
  simp [excess, List.filterMap_cons, Token.number?, Token.operator?]
  omega

theorem excess_operator (op : Operator) (tokens tokens' : List Token) :
    excess (tokens ++ .operator op :: tokens') = excess tokens + excess tokens' := by
  simp [excess, List.filterMap_cons, Token.number?, Token.operator?]
  omega

theorem excess_group_nil (inner : List Token) : excess (.leftParen :: (inner ++ [.rightParen])) = excess inner := by
  have h := excess_group [] inner
  have hnil : excess [] = -1 := rfl
  rw [List.nil_append] at h
  omega

theorem Derives.excess_eq {level : Level} {tokens : List Token} {e : Expr} (h : Derives level tokens e) :
    excess tokens = 0 := by
  induction h with
  | number n => rfl
  | group _ ih => rw [excess_group_nil, ih]
  | ofFactor _ ih => exact ih
  | ofProduct _ ih => exact ih
  | product _ _ _ ihl ihr | sum _ _ _ ihl ihr =>
    rw [excess_operator, ihl, ihr]
    rfl

/-- Two sides of an operator are derived, or if one has too few or too many numbers
and the other does not make up for it, so has the whole. -/
theorem derived_or_off {off : Int → Prop} (hadd : ∀ a b, off a → off b → off (a + b)) (op : Operator)
    {level level' : Level} {tokens tokens' : List Token}
    (hl : (∃ e, Derives level tokens e) ∨ off (excess tokens))
    (hr : (∃ e, Derives level' tokens' e) ∨ off (excess tokens')) :
    (∃ e e', Derives level tokens e ∧ Derives level' tokens' e') ∨
      off (excess (tokens ++ .operator op :: tokens')) := by
  rw [excess_operator]
  rcases hl with ⟨e, hl⟩ | hl
  · rcases hr with ⟨e', hr⟩ | hr
    · exact .inl ⟨e, e', hl, hr⟩
    · rw [hl.excess_eq, Int.zero_add]
      exact .inr hr
  · rcases hr with ⟨e', hr⟩ | hr
    · rw [hr.excess_eq, Int.add_zero]
      exact .inr hl
    · exact .inr (hadd _ _ hl hr)

namespace Loose

/-- A run of operands ends with an operand. -/
theorem endsOperand_of_factor {tokens : List Token} {code : Code} (h : Loose .factor tokens code) :
    tokens = [] ∨ ∃ front t, tokens = front ++ [t] ∧ t.endsOperand = true := by
  cases h with
  | nothing => exact .inl rfl
  | @number tokens _ n _ => exact .inr ⟨tokens, .number n, rfl, rfl⟩
  | @group tokens inner _ _ _ _ => exact .inr ⟨tokens ++ .leftParen :: inner, .rightParen, by simp, rfl⟩

/-! ### No two operands side by side -/

/-- Where operands keep apart, none stands in front of another. -/
theorem eq_nil_of_apart {tokens rest : List Token} {code : Code} {t : Token} (h : Loose .factor tokens code)
    (ht : t.startsOperand = true) (hc : (tokens ++ t :: rest).IsChain Token.Apart) : tokens = [] := by
  rcases h.endsOperand_of_factor with rfl | ⟨front, last, rfl, hlast⟩
  · rfl
  · rw [List.append_assoc] at hc
    have hlt := (List.isChain_append_cons_cons.1 hc).2.1 hlast
    rw [ht] at hlt
    cases hlt

/-- Tokens whose operands keep apart are derived, or have too few numbers. -/
theorem derived_or_few {level : Level} {tokens : List Token} {code : Code} (h : Loose level tokens code)
    (hc : tokens.IsChain Token.Apart) : (∃ e, Derives level tokens e) ∨ excess tokens < 0 := by
  have hadd : ∀ a b : Int, a < 0 → b < 0 → a + b < 0 := fun _ _ => Int.add_neg
  induction h with
  | nothing => exact .inr (by decide)
  | number n h _ =>
    rw [h.eq_nil_of_apart rfl hc]
    exact .inl ⟨_, .number n⟩
  | group h _ _ ih =>
    have hnil := h.eq_nil_of_apart rfl hc
    subst hnil
    rw [List.nil_append, excess_group_nil]
    exact (ih hc.tail.left_of_append).imp_left fun ⟨e, hd⟩ => ⟨e, .group hd⟩
  | ofFactor _ ih => exact (ih hc).imp_left fun ⟨e, hd⟩ => ⟨e, .ofFactor hd⟩
  | ofProduct _ ih => exact (ih hc).imp_left fun ⟨e, hd⟩ => ⟨e, .ofProduct hd⟩
  | @product op _ _ _ _ hop _ _ ihl ihr =>
    have hsides := derived_or_off hadd op (ihl hc.left_of_append) (ihr hc.right_of_append.tail)
    exact hsides.imp_left fun ⟨_, _, hl, hr⟩ => ⟨_, .product hop hl hr⟩
  | @sum op _ _ _ _ hop _ _ ihl ihr =>
    have hsides := derived_or_off hadd op (ihl hc.left_of_append) (ihr hc.right_of_append.tail)
    exact hsides.imp_left fun ⟨_, _, hl, hr⟩ => ⟨_, .sum hop hl hr⟩

/-! ### No operand missing -/

/-- A run of operands that is not empty misses none, whatever follows it. -/
theorem filled_of_factor {tokens : List Token} {code : Code} {a b : Token} (b' : Token)
    (h : Loose .factor tokens code) (hne : tokens ≠ []) (hf : Filled a tokens b) : Filled a tokens b' := by
  rcases h.endsOperand_of_factor with rfl | ⟨front, last, rfl, hlast⟩
  · exact absurd rfl hne
  · exact Filled.append_iff.2 ⟨(Filled.append_iff.1 hf).1, Filled.nil (Token.meets_of_ends b' hlast)⟩

/-- Tokens that miss no operand are derived, or have too many numbers. -/
theorem derived_or_many {level : Level} {tokens : List Token} {code : Code} (h : Loose level tokens code)
    (hf : Filled .leftParen tokens .rightParen) : (∃ e, Derives level tokens e) ∨ 0 < excess tokens := by
  have hadd : ∀ a b : Int, 0 < a → 0 < b → 0 < a + b := fun _ _ => Int.add_pos
  -- Derived or not, tokens with all their operands have no number too few.
  have hnonneg : ∀ {l : Level} {t : List Token}, (∃ e, Derives l t e) ∨ 0 < excess t → 0 ≤ excess t := by
    rintro l t (⟨e, hd⟩ | hmany)
    · exact Int.le_of_eq hd.excess_eq.symm
    · exact Int.le_of_lt hmany
  induction h with
  | nothing => exact absurd ((List.isChain_cons_cons.1 hf).1 rfl) (by decide)
  | @number tokens _ n h ih =>
    by_cases hne : tokens = []
    · subst hne
      exact .inl ⟨_, .number n⟩
    · have htokens := hnonneg (ih (h.filled_of_factor .rightParen hne (Filled.append_iff.1 hf).1))
      rw [excess_number]
      exact .inr (by omega)
  | @group tokens inner _ _ h _ iht ihg =>
    obtain ⟨hfront, hback⟩ := Filled.append_iff.1 hf
    have hinner := ihg (Filled.append_iff.1 hback).1
    by_cases hne : tokens = []
    · subst hne
      rw [List.nil_append, excess_group_nil]
      exact hinner.imp_left fun ⟨e, hd⟩ => ⟨e, .group hd⟩
    · have htokens := hnonneg (iht (h.filled_of_factor .rightParen hne hfront))
      have hinner := hnonneg hinner
      rw [excess_group]
      exact .inr (by omega)
  | ofFactor _ ih => exact (ih hf).imp_left fun ⟨e, hd⟩ => ⟨e, .ofFactor hd⟩
  | ofProduct _ ih => exact (ih hf).imp_left fun ⟨e, hd⟩ => ⟨e, .ofProduct hd⟩
  | @product op _ _ _ _ hop _ _ ihl ihr =>
    obtain ⟨hfl, hfr⟩ := hf.of_operator
    have hsides := derived_or_off hadd op (ihl hfl) (ihr hfr)
    exact hsides.imp_left fun ⟨_, _, hl, hr⟩ => ⟨_, .product hop hl hr⟩
  | @sum op _ _ _ _ hop _ _ ihl ihr =>
    obtain ⟨hfl, hfr⟩ := hf.of_operator
    have hsides := derived_or_off hadd op (ihl hfl) (ihr hfr)
    exact hsides.imp_left fun ⟨_, _, hl, hr⟩ => ⟨_, .sum hop hl hr⟩

/-- The code applies the operators of the tokens, if not in their order. -/
theorem operators_perm {level : Level} {tokens : List Token} {code : Code} (h : Loose level tokens code) :
    (code.filterMap Instruction.operator?).Perm (tokens.filterMap Token.operator?) := by
  induction h with
  | nothing => exact .nil
  | number n _ ih => simpa [Instruction.operator?, Token.operator?, List.filterMap_cons] using ih
  | group _ _ iht ihg => simpa [Token.operator?, List.filterMap_cons] using iht.append ihg
  | ofFactor _ ih => exact ih
  | ofProduct _ ih => exact ih
  | product _ _ _ ihl ihr | sum _ _ _ ihl ihr =>
    simp only [List.filterMap_append, List.filterMap_cons, Instruction.operator?, Token.operator?,
      List.filterMap_nil, List.append_assoc]
    exact ihl.append ((List.perm_append_singleton _ _).trans (ihr.cons _))

end Loose

/-- A tree has one number more than operators. -/
theorem Expr.numbers_postorder (e : Expr) :
    (e.postorder.filterMap Instruction.number?).length =
      (e.postorder.filterMap Instruction.operator?).length + 1 := by
  induction e with
  | number n => rfl
  | binary op left right ihl ihr =>
    simp only [postorder, List.filterMap_append, List.length_append, ihl, ihr]
    simp [Instruction.number?, Instruction.operator?, List.filterMap_cons]
    omega

/-! ## Sentences among the tokens -/

namespace Derives

/-- The operands of a sentence keep apart. -/
theorem apart {level : Level} {tokens : List Token} {e : Expr} (h : Derives level tokens e) :
    tokens.IsChain Token.Apart := by
  induction h with
  | number n => exact List.isChain_singleton _
  | group _ ih => exact isChain_apart_cons rfl (isChain_apart_concat rfl ih)
  | ofFactor _ ih => exact ih
  | ofProduct _ ih => exact ih
  | product _ _ _ ihl ihr | sum _ _ _ ihl ihr =>
    exact List.isChain_split.2 ⟨isChain_apart_concat rfl ihl, isChain_apart_cons rfl ihr⟩

/-- A sentence misses no operand. -/
theorem filled {level : Level} {tokens : List Token} {e : Expr} (h : Derives level tokens e) :
    Filled .leftParen tokens .rightParen := by
  induction h with
  | number n =>
    exact (@Filled.append_iff _ _ _ [] _).2
      ⟨Filled.nil (fun _ => rfl), Filled.nil (Token.meets_of_ends _ rfl)⟩
  | group _ ih =>
    exact (@Filled.append_iff _ _ _ [] _).2
      ⟨Filled.nil (fun _ => rfl), Filled.append_iff.2 ⟨ih, Filled.nil (Token.meets_of_ends _ rfl)⟩⟩
  | ofFactor _ ih => exact ih
  | ofProduct _ ih => exact ih
  | product _ _ _ ihl ihr | sum _ _ _ ihl ihr =>
    exact Filled.append_iff.2 ⟨ihl.of_right rfl, ihr.of_left rfl⟩

end Derives

/-- Sentences are the tokens with balanced parentheses and with one operand wherever
operands stand. -/
theorem sentence_iff (tokens : List Token) :
    Sentence tokens ↔ Balanced tokens ∧ ¬ Crowded tokens ∧ ¬ Wanting tokens := by
  constructor
  · rintro ⟨e, h⟩
    refine ⟨Code.balanced_of_ofTokens (Code.ofTokens_of_derives h), ?_, ?_⟩
    · rintro ⟨front, a, b, back, rfl, ha, hb⟩
      have hapart := (List.isChain_append_cons_cons.1 h.apart).2.1 ha
      rw [hb] at hapart
      cases hapart
    · rintro ⟨front, a, b, back, he, ha, hb⟩
      have hfilled := h.filled
      unfold Filled at hfilled
      rw [he] at hfilled
      have hmeets := (List.isChain_append_cons_cons.1 hfilled).2.1 ha
      rw [hb] at hmeets
      cases hmeets
  · rintro ⟨hb, hc, hw⟩
    obtain ⟨code, h⟩ := loose_of_balanced hb
    rcases h.derived_or_few (isChain_apart_of_not_crowded hc) with hd | hfew
    · exact hd
    · rcases h.derived_or_many (filled_of_not_wanting hw) with hd | hmany
      · exact hd
      · omega

/-! ## Tokens with a value -/

/-- Tokens that become the post-order of a tree have as many numbers as a sentence. -/
theorem excess_of_loose_postorder {tokens : List Token} {e : Expr} (h : Loose .sum tokens e.postorder) :
    excess tokens = 0 := by
  unfold excess
  rw [← Code.numbers_ofTokens (Code.ofTokens_of_loose h), ← h.operators_perm.length_eq, e.numbers_postorder]
  omega

/-- Tokens have the value `v` exactly if their loose code is the post-order of a
tree with that value. So their parentheses are balanced, and if they are no sentence
then two operands stand side by side in them and another one is missing. -/
theorem Code.accepted_tokens (tokens : List Token) (v : Float) :
    ((Code.ofTokens tokens).bind Machine.run = .ok v ↔ ∃ e : Expr, Loose .sum tokens e.postorder ∧ e.value = .ok v) ∧
      ((Code.ofTokens tokens).bind Machine.run = .ok v →
        Balanced tokens ∧ (¬ Sentence tokens → Crowded tokens ∧ Wanting tokens)) := by
  have hiff : (Code.ofTokens tokens).bind Machine.run = .ok v ↔
      ∃ e : Expr, Loose .sum tokens e.postorder ∧ e.value = .ok v := by
    constructor
    · intro h
      cases hc : Code.ofTokens tokens with
      | error fault => rw [hc] at h; cases h
      | ok code =>
        rw [hc] at h
        obtain ⟨e, rfl, he⟩ := (Machine.run_eq_ok_iff code v).1 h
        exact ⟨e, (Code.ofTokens_eq_ok_iff tokens _).1 hc, he⟩
    · rintro ⟨e, hl, he⟩
      rw [Code.ofTokens_of_loose hl]
      exact (Machine.run_postorder e).trans he
  refine ⟨hiff, ?_⟩
  intro h
  obtain ⟨e, hl, -⟩ := hiff.1 h
  refine ⟨Code.balanced_of_ofTokens (Code.ofTokens_of_loose hl), ?_⟩
  intro hs
  have hexcess := excess_of_loose_postorder hl
  constructor
  · by_contra hc
    rcases hl.derived_or_few (isChain_apart_of_not_crowded hc) with hd | hfew
    · exact hs hd
    · omega
  · by_contra hw
    rcases hl.derived_or_many (filled_of_not_wanting hw) with hd | hmany
    · exact hs hd
    · omega

/-- An operator behind both its operands: `1 2 +` is no sentence, and has the value
of `1 + 2`. -/
theorem Code.trailing_operator_accepted :
    ¬ Sentence [.number 1, .number 2, .operator .add] ∧
      (Code.ofTokens [.number 1, .number 2, .operator .add]).bind Machine.run =
        .ok (Float.ofNat 1 + Float.ofNat 2) := by
  constructor
  · intro h
    exact ((sentence_iff _).1 h).2.1 ⟨[], .number 1, .number 2, [.operator .add], rfl, rfl, rfl⟩
  · rfl

end Reckon
