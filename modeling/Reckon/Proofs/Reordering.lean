import Mathlib.Data.List.Basic
import Reckon.Grammar
import Reckon.Yard
/-!
# What the yard does with any tokens, and with a sentence

A token makes the yard send out some operators from its top, maybe none, and then do
one thing more. `Yields` is the first part and `Takes` all of it, so what a token keeps
is shown for the sending out and then by cases on `Takes`.

The yard fails exactly on tokens whose parentheses are not balanced, whatever the
operators and numbers among them are: the left parentheses that are pending are
those still open. On success it sends out the numbers in their order.

Loosely formed tokens leave the yard as their code. The tokens of a product or a sum
may leave operators pending; these bind at least as tightly as the level that was
formed, so the next token that looks at them sends them out. A sentence is loosely
formed and its code is the post-order of its tree, from which the tree can be read
back: a sentence has one tree.
-/

namespace Reckon

/-- The number that an instruction puts on the stack. -/
def Instruction.number? : Instruction → Option Nat
  | push n => some n
  | apply _ => none

/-- The number that a token is. -/
def Token.number? : Token → Option Nat
  | number n => some n
  | _ => none

namespace Yard

theorem feed_cons (y : Yard) (token : Token) (tokens : List Token) :
    y.feed (token :: tokens) = (y.step token).bind (·.feed tokens) := by
  simp only [feed, List.foldlM_cons]
  rfl

/-- Tokens go through one by one. -/
theorem of_feed_cons {y y' : Yard} {token : Token} {tokens : List Token} (h : y.feed (token :: tokens) = .ok y') :
    ∃ z, y.step token = .ok z ∧ z.feed tokens = .ok y' := by
  rw [feed_cons] at h
  cases hs : y.step token with
  | error fault => rw [hs] at h; cases h
  | ok z => rw [hs] at h; exact ⟨z, rfl, h⟩

/-! ## Sending out operators -/

/-- `y` comes to `z` when operators on its top that bind at least as tightly as
`bound` are sent out. -/
inductive Yields (bound : Nat) : Yard → Yard → Prop where
  | refl (y : Yard) : Yields bound y y
  | send {op : Operator} {emitted : Code} {pending : List Pending} {z : Yard} :
      bound ≤ op.precedence → Yields bound ⟨.apply op :: emitted, pending⟩ z →
      Yields bound ⟨emitted, .operator op :: pending⟩ z

/-- On top of the yard is no operator that binds as tightly as `bound`. -/
def Looser (bound : Nat) (pending : List Pending) : Prop :=
  ∀ op, pending.head? = some (.operator op) → op.precedence < bound

theorem Yields.mono {bound bound' : Nat} {y z : Yard} (h : Yields bound y z) (hle : bound' ≤ bound) :
    Yields bound' y z := by
  induction h with
  | refl y => exact .refl y
  | send hop _ ih => exact .send (Nat.le_trans hle hop) ih

theorem Yields.trans {bound : Nat} {x y z : Yard} (hxy : Yields bound x y) (hyz : Yields bound y z) :
    Yields bound x z := by
  induction hxy with
  | refl => exact hyz
  | send hop _ ih => exact .send hop (ih hyz)

theorem Looser.mono {bound bound' : Nat} {pending : List Pending} (h : Looser bound pending)
    (hle : bound ≤ bound') : Looser bound' pending :=
  fun op hop => Nat.lt_of_lt_of_le (h op hop) hle

/-- An operator that is no tighter than what was derived finds it sent out. -/
theorem Yields.yield_eq {bound : Nat} {y z : Yard} {op : Operator} (h : Yields bound y z)
    (hop : op.precedence ≤ bound) : yield op y.emitted y.pending = yield op z.emitted z.pending := by
  induction h with
  | refl => rfl
  | send htop _ ih => rw [yield, if_pos (Nat.le_trans hop htop), ih]

theorem Yields.close_eq {bound : Nat} {y z : Yard} (h : Yields bound y z) :
    close y.emitted y.pending = close z.emitted z.pending := by
  induction h with
  | refl => rfl
  | send _ _ ih => rw [close, ih]

theorem Yields.finish_eq {bound : Nat} {y z : Yard} (h : Yields bound y z) :
    finish y.emitted y.pending = finish z.emitted z.pending := by
  induction h with
  | refl => rfl
  | send _ _ ih => rw [finish, ih]

theorem Looser.yield_eq {op : Operator} {emitted : Code} {pending : List Pending}
    (h : Looser op.precedence pending) : yield op emitted pending = ⟨emitted, pending⟩ := by
  rcases pending with _ | ⟨_ | top, pending⟩
  · rfl
  · rfl
  · have htop := h top rfl
    rw [yield, if_neg (by omega)]

/-- Sending out ends at an operator that binds less tightly, at a parenthesis, or when
nothing is pending any more. -/
theorem exists_yields (bound : Nat) (y : Yard) : ∃ z, Yields bound y z ∧ Looser bound z.pending := by
  obtain ⟨emitted, pending⟩ := y
  induction pending generalizing emitted with
  | nil => exact ⟨_, .refl _, fun op hop => by simp at hop⟩
  | cons top pending ih =>
    cases top with
    | leftParen => exact ⟨_, .refl _, fun op hop => by simp at hop⟩
    | operator op =>
      by_cases hop : bound ≤ op.precedence
      · obtain ⟨z, hz, hl⟩ := ih (.apply op :: emitted)
        exact ⟨z, .send hop hz, hl⟩
      · refine ⟨_, .refl _, ?_⟩
        intro o ho
        cases ho
        exact Nat.lt_of_not_le hop

/-- What an operator sends out ends at the first operator that binds less tightly. -/
theorem yield_spec (op : Operator) (emitted : Code) (pending : List Pending) :
    Yields op.precedence ⟨emitted, pending⟩ (yield op emitted pending) ∧
      Looser op.precedence (yield op emitted pending).pending := by
  obtain ⟨z, hz, hl⟩ := exists_yields op.precedence ⟨emitted, pending⟩
  have hyield : yield op emitted pending = z := (hz.yield_eq (Nat.le_refl _)).trans hl.yield_eq
  rw [hyield]
  exact ⟨hz, hl⟩

/-- Below the operators on top is a left parenthesis, which can be closed, or nothing,
and then the yard can be finished. -/
theorem leftParen_or_end (emitted : Code) (pending : List Pending) :
    (∃ emitted' pending', Yields 0 ⟨emitted, pending⟩ ⟨emitted', .leftParen :: pending'⟩ ∧
      close emitted pending = .ok ⟨emitted', pending'⟩ ∧ finish emitted pending = .error .mismatchedParentheses) ∨
    ∃ emitted', Yields 0 ⟨emitted, pending⟩ ⟨emitted', []⟩ ∧
      close emitted pending = .error .mismatchedParentheses ∧ finish emitted pending = .ok emitted'.reverse := by
  obtain ⟨⟨emitted', pending'⟩, hz, hl⟩ := exists_yields 0 ⟨emitted, pending⟩
  have hclose := hz.close_eq
  have hfinish := hz.finish_eq
  rcases pending' with _ | ⟨_ | op, pending'⟩
  · exact .inr ⟨emitted', hz, hclose, hfinish⟩
  · exact .inl ⟨emitted', pending', hz, hclose, hfinish⟩
  · -- Every operator on top has been sent out, however loosely it binds.
    exact absurd (hl op rfl) (Nat.not_lt_zero _)

/-- What a token does to a yard that takes it in. -/
inductive Takes (y : Yard) : Token → Yard → Prop where
  | number (n : Nat) : Takes y (.number n) { y with emitted := .push n :: y.emitted }
  | leftParen : Takes y .leftParen { y with pending := .leftParen :: y.pending }
  | rightParen {emitted : Code} {pending : List Pending} :
      Yields 0 y ⟨emitted, .leftParen :: pending⟩ → Takes y .rightParen ⟨emitted, pending⟩
  | operator {op : Operator} {z : Yard} :
      Yields op.precedence y z → Looser op.precedence z.pending →
      Takes y (.operator op) { z with pending := .operator op :: z.pending }

theorem takes_of_step {y y' : Yard} {token : Token} (h : y.step token = .ok y') : Takes y token y' := by
  cases token with
  | number n => cases h; exact .number n
  | leftParen => cases h; exact .leftParen
  | rightParen =>
    rcases leftParen_or_end y.emitted y.pending with ⟨emitted, pending, hy, hc, -⟩ | ⟨emitted, -, hc, -⟩
    · rw [step, hc] at h
      cases h
      exact .rightParen hy
    · rw [step, hc] at h; cases h
  | operator op =>
    obtain ⟨hz, hl⟩ := yield_spec op y.emitted y.pending
    cases h
    exact .operator hz hl

/-- Only a right parenthesis is refused, and only when all that is pending are operators. -/
theorem step_error {y : Yard} {token : Token} {fault : Fault} (h : y.step token = .error fault) :
    fault = .mismatchedParentheses ∧ token = .rightParen ∧ ∃ emitted, Yields 0 y ⟨emitted, []⟩ := by
  cases token with
  | rightParen =>
    rcases leftParen_or_end y.emitted y.pending with ⟨emitted, pending, -, hc, -⟩ | ⟨emitted, hy, hc, -⟩
    · rw [step, hc] at h; cases h
    · rw [step, hc] at h
      cases h
      exact ⟨rfl, rfl, emitted, hy⟩
  | _ => simp [step] at h

/-! ## Open parentheses -/

/-- How many left parentheses are pending. -/
def opened (y : Yard) : Nat := y.pending.count .leftParen

theorem opened_leftParen (emitted : Code) (pending : List Pending) :
    opened ⟨emitted, .leftParen :: pending⟩ = opened ⟨emitted, pending⟩ + 1 :=
  List.count_cons_self ..

theorem opened_operator (op : Operator) (emitted : Code) (pending : List Pending) :
    opened ⟨emitted, .operator op :: pending⟩ = opened ⟨emitted, pending⟩ :=
  List.count_cons_of_ne (by simp)

theorem Yields.opened_eq {bound : Nat} {y z : Yard} (h : Yields bound y z) : z.opened = y.opened := by
  induction h with
  | refl => rfl
  | @send op emitted pending z _ _ ih => exact ih.trans (opened_operator op emitted pending).symm

theorem opened_finish {emitted code : Code} {pending : List Pending} (h : finish emitted pending = .ok code) :
    pending.count .leftParen = 0 := by
  rcases leftParen_or_end emitted pending with ⟨emitted', pending', -, -, hf⟩ | ⟨emitted', hy, -, -⟩
  · rw [hf] at h; cases h
  · exact hy.opened_eq.symm

theorem finish_error {emitted : Code} {pending : List Pending} {fault : Fault}
    (h : finish emitted pending = .error fault) :
    fault = .mismatchedParentheses ∧ 0 < pending.count .leftParen := by
  rcases leftParen_or_end emitted pending with ⟨emitted', pending', hy, -, hf⟩ | ⟨emitted', -, -, hf⟩
  · rw [hf] at h
    cases h
    have hopened : opened ⟨emitted', pending'⟩ + 1 = pending.count .leftParen :=
      (opened_leftParen emitted' pending').symm.trans hy.opened_eq
    exact ⟨rfl, by omega⟩
  · rw [hf] at h; cases h

/-- A token opens or closes a parenthesis, or leaves them alone. -/
theorem opened_step {y y' : Yard} {token : Token} (h : y.step token = .ok y') :
    y'.opened + [token].count .rightParen = y.opened + [token].count .leftParen := by
  cases takes_of_step h with
  | number n => rfl
  | leftParen => exact opened_leftParen y.emitted y.pending
  | @rightParen emitted pending hy => exact (opened_leftParen emitted pending).symm.trans hy.opened_eq
  | @operator op z hy => exact (opened_operator op z.emitted z.pending).trans hy.opened_eq

theorem count_cons_eq (token paren : Token) (tokens : List Token) :
    (token :: tokens).count paren = [token].count paren + tokens.count paren := by
  rw [← List.singleton_append, List.count_append]

/-- Tokens that go through leave as many parentheses open as they should, and
never closed one that was not open. -/
theorem opened_feed {y y' : Yard} {tokens : List Token} (h : y.feed tokens = .ok y') :
    y'.opened + tokens.count .rightParen = y.opened + tokens.count .leftParen ∧
      ∀ front, front <+: tokens → front.count .rightParen ≤ y.opened + front.count .leftParen := by
  induction tokens generalizing y with
  | nil =>
    cases h
    refine ⟨rfl, ?_⟩
    intro front hf
    rw [List.prefix_nil.1 hf]
    simp
  | cons token tokens ih =>
    obtain ⟨z, hs, hz⟩ := of_feed_cons h
    obtain ⟨htotal, hfronts⟩ := ih hz
    have hstep := opened_step hs
    constructor
    · rw [count_cons_eq, count_cons_eq token .leftParen]
      omega
    · intro front hf
      rcases List.prefix_cons_iff.1 hf with rfl | ⟨front', rfl, hf'⟩
      · simp
      · have := hfronts front' hf'
        rw [count_cons_eq, count_cons_eq token .leftParen]
        omega

/-- Tokens that do not go through close a parenthesis that was not open. -/
theorem feed_error {y : Yard} {tokens : List Token} {fault : Fault} (h : y.feed tokens = .error fault) :
    fault = .mismatchedParentheses ∧
      ∃ front, front <+: tokens ∧ y.opened + front.count .leftParen < front.count .rightParen := by
  induction tokens generalizing y with
  | nil => cases h
  | cons token tokens ih =>
    rw [feed_cons] at h
    cases hs : y.step token with
    | error fault' =>
      rw [hs] at h
      cases h
      obtain ⟨rfl, rfl, emitted, hy⟩ := step_error hs
      have hopened : y.opened = 0 := hy.opened_eq.symm
      exact ⟨rfl, [.rightParen], by simp, by simp [hopened]⟩
    | ok z =>
      rw [hs] at h
      obtain ⟨hfault, front, hf, hlt⟩ := ih h
      have hstep := opened_step hs
      refine ⟨hfault, token :: front, List.cons_prefix_cons.2 ⟨rfl, hf⟩, ?_⟩
      rw [count_cons_eq, count_cons_eq token .rightParen]
      omega

/-! ## Numbers -/

theorem Yields.numbers_eq {bound : Nat} {y z : Yard} (h : Yields bound y z) :
    z.emitted.filterMap Instruction.number? = y.emitted.filterMap Instruction.number? := by
  induction h with
  | refl => rfl
  | send _ _ ih => rw [ih]; rfl

theorem numbers_finish {emitted code : Code} {pending : List Pending} (h : finish emitted pending = .ok code) :
    code.filterMap Instruction.number? = (emitted.filterMap Instruction.number?).reverse := by
  rcases leftParen_or_end emitted pending with ⟨emitted', pending', -, -, hf⟩ | ⟨emitted', hy, -, hf⟩
  · rw [hf] at h; cases h
  · rw [hf] at h
    cases h
    rw [List.filterMap_reverse, hy.numbers_eq]

theorem numbers_step {y y' : Yard} {token : Token} (h : y.step token = .ok y') :
    y'.emitted.filterMap Instruction.number? =
      token.number?.toList ++ y.emitted.filterMap Instruction.number? := by
  cases takes_of_step h with
  | number n => rfl
  | leftParen => rfl
  | rightParen hy => exact hy.numbers_eq
  | operator hy => exact hy.numbers_eq

theorem numbers_feed {y y' : Yard} {tokens : List Token} (h : y.feed tokens = .ok y') :
    (y'.emitted.filterMap Instruction.number?).reverse =
      (y.emitted.filterMap Instruction.number?).reverse ++ tokens.filterMap Token.number? := by
  induction tokens generalizing y with
  | nil => cases h; simp
  | cons token tokens ih =>
    obtain ⟨z, hs, hz⟩ := of_feed_cons h
    rw [ih hz, numbers_step hs]
    cases hn : token.number? <;> simp [hn]

end Yard

/-! ## Any tokens -/

theorem Code.ofTokens_eq_ok {tokens : List Token} {code : Code} (h : Code.ofTokens tokens = .ok code) :
    ∃ y : Yard, Yard.empty.feed tokens = .ok y ∧ Yard.finish y.emitted y.pending = .ok code := by
  unfold Code.ofTokens at h
  cases hf : Yard.empty.feed tokens with
  | error fault => rw [hf] at h; cases h
  | ok y => rw [hf] at h; exact ⟨y, rfl, h⟩

theorem Code.balanced_of_ofTokens {tokens : List Token} {code : Code} (h : Code.ofTokens tokens = .ok code) :
    Balanced tokens := by
  obtain ⟨y, hf, hc⟩ := Code.ofTokens_eq_ok h
  obtain ⟨htotal, hfronts⟩ := Yard.opened_feed hf
  have hy : y.opened = 0 := Yard.opened_finish hc
  have he : Yard.empty.opened = 0 := rfl
  constructor
  · intro front hp
    have := hfronts front hp
    omega
  · omega

theorem Code.ofTokens_error {tokens : List Token} {fault : Fault} (h : Code.ofTokens tokens = .error fault) :
    fault = .mismatchedParentheses ∧ ¬ Balanced tokens := by
  have he : Yard.empty.opened = 0 := rfl
  unfold Code.ofTokens at h
  cases hf : Yard.empty.feed tokens with
  | error fault' =>
    rw [hf] at h
    cases h
    obtain ⟨hfault, front, hp, hlt⟩ := Yard.feed_error hf
    refine ⟨hfault, ?_⟩
    intro hb
    have := hb.1 front hp
    omega
  | ok y =>
    rw [hf] at h
    obtain ⟨hfault, hpos⟩ := Yard.finish_error h
    refine ⟨hfault, ?_⟩
    intro hb
    have htotal := (Yard.opened_feed hf).1
    have hbal := hb.2
    have hy : 0 < y.opened := hpos
    omega

/-- Nothing is lost, doubled or moved: the code holds the numbers of the tokens. -/
theorem Code.numbers_ofTokens {tokens : List Token} {code : Code} (h : Code.ofTokens tokens = .ok code) :
    code.filterMap Instruction.number? = tokens.filterMap Token.number? := by
  obtain ⟨y, hf, hc⟩ := Code.ofTokens_eq_ok h
  rw [Yard.numbers_finish hc, Yard.numbers_feed hf]
  rfl

/-! ## Loosely formed tokens -/

/-- The weakest precedence that an operator of the level may have. -/
def Level.precedence : Level → Nat
  | sum => 1
  | product => 2
  | factor => 3

namespace Yard

/-- No operator binds as tightly as a factor, so a factor leaves none pending. -/
theorem Yields.eq_of_factor {y z : Yard} (h : Yields Level.factor.precedence y z) : y = z := by
  cases h with
  | refl => rfl
  | @send op _ _ _ hop _ => cases op <;> exact absurd hop (by decide)

/-- What tokens of a level do to a yard: they send out their code, up to operators
that the level leaves pending. -/
def Sends (level : Level) (tokens : List Token) (code : Code) : Prop :=
  ∀ y : Yard, Looser level.precedence y.pending →
    ∃ y', y.feed tokens = .ok y' ∧ Yields level.precedence y' ⟨code.reverse ++ y.emitted, y.pending⟩

/-- Tokens in parentheses send out their code and leave nothing pending. -/
theorem feed_group {inner : List Token} {code : Code} (h : Sends .sum inner code) (y : Yard) :
    y.feed (.leftParen :: (inner ++ [.rightParen])) = .ok ⟨code.reverse ++ y.emitted, y.pending⟩ := by
  -- Under the new left parenthesis the inner tokens meet no operator at all.
  obtain ⟨y1, h1, hy1⟩ := h ⟨y.emitted, .leftParen :: y.pending⟩ (fun op hop => by simp at hop)
  rw [feed_cons]
  show Yard.feed ⟨y.emitted, .leftParen :: y.pending⟩ (inner ++ [.rightParen]) = _
  rw [feed_append, h1]
  show y1.feed [.rightParen] = _
  rw [feed_cons]
  show (close y1.emitted y1.pending).bind _ = _
  rw [hy1.close_eq]
  rfl

/-- The step for both kinds of chains: the operator of the chain sends out what
its left side left pending, and waits itself below the right side. -/
theorem sends_binary {level tighter : Level} {op : Operator} {tokens tokens' : List Token} {code code' : Code}
    (hop : op.precedence = level.precedence) (hlt : level.precedence < tighter.precedence)
    (hl : Sends level tokens code) (hr : Sends tighter tokens' code') :
    Sends level (tokens ++ .operator op :: tokens') (code ++ code' ++ [.apply op]) := by
  intro y hy
  obtain ⟨y1, h1, hy1⟩ := hl y hy
  have hpush : y1.step (.operator op) = .ok ⟨code.reverse ++ y.emitted, .operator op :: y.pending⟩ := by
    have hlooser : Looser op.precedence y.pending := by rw [hop]; exact hy
    simp only [step, hy1.yield_eq (Nat.le_of_eq hop), hlooser.yield_eq]
  have hwait : Looser tighter.precedence (.operator op :: y.pending) := by
    intro o ho
    simp only [List.head?_cons, Option.some.injEq, Pending.operator.injEq] at ho
    rw [← ho, hop]
    exact hlt
  obtain ⟨y2, h2, hy2⟩ := hr ⟨code.reverse ++ y.emitted, .operator op :: y.pending⟩ hwait
  refine ⟨y2, ?_, ?_⟩
  · rw [feed_append, h1]
    show y1.feed (.operator op :: tokens') = .ok y2
    rw [feed_cons, hpush]
    exact h2
  · -- Once the right side is sent out, the operator of the chain is the next to go.
    have hsend := (hy2.mono (Nat.le_of_lt hlt)).trans (.send (Nat.le_of_eq hop.symm) (.refl _))
    simpa using hsend

theorem sends_of_loose {level : Level} {tokens : List Token} {code : Code} (h : Loose level tokens code) :
    Sends level tokens code := by
  induction h with
  | nothing => exact fun y _ => ⟨y, rfl, .refl y⟩
  | number n _ ih =>
    intro y hy
    obtain ⟨y1, h1, hy1⟩ := ih y hy
    rw [hy1.eq_of_factor] at h1
    refine ⟨_, ?_, .refl _⟩
    rw [feed_append, h1, List.reverse_concat]
    rfl
  | @group tokens inner code code' _ _ iht ihg =>
    intro y hy
    obtain ⟨y1, h1, hy1⟩ := iht y hy
    rw [hy1.eq_of_factor] at h1
    refine ⟨_, ?_, .refl _⟩
    rw [feed_append, h1, List.reverse_append, List.append_assoc]
    exact feed_group ihg _
  | ofFactor _ ih =>
    intro y hy
    obtain ⟨y', h, hy'⟩ := ih y (hy.mono (by decide))
    exact ⟨y', h, hy'.mono (by decide)⟩
  | ofProduct _ ih =>
    intro y hy
    obtain ⟨y', h, hy'⟩ := ih y (hy.mono (by decide))
    exact ⟨y', h, hy'.mono (by decide)⟩
  | @product op _ _ _ _ hop _ _ ihl ihr =>
    have hp : op.precedence = Level.product.precedence := by rcases hop with rfl | rfl <;> rfl
    exact sends_binary hp (by decide) ihl ihr
  | @sum op _ _ _ _ hop _ _ ihl ihr =>
    have hp : op.precedence = Level.sum.precedence := by rcases hop with rfl | rfl <;> rfl
    exact sends_binary hp (by decide) ihl ihr

end Yard

/-- Loosely formed tokens become their code. -/
theorem Code.ofTokens_of_loose {tokens : List Token} {code : Code} (h : Loose .sum tokens code) :
    Code.ofTokens tokens = .ok code := by
  obtain ⟨y, hf, hy⟩ := Yard.sends_of_loose h Yard.empty (fun op hop => by simp [Yard.empty] at hop)
  unfold Code.ofTokens
  rw [hf]
  show Yard.finish y.emitted y.pending = _
  rw [hy.finish_eq]
  simp [Yard.empty, Yard.finish]

/-! ## Sentences -/

/-- The code of a sentence's loose form is the post-order of its tree. -/
theorem loose_of_derives {level : Level} {tokens : List Token} {e : Expr} (h : Derives level tokens e) :
    Loose level tokens e.postorder := by
  induction h with
  | number n => exact .number n .nothing
  | group _ ih => exact .group .nothing ih
  | ofFactor _ ih => exact .ofFactor ih
  | ofProduct _ ih => exact .ofProduct ih
  | product hop _ _ ihl ihr => exact .product hop ihl ihr
  | sum hop _ _ ihl ihr => exact .sum hop ihl ihr

/-- A sentence becomes the post-order of its tree. -/
theorem Code.ofTokens_of_derives {tokens : List Token} {e : Expr} (h : Derives .sum tokens e) :
    Code.ofTokens tokens = .ok e.postorder :=
  Code.ofTokens_of_loose (loose_of_derives h)

/-! ## One tree, one code -/

/-- Code that ends in the post-order of a tree can be read back from its end. -/
theorem Expr.postorder_append_inj {e e' : Expr} {front front' : Code}
    (h : front ++ e.postorder = front' ++ e'.postorder) : front = front' ∧ e = e' := by
  induction e generalizing e' front front' with
  | number n =>
    cases e' with
    | number m =>
      obtain ⟨hf, hn⟩ := List.append_inj' h rfl
      cases hn
      exact ⟨hf, rfl⟩
    | binary op left right =>
      have hlast := congrArg List.getLast? h
      simp [postorder] at hlast
  | binary op left right ihl ihr =>
    cases e' with
    | number m =>
      have hlast := congrArg List.getLast? h
      simp [postorder] at hlast
    | binary op' left' right' =>
      simp only [postorder, ← List.append_assoc] at h
      obtain ⟨hrest, hop⟩ := List.append_inj' h rfl
      cases hop
      obtain ⟨hleft, rfl⟩ := ihr hrest
      obtain ⟨hf, rfl⟩ := ihl hleft
      exact ⟨hf, rfl⟩

theorem Expr.postorder_injective {e e' : Expr} (h : e.postorder = e'.postorder) : e = e' :=
  (@postorder_append_inj _ _ [] [] h).2

/-- A sentence has one tree. -/
theorem Derives.unique {tokens : List Token} {e e' : Expr} (h : Derives .sum tokens e)
    (h' : Derives .sum tokens e') : e = e' := by
  have hcode := Code.ofTokens_of_derives h
  rw [Code.ofTokens_of_derives h', Except.ok.injEq] at hcode
  exact Expr.postorder_injective hcode.symm

theorem Operator.loose_or_tight (op : Operator) :
    (op = .add ∨ op = .subtract) ∨ (op = .multiply ∨ op = .divide) := by
  cases op <;> simp

/-- Of two operators between factors the second one goes first only if it binds tighter. -/
theorem Derives.two_operators (op op' : Operator) {a b c : List Token} {x y z : Expr}
    (ha : Derives .factor a x) (hb : Derives .factor b y) (hc : Derives .factor c z) :
    Derives .sum (a ++ .operator op :: (b ++ .operator op' :: c))
      (if op.precedence < op'.precedence then .binary op x (.binary op' y z)
        else .binary op' (.binary op x y) z) := by
  have hleft : (a ++ .operator op :: b) ++ .operator op' :: c = a ++ .operator op :: (b ++ .operator op' :: c) := by
    simp
  rcases op.loose_or_tight with h | h
  · rcases op'.loose_or_tight with h' | h'
    · rw [if_neg (by rcases h with rfl | rfl <;> rcases h' with rfl | rfl <;> decide), ← hleft]
      exact .sum h' (.sum h (.ofProduct (.ofFactor ha)) (.ofFactor hb)) (.ofFactor hc)
    · rw [if_pos (by rcases h with rfl | rfl <;> rcases h' with rfl | rfl <;> decide)]
      exact .sum h (.ofProduct (.ofFactor ha)) (.product h' (.ofFactor hb) hc)
  · rw [if_neg (by rcases h with rfl | rfl <;> cases op' <;> decide), ← hleft]
    rcases op'.loose_or_tight with h' | h'
    · exact .sum h' (.ofProduct (.product h (.ofFactor ha) hb)) (.ofFactor hc)
    · exact .ofProduct (.product h' (.product h (.ofFactor ha) hb) hc)

/-- Every sentence becomes the post-order of its tree, of which it has exactly one.
So sentences have equal code exactly when they have equal trees, and parentheses
only matter as far as they change the tree. Operators of equal precedence group to
the left, and a tighter one goes first. -/
theorem Code.ofTokens_sentences :
    (∀ (tokens : List Token) (e : Expr), Derives .sum tokens e → Code.ofTokens tokens = .ok e.postorder) ∧
      (∀ tokens : List Token, Sentence tokens → ∃! e, Derives .sum tokens e) ∧
      (∀ (tokens tokens' : List Token) (e e' : Expr), Derives .sum tokens e → Derives .sum tokens' e' →
        (Code.ofTokens tokens = Code.ofTokens tokens' ↔ e = e')) ∧
      ∀ (op op' : Operator) (a b c : List Token) (x y z : Expr),
        Derives .factor a x → Derives .factor b y → Derives .factor c z →
        Code.ofTokens (a ++ .operator op :: (b ++ .operator op' :: c)) =
          .ok (if op.precedence < op'.precedence then Expr.binary op x (.binary op' y z)
            else .binary op' (.binary op x y) z).postorder := by
  refine ⟨fun _ _ h => ofTokens_of_derives h, ?_, ?_, ?_⟩
  · rintro tokens ⟨e, h⟩
    exact ⟨e, h, fun e' h' => h'.unique h⟩
  · intro tokens tokens' e e' h h'
    rw [ofTokens_of_derives h, ofTokens_of_derives h', Except.ok.injEq]
    exact ⟨Expr.postorder_injective, fun he => he ▸ rfl⟩
  · intro op op' a b c x y z ha hb hc
    exact ofTokens_of_derives (ha.two_operators op op' hb hc)

/-- Redundant parentheses, equal and different precedence: `((10)) - 3 - 2 * 4`. -/
theorem Code.ofTokens_sentences_mixed :
    Code.ofTokens [.leftParen, .leftParen, .number 10, .rightParen, .rightParen, .operator .subtract, .number 3,
        .operator .subtract, .number 2, .operator .multiply, .number 4] =
      .ok [.push 10, .push 3, .apply .subtract, .push 2, .push 4, .apply .multiply, .apply .subtract] :=
  Code.ofTokens_sentences.1 _
    (.binary .subtract (.binary .subtract (.number 10) (.number 3)) (.binary .multiply (.number 2) (.number 4)))
    (.sum (.inr rfl)
      (.sum (.inr rfl)
        (.ofProduct (.ofFactor (.group (.ofProduct (.ofFactor (.group (.ofProduct (.ofFactor (.number 10)))))))))
        (.ofFactor (.number 3)))
      (.product (.inl rfl) (.ofFactor (.number 2)) (.number 4)))

end Reckon
