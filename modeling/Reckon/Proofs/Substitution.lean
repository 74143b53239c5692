import Reckon.Proofs.Execution
import Reckon.Proofs.Reordering
/-!
# A group and its value

A group in parentheses may be replaced by the number that it comes to, wherever it
stands. For the yard a group is an operand like a number: it adds code to what was
sent out and leaves everything else as it was, and what was sent out is never looked
at again. The machine in turn sees only what a piece of code does to the stack. So
the two sides fail together, or differ in one place of the code where the difference
does not matter. Nothing is asked of the tokens around the group.
-/

namespace Reckon

namespace Yard

/-! ## What was sent out is not looked at -/

/-- The yard behind code that was sent out earlier. -/
def behind (earlier : Code) (y : Yard) : Yard := ⟨y.emitted ++ earlier, y.pending⟩

theorem Yields.behind {bound : Nat} {y z : Yard} (h : Yields bound y z) (earlier : Code) :
    Yields bound (behind earlier y) (behind earlier z) := by
  induction h with
  | refl => exact .refl _
  | send hop _ ih => exact .send hop ih

theorem yield_behind (op : Operator) (emitted earlier : Code) (pending : List Pending) :
    yield op (emitted ++ earlier) pending = behind earlier (yield op emitted pending) := by
  obtain ⟨hz, hl⟩ := yield_spec op emitted pending
  exact ((hz.behind earlier).yield_eq (Nat.le_refl _)).trans hl.yield_eq

theorem close_behind (emitted earlier : Code) (pending : List Pending) :
    close (emitted ++ earlier) pending = (close emitted pending).map (behind earlier) := by
  rcases leftParen_or_end emitted pending with ⟨emitted', pending', hy, hc, -⟩ | ⟨emitted', hy, hc, -⟩
  · rw [hc]
    exact (hy.behind earlier).close_eq
  · rw [hc]
    exact (hy.behind earlier).close_eq

theorem finish_behind (emitted earlier : Code) (pending : List Pending) :
    finish (emitted ++ earlier) pending = (finish emitted pending).map (earlier.reverse ++ ·) := by
  rcases leftParen_or_end emitted pending with ⟨emitted', pending', hy, -, hf⟩ | ⟨emitted', hy, -, hf⟩
  · rw [hf]
    exact (hy.behind earlier).finish_eq
  · rw [hf]
    show _ = Except.ok (earlier.reverse ++ emitted'.reverse)
    rw [← List.reverse_append]
    exact (hy.behind earlier).finish_eq

theorem step_behind (earlier : Code) (y : Yard) (token : Token) :
    (behind earlier y).step token = (y.step token).map (behind earlier) := by
  cases token with
  | number n => rfl
  | leftParen => rfl
  | rightParen => exact close_behind y.emitted earlier y.pending
  | operator op =>
    have hy := yield_behind op y.emitted earlier y.pending
    simp only [step, behind] at hy ⊢
    rw [hy]
    rfl

theorem feed_behind (earlier : Code) (y : Yard) (tokens : List Token) :
    (behind earlier y).feed tokens = (y.feed tokens).map (behind earlier) := by
  induction tokens generalizing y with
  | nil => rfl
  | cons token tokens ih =>
    rw [feed_cons, feed_cons, step_behind]
    cases y.step token with
    | error fault => rfl
    | ok z => exact ih z

/-! ## Operands -/

/-- The tokens send out their code and leave the yard otherwise as it was. -/
def Operand (tokens : List Token) (code : Code) : Prop :=
  ∀ y : Yard, y.feed tokens = .ok ⟨code.reverse ++ y.emitted, y.pending⟩

theorem operand_number (n : Nat) : Operand [.number n] [.push n] := fun _ => rfl

theorem operand_group {inner : List Token} {code : Code} (h : Loose .sum inner code) :
    Operand (.leftParen :: (inner ++ [.rightParen])) code :=
  feed_group (sends_of_loose h)

end Yard

/-- Behind an operand the yard goes on as if nothing had been sent out before it. -/
theorem Code.ofTokens_operand {before tokens : List Token} {code : Code} {y : Yard}
    (hb : Yard.empty.feed before = .ok y) (h : Yard.Operand tokens code) (after : List Token) :
    ofTokens (before ++ (tokens ++ after)) =
      ((Yard.feed ⟨[], y.pending⟩ after).bind fun z => Yard.finish z.emitted z.pending).map
        fun back => y.emitted.reverse ++ (code ++ back) := by
  have hoperand : y.feed tokens = .ok (Yard.behind (code.reverse ++ y.emitted) ⟨[], y.pending⟩) := h y
  rw [ofTokens, Yard.feed_append, hb]
  show (y.feed (tokens ++ after)).bind _ = _
  rw [Yard.feed_append, hoperand]
  show ((Yard.behind _ _).feed after).bind _ = _
  rw [Yard.feed_behind]
  cases Yard.feed ⟨[], y.pending⟩ after with
  | error fault => rfl
  | ok z =>
    show Yard.finish (z.emitted ++ _) z.pending = (Yard.finish z.emitted z.pending).map _
    rw [Yard.finish_behind]
    simp

/-- What cannot be taken in fails whatever follows. -/
theorem Code.ofTokens_of_error {before : List Token} {fault : Fault} (hb : Yard.empty.feed before = .error fault)
    (after : List Token) : ofTokens (before ++ after) = .error fault := by
  rw [ofTokens, Yard.feed_append, hb]
  rfl

/-- The code sent out before an operand holds the numbers before it. -/
theorem Code.numbers_before {before : List Token} {y : Yard} (h : Yard.empty.feed before = .ok y) :
    y.emitted.reverse.filterMap Instruction.number? = before.filterMap Token.number? := by
  rw [List.filterMap_reverse]
  exact Yard.numbers_feed h

/-- All operands fail at a place, and with the same fault, or the code around them is
the same, with that place behind the numbers of the tokens before it. -/
theorem Code.ofTokens_place (before after : List Token) :
    (∀ tokens code, Yard.Operand tokens code →
        ofTokens (before ++ (tokens ++ after)) = .error .mismatchedParentheses) ∨
      ∃ front back : Code, front.filterMap Instruction.number? = before.filterMap Token.number? ∧
        ∀ tokens code, Yard.Operand tokens code →
          ofTokens (before ++ (tokens ++ after)) = .ok (front ++ code ++ back) := by
  cases hb : Yard.empty.feed before with
  | error fault =>
    left
    intro tokens code _
    rw [ofTokens_of_error hb, (Yard.feed_error hb).1]
  | ok y =>
    cases hrest : (Yard.feed ⟨[], y.pending⟩ after).bind fun z => Yard.finish z.emitted z.pending with
    | error fault =>
      left
      intro tokens code h
      have herror : ofTokens (before ++ (tokens ++ after)) = .error fault := by
        rw [ofTokens_operand hb h, hrest]
        rfl
      rw [herror, (ofTokens_error herror).1]
    | ok back =>
      right
      refine ⟨y.emitted.reverse, back, numbers_before hb, ?_⟩
      intro tokens code h
      rw [ofTokens_operand hb h, hrest, List.append_assoc]
      rfl

/-- What stands around an operand becomes the same code around that of the operand,
or the same fault, whatever the operand is. -/
theorem Code.ofTokens_around (before after : List Token) :
    ∃ around : Except Fault (Code × Code), ∀ tokens code, Yard.Operand tokens code →
      ofTokens (before ++ (tokens ++ after)) = around.map fun sides => sides.1 ++ (code ++ sides.2) := by
  rcases ofTokens_place before after with herror | ⟨front, back, -, hok⟩
  · exact ⟨.error .mismatchedParentheses, herror⟩
  · refine ⟨.ok (front, back), ?_⟩
    intro tokens code h
    rw [hok tokens code h, List.append_assoc]
    rfl

namespace Machine

/-- Two pieces of code that do the same to every stack may stand for each other. -/
theorem run_congr {code code' : Code} (h : ∀ stack, runOn stack code = runOn stack code') (front back : Code) :
    run (front ++ (code ++ back)) = run (front ++ (code' ++ back)) := by
  unfold run
  rw [runOn_append, runOn_append]
  cases runOn [] front with
  | error fault => rfl
  | ok stack =>
    show (runOn stack (code ++ back)).bind result = (runOn stack (code' ++ back)).bind result
    rw [runOn_append, h, ← runOn_append]

/-- The code of a tree with a number for its value does what pushing the number does. -/
theorem runOn_postorder_eq_push {e : Expr} {n : Nat} (h : e.value = .ok (Float.ofNat n)) (stack : List Float) :
    runOn stack e.postorder = runOn stack [.push n] := by
  rw [runOn_postorder, h]
  rfl

end Machine

/-- A sentence in parentheses may be replaced by the number that is its value. What
stands before and behind it is arbitrary: the value stays the same if there is one,
and the fault does if there is none. -/
theorem Code.run_group_eq_run_number {inner : List Token} {e : Expr} {n : Nat} (hd : Derives .sum inner e)
    (hv : e.value = .ok (Float.ofNat n)) (before after : List Token) :
    (ofTokens (before ++ [.leftParen] ++ inner ++ [.rightParen] ++ after)).bind Machine.run =
      (ofTokens (before ++ [.number n] ++ after)).bind Machine.run := by
  obtain ⟨around, haround⟩ := ofTokens_around before after
  have hgroup := haround _ _ (Yard.operand_group (loose_of_derives hd))
  have hnumber := haround _ _ (Yard.operand_number n)
  simp only [List.append_assoc, List.cons_append, List.nil_append] at hgroup hnumber ⊢
  rw [hgroup, hnumber]
  cases around with
  | error fault => rfl
  | ok sides => exact Machine.run_congr (Machine.runOn_postorder_eq_push hv) sides.1 sides.2

/-- `7 - 2 * 3` comes to 1, so `8 / (7 - 2 * 3) + 5` is as good as `8 / 1 + 5`. -/
theorem Code.run_group_eq_run_number_divisor :
    Derives .sum [.number 7, .operator .subtract, .number 2, .operator .multiply, .number 3]
        (.binary .subtract (.number 7) (.binary .multiply (.number 2) (.number 3))) ∧
      (Expr.binary .subtract (.number 7) (.binary .multiply (.number 2) (.number 3))).value =
        .ok (Float.ofNat 1) ∧
      (ofTokens [.number 8, .operator .divide, .leftParen, .number 7, .operator .subtract, .number 2,
          .operator .multiply, .number 3, .rightParen, .operator .add, .number 5]).bind Machine.run =
        (ofTokens [.number 8, .operator .divide, .number 1, .operator .add, .number 5]).bind Machine.run := by
  have hd : Derives .sum [.number 7, .operator .subtract, .number 2, .operator .multiply, .number 3]
      (.binary .subtract (.number 7) (.binary .multiply (.number 2) (.number 3))) :=
    .sum (.inr rfl) (.ofProduct (.ofFactor (.number 7))) (.product (.inl rfl) (.ofFactor (.number 2)) (.number 3))
  have hv : (Expr.binary .subtract (.number 7) (.binary .multiply (.number 2) (.number 3))).value =
      .ok (Float.ofNat 1) := by decide +kernel
  exact ⟨hd, hv, run_group_eq_run_number hd hv [.number 8, .operator .divide] [.operator .add, .number 5]⟩

end Reckon
