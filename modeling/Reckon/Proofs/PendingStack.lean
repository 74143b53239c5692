import Mathlib.Data.List.Chain
import Reckon.Proofs.Reordering
/-!
# The shape of what is pending

What is pending are the left parentheses that are open, and operators between them.
An operator that lies on another one binds tighter, since it would have sent out any
other. There are two precedences, so between two parentheses at most two operators
wait, and how much is pending is bounded by how many parentheses are open.
-/

namespace Reckon

theorem Operator.precedence_range (op : Operator) : 0 < op.precedence ∧ op.precedence ≤ 2 := by
  cases op <;> decide

namespace Yard

theorem Yields.pending_suffix {bound : Nat} {y z : Yard} (h : Yields bound y z) : z.pending <:+ y.pending := by
  induction h with
  | refl => exact List.suffix_refl _
  | send _ _ ih => exact ih.trans (List.suffix_cons _ _)

/-! ## Tighter operators lie above looser ones -/

/-- Of two operators the upper one binds tighter; a parenthesis may lie on anything,
and anything on a parenthesis. -/
def Tighter (upper lower : Pending) : Prop :=
  ∀ op op', upper = .operator op → lower = .operator op' → op'.precedence < op.precedence

theorem isChain_tighter_step {y y' : Yard} {token : Token} (h : y.step token = .ok y')
    (hy : y.pending.IsChain Tighter) : y'.pending.IsChain Tighter := by
  cases takes_of_step h with
  | number n => exact hy
  | leftParen =>
    refine List.isChain_cons.2 ⟨?_, hy⟩
    intro lower _ op op' hparen
    cases hparen
  | rightParen hyields => exact (hy.suffix hyields.pending_suffix).tail
  | operator hyields hlooser =>
    refine List.isChain_cons.2 ⟨?_, hy.suffix hyields.pending_suffix⟩
    -- What is left on top is looser, or the operator would have sent it out.
    rintro lower hlower op op' hop rfl
    cases hop
    exact hlooser op' hlower

theorem isChain_tighter_feed {y y' : Yard} {tokens : List Token} (h : y.feed tokens = .ok y')
    (hy : y.pending.IsChain Tighter) : y'.pending.IsChain Tighter := by
  induction tokens generalizing y with
  | nil =>
    cases h
    exact hy
  | cons token tokens ih =>
    obtain ⟨z, hs, hz⟩ := of_feed_cons h
    exact ih hz (isChain_tighter_step hs hy)

/-! ## How much can be pending -/

/-- The precedence of an operator on top, and zero where there is none. -/
def topPrecedence : List Pending → Nat
  | .operator op :: _ => op.precedence
  | _ => 0

theorem topPrecedence_le (pending : List Pending) : topPrecedence pending ≤ 2 := by
  rcases pending with _ | ⟨_ | op, pending⟩
  · exact Nat.zero_le 2
  · exact Nat.zero_le 2
  · exact op.precedence_range.2

theorem topPrecedence_lt {op : Operator} {pending : List Pending}
    (h : (Pending.operator op :: pending).IsChain Tighter) : topPrecedence pending < op.precedence := by
  rcases pending with _ | ⟨_ | op', pending⟩
  · exact op.precedence_range.1
  · exact op.precedence_range.1
  · exact (List.isChain_cons.1 h).1 _ rfl op op' rfl rfl

/-- Above a parenthesis there is room for as many operators as precedences up to that
of the topmost one. -/
theorem length_le_of_isChain {pending : List Pending} (h : pending.IsChain Tighter) :
    pending.length ≤ 3 * pending.count .leftParen + topPrecedence pending := by
  induction pending with
  | nil => exact Nat.zero_le _
  | cons top pending ih =>
    have hrest := ih h.tail
    cases top with
    | leftParen =>
      have := topPrecedence_le pending
      rw [List.length_cons, List.count_cons_self]
      omega
    | operator op =>
      have hop : topPrecedence pending < (topPrecedence (.operator op :: pending)) := topPrecedence_lt h
      rw [List.length_cons, List.count_cons_of_ne (by simp)]
      omega

theorem pairwise_of_isChain {segment : List Operator} (h : (segment.map Pending.operator).IsChain Tighter) :
    segment.Pairwise fun upper lower => lower.precedence < upper.precedence := by
  have hneighbours : segment.IsChain fun upper lower => upper.precedence > lower.precedence :=
    ((List.isChain_map _).1 h).imp fun upper lower hlt => hlt upper lower rfl rfl
  have hchain : (segment.map Operator.precedence).IsChain (· > ·) := (List.isChain_map _).2 hneighbours
  exact List.pairwise_map.1 hchain.pairwise

/-- After any tokens that were taken in, which may be the first ones of more, the left
parentheses that are pending are those still open. A stretch of pending operators, as
between two parentheses or at an end, binds tighter from below to the top and so has
two operators at most. With `d` parentheses open, `3 * d + 2` entries at most are
pending. -/
theorem pending_of_feed {tokens : List Token} {y : Yard} (h : empty.feed tokens = .ok y) :
    y.pending.count .leftParen + tokens.count .rightParen = tokens.count .leftParen ∧
      (∀ (above below : List Pending) (segment : List Operator),
        y.pending = above ++ (segment.map .operator ++ below) →
        segment.reverse.Pairwise (fun lower upper => lower.precedence < upper.precedence) ∧ segment.length ≤ 2) ∧
      y.pending.length ≤ 3 * y.pending.count .leftParen + 2 := by
  have hchain : y.pending.IsChain Tighter := isChain_tighter_feed h List.isChain_nil
  refine ⟨?_, ?_, ?_⟩
  · have hopened := (opened_feed h).1
    have hempty : empty.opened = 0 := rfl
    rw [hempty, Nat.zero_add] at hopened
    exact hopened
  · intro above below segment hpending
    have hsegment : (segment.map Pending.operator).IsChain Tighter :=
      hchain.infix ⟨above, below, by rw [hpending, List.append_assoc]⟩
    refine ⟨List.pairwise_reverse.2 (pairwise_of_isChain hsegment), ?_⟩
    have hlength := length_le_of_isChain hsegment
    have hcount : (segment.map Pending.operator).count .leftParen = 0 := by simp [List.count_eq_zero]
    have htop := topPrecedence_le (segment.map Pending.operator)
    rw [List.length_map] at hlength
    omega
  · have hlength := length_le_of_isChain hchain
    have htop := topPrecedence_le y.pending
    omega

/-- After `1 + 2 * ( 3 - 4 /` one parenthesis is open, and as much as can be is pending. -/
theorem pending_of_feed_full :
    ∃ y : Yard, empty.feed [.number 1, .operator .add, .number 2, .operator .multiply, .leftParen, .number 3,
        .operator .subtract, .number 4, .operator .divide] = .ok y ∧
      y.pending = [.operator .divide, .operator .subtract, .leftParen, .operator .multiply, .operator .add] ∧
      y.pending.count .leftParen = 1 ∧ y.pending.length ≤ 5 ∧
      [Operator.subtract, .divide].Pairwise fun lower upper => lower.precedence < upper.precedence := by
  have hfeed : empty.feed [.number 1, .operator .add, .number 2, .operator .multiply, .leftParen, .number 3,
      .operator .subtract, .number 4, .operator .divide] =
      .ok ⟨[.push 4, .push 3, .push 2, .push 1],
        [.operator .divide, .operator .subtract, .leftParen, .operator .multiply, .operator .add]⟩ := rfl
  obtain ⟨hopen, hsegments, hlength⟩ := pending_of_feed hfeed
  exact ⟨_, hfeed, rfl, hopen, hlength,
    (hsegments [] [.leftParen, .operator .multiply, .operator .add] [.divide, .subtract] rfl).1⟩

end Yard

end Reckon
