import Reckon.Proofs.Execution
import Reckon.Proofs.Reordering
/-!
# What code comes to

Code has a value if it is the post-order of a tree that has one. Otherwise it
fails, and `run_outcome` says how: it divides by zero if that is what it meets
first, and else the number of operands is wrong somewhere.

Up to its first fault, whatever the machine has run lists trees one after the
other. So a division that fails has two trees in front of it, and what follows
it does not matter.
-/

namespace Reckon

namespace Machine

/-! ## Taking operands off the stack -/

/-- Takes the top number off a stack. -/
def pop : List Float → Except Fault (Float × List Float)
  | x :: stack => .ok (x, stack)
  | [] => .error .invalidExpression

/-- Applies an operator to two numbers that are taken off the stack one after the
other, once it is known to hold two. -/
def applyPopped (op : Operator) (stack : List Float) : Except Fault (List Float) :=
  if stack.length < 2 then .error .invalidExpression
  else do
    let (right, stack) ← pop stack
    let (left, stack) ← pop stack
    let x ← op.apply left right
    return x :: stack

theorem step_apply_eq (op : Operator) (stack : List Float) : step stack (.apply op) = applyPopped op stack := by
  rcases stack with _ | ⟨right, _ | ⟨left, stack⟩⟩
  · rfl
  · rfl
  · show (op.apply left right).map (· :: stack) = (op.apply left right).bind fun x => .ok (x :: stack)
    cases op.apply left right <;> rfl

/-- No operand is missing once the stack is known to hold two numbers. -/
theorem pop_of_two_le {stack : List Float} (h : 2 ≤ stack.length) :
    ∃ right left rest, pop stack = .ok (right, left :: rest) ∧ pop (left :: rest) = .ok (left, rest) := by
  rcases stack with _ | ⟨right, _ | ⟨left, stack⟩⟩
  · simp at h
  · simp at h
  · exact ⟨right, left, stack, rfl, rfl⟩

/-! ## Divisions by zero -/

/-- The code comes to a division by zero: a front of it lists trees that have
values and ends with a division of the last but one by the last, whose value
equals zero. -/
def DividesByZero (code : Code) : Prop :=
  ∃ (trees : List Expr) (left right : Expr) (y : Float),
    trees.flatMap Expr.postorder ++ left.postorder ++ right.postorder ++ [.apply .divide] <+: code ∧
      (∀ e ∈ trees, ∃ x, e.value = .ok x) ∧ (∃ x, left.value = .ok x) ∧ right.value = .ok y ∧ (y == 0.0) = true

theorem DividesByZero.mono {front code : Code} (h : DividesByZero front) (hf : front <+: code) :
    DividesByZero code := by
  obtain ⟨trees, left, right, y, hp, hrest⟩ := h
  exact ⟨trees, left, right, y, hp.trans hf, hrest⟩

/-- Trees with values put these on the stack. -/
theorem runOn_trees {trees : List Expr} (h : ∀ e ∈ trees, ∃ x, e.value = .ok x) (stack : List Float) :
    ∃ stack', runOn stack (trees.flatMap Expr.postorder) = .ok stack' := by
  induction trees generalizing stack with
  | nil => exact ⟨stack, rfl⟩
  | cons e trees ih =>
    rw [List.forall_mem_cons] at h
    obtain ⟨⟨x, hx⟩, htrees⟩ := h
    rw [List.flatMap_cons, runOn_postorder_append hx]
    exact ih htrees (x :: stack)

theorem runOn_of_dividesByZero {code : Code} (h : DividesByZero code) :
    runOn [] code = .error .divisionByZero := by
  obtain ⟨trees, left, right, y, ⟨back, rfl⟩, htrees, ⟨x, hx⟩, hy, hzero⟩ := h
  obtain ⟨stack, hstack⟩ := runOn_trees htrees []
  have hdivide : step (y :: x :: stack) (.apply .divide) = .error .divisionByZero := by
    simp only [step, Operator.apply, hzero, if_true]
    rfl
  simp only [List.append_assoc]
  rw [runOn_append, hstack]
  show runOn stack _ = _
  rw [runOn_postorder_append hx, runOn_postorder_append hy, List.singleton_append, runOn_cons, hdivide]
  rfl

/-- An operator that divides by zero finds two trees in front of it. -/
theorem dividesByZero_of_step {code : Code} {stack : List Float} {i : Instruction} (hr : runOn [] code = .ok stack)
    (hs : step stack i = .error .divisionByZero) : DividesByZero (code ++ [i]) := by
  obtain ⟨trees, rfl, hvalues⟩ := runOn_nil_eq_ok hr
  cases i with
  | push n => cases hs
  | apply op =>
    rcases stack with _ | ⟨y, _ | ⟨x, stack⟩⟩
    · cases hs
    · cases hs
    · obtain ⟨right, trees, rfl, hright, htrees⟩ := List.map_eq_cons_iff.1 hvalues
      obtain ⟨left, trees, rfl, hleft, hrest⟩ := List.map_eq_cons_iff.1 htrees
      cases ha : op.apply x y with
      | ok z => simp only [step, ha] at hs; cases hs
      | error fault =>
        obtain ⟨-, rfl, hzero⟩ := Operator.apply_error ha
        refine ⟨trees.reverse, left, right, y, ?_, ?_, ⟨x, hleft⟩, hright, hzero⟩
        · simp
        · intro e he
          have hmem : e.value ∈ stack.map Except.ok := by
            rw [← hrest]
            exact List.mem_map_of_mem (List.mem_reverse.1 he)
          obtain ⟨z, -, hz⟩ := List.mem_map.1 hmem
          exact ⟨z, hz.symm⟩

theorem dividesByZero_of_runOn {code : Code} (h : runOn [] code = .error .divisionByZero) : DividesByZero code := by
  induction code using List.reverseRecOn with
  | nil => cases h
  | append_singleton code i ih =>
    rw [runOn_append] at h
    cases hr : runOn [] code with
    | error fault =>
      rw [hr] at h
      cases h
      exact (ih hr).mono (List.prefix_append code [i])
    | ok stack =>
      rw [hr] at h
      change runOn stack [i] = _ at h
      rw [runOn_cons] at h
      cases hs : step stack i with
      | ok stack' => rw [hs] at h; cases h
      | error fault =>
        rw [hs] at h
        cases h
        exact dividesByZero_of_step hr hs

theorem run_eq_divisionByZero_iff (code : Code) : run code = .error .divisionByZero ↔ DividesByZero code := by
  unfold run
  constructor
  · intro h
    apply dividesByZero_of_runOn
    cases hr : runOn [] code with
    | error fault => rw [hr] at h; cases h; rfl
    | ok stack =>
      rw [hr] at h
      rcases stack with _ | ⟨x, _ | ⟨y, stack⟩⟩ <;> cases h
  · intro h
    rw [runOn_of_dividesByZero h]
    rfl

/-! ## The three outcomes -/

/-- The code is the post-order of a tree with the value `v`. -/
def Denotes (code : Code) (v : Float) : Prop := ∃ e : Expr, code = e.postorder ∧ e.value = .ok v

/-- Whatever code it is, exactly one of three things happens. It is the post-order
of a tree, of one only, and has the value of that; or it comes to a division by
zero, and nothing behind that is looked at; or it is neither, and its operands do
not come down to one value. An operator looks whether there are two numbers for it
and then never misses one of them. -/
theorem run_outcome (code : Code) :
    ((∃ v, Denotes code v ∧ run code = .ok v) ∧ (∃! e : Expr, code = e.postorder) ∧ ¬ DividesByZero code ∨
      (¬ ∃ v, Denotes code v) ∧ DividesByZero code ∧ run code = .error .divisionByZero ∨
      (¬ ∃ v, Denotes code v) ∧ ¬ DividesByZero code ∧ run code = .error .invalidExpression) ∧
    ∀ (op : Operator) (stack : List Float), step stack (.apply op) = applyPopped op stack ∧
      (2 ≤ stack.length →
        ∃ right left rest, pop stack = .ok (right, left :: rest) ∧ pop (left :: rest) = .ok (left, rest)) := by
  refine ⟨?_, fun op stack => ⟨step_apply_eq op stack, pop_of_two_le⟩⟩
  cases hr : run code with
  | ok v =>
    obtain ⟨e, rfl, he⟩ := (run_eq_ok_iff code v).1 hr
    have hdivides : ¬ DividesByZero e.postorder := by
      rw [← run_eq_divisionByZero_iff, hr]
      simp
    exact .inl ⟨⟨v, ⟨e, rfl, he⟩, rfl⟩, ⟨e, rfl, fun e' h => (Expr.postorder_injective h).symm⟩, hdivides⟩
  | error fault =>
    have hdenotes : ¬ ∃ v, Denotes code v := by
      rintro ⟨v, hv⟩
      rw [(run_eq_ok_iff code v).2 hv] at hr
      cases hr
    rcases run_error hr with rfl | rfl
    · refine .inr (.inr ⟨hdenotes, ?_, rfl⟩)
      rw [← run_eq_divisionByZero_iff, hr]
      simp
    · exact .inr (.inl ⟨hdenotes, (run_eq_divisionByZero_iff code).1 hr, rfl⟩)

end Machine

end Reckon
