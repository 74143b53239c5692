import Mathlib.Data.List.Induction
import Reckon.Expr
import Reckon.Machine
/-!
# Running code

The post-order of a tree leaves the tree's value on top of any stack, or stops
with the tree's fault, and no other code has a value. Whatever code it runs, the
machine has two ways to fail.
-/

namespace Reckon

/-- Only a division fails, and only when its right operand equals zero. -/
theorem Operator.apply_error {op : Operator} {x y : Float} {fault : Fault} (h : op.apply x y = .error fault) :
    fault = .divisionByZero ∧ op = .divide ∧ (y == 0.0) = true := by
  cases op with
  | divide =>
    simp only [Operator.apply] at h
    split at h
    · next hy => cases h; exact ⟨rfl, rfl, hy⟩
    · cases h
  | _ => cases h

namespace Machine

theorem runOn_cons (stack : List Float) (i : Instruction) (code : Code) :
    runOn stack (i :: code) = (step stack i).bind (runOn · code) := by
  simp only [runOn, List.foldlM_cons]
  rfl

/-! ## Faults -/

theorem step_error {stack : List Float} {i : Instruction} {fault : Fault} (h : step stack i = .error fault) :
    fault = .invalidExpression ∨ fault = .divisionByZero := by
  cases i with
  | push n => cases h
  | apply op =>
    rcases stack with _ | ⟨right, _ | ⟨left, rest⟩⟩
    · cases h; exact .inl rfl
    · cases h; exact .inl rfl
    · simp only [step] at h
      cases ha : op.apply left right with
      | ok x => rw [ha] at h; cases h
      | error fault' =>
        rw [ha] at h
        cases h
        exact .inr (Operator.apply_error ha).1

theorem runOn_error {stack : List Float} {code : Code} {fault : Fault} (h : runOn stack code = .error fault) :
    fault = .invalidExpression ∨ fault = .divisionByZero := by
  induction code generalizing stack with
  | nil => cases h
  | cons i code ih =>
    rw [runOn_cons] at h
    cases hs : step stack i with
    | error fault' =>
      rw [hs] at h
      cases h
      exact step_error hs
    | ok stack' => rw [hs] at h; exact ih h

theorem run_error {code : Code} {fault : Fault} (h : run code = .error fault) :
    fault = .invalidExpression ∨ fault = .divisionByZero := by
  unfold run at h
  cases hr : runOn [] code with
  | error fault' =>
    rw [hr] at h
    cases h
    exact runOn_error hr
  | ok stack =>
    rw [hr] at h
    rcases stack with _ | ⟨x, _ | ⟨y, stack⟩⟩ <;> cases h
    · exact .inl rfl
    · exact .inl rfl

/-! ## Trees -/

/-- The code of a tree puts its value on the stack and leaves what is below alone. -/
theorem runOn_postorder (e : Expr) (stack : List Float) :
    runOn stack e.postorder = e.value.map (· :: stack) := by
  induction e generalizing stack with
  | number n => rfl
  | binary op left right ihl ihr =>
    rw [Expr.postorder, List.append_assoc, runOn_append, ihl]
    rw [Expr.value]
    cases left.value with
    | error fault => rfl
    | ok x =>
      show runOn (x :: stack) (right.postorder ++ [.apply op]) = _
      rw [runOn_append, ihr]
      cases right.value with
      | error fault => rfl
      | ok y =>
        show runOn (y :: x :: stack) [.apply op] = (op.apply x y).map (· :: stack)
        rw [runOn_cons]
        show ((op.apply x y).map (· :: stack)).bind _ = _
        cases op.apply x y <;> rfl

/-- Code behind a tree starts with the tree's value on the stack. -/
theorem runOn_postorder_append {e : Expr} {x : Float} (h : e.value = .ok x) (stack : List Float) (code : Code) :
    runOn stack (e.postorder ++ code) = runOn (x :: stack) code := by
  rw [runOn_append, runOn_postorder, h]
  rfl

theorem run_postorder (e : Expr) : run e.postorder = e.value := by
  unfold run
  rw [runOn_postorder]
  cases e.value <;> rfl

/-! ## Code that goes through -/

/-- Code that goes through lists trees one after the other, and their values are
what it leaves. -/
theorem runOn_nil_eq_ok {code : Code} {stack : List Float} (h : runOn [] code = .ok stack) :
    ∃ trees : List Expr, code = trees.reverse.flatMap Expr.postorder ∧
      trees.map Expr.value = stack.map Except.ok := by
  induction code using List.reverseRecOn generalizing stack with
  | nil =>
    cases h
    exact ⟨[], rfl, rfl⟩
  | append_singleton code i ih =>
    rw [runOn_append] at h
    cases hr : runOn [] code with
    | error fault => rw [hr] at h; cases h
    | ok stack' =>
      obtain ⟨trees, rfl, hvalues⟩ := ih hr
      rw [hr] at h
      change runOn stack' [i] = .ok stack at h
      rw [runOn_cons] at h
      cases i with
      | push n =>
        cases h
        exact ⟨.number n :: trees, by simp [Expr.postorder], by simp [Expr.value, hvalues]⟩
      | apply op =>
        rcases stack' with _ | ⟨y, _ | ⟨x, stack'⟩⟩
        · cases h
        · cases h
        · -- The operator takes the two trees that were listed last.
          rcases trees with _ | ⟨right, _ | ⟨left, trees⟩⟩
          · cases hvalues
          · simp at hvalues
          · simp only [List.map_cons, List.cons.injEq] at hvalues
            obtain ⟨hright, hleft, hvalues⟩ := hvalues
            cases ha : op.apply x y with
            | error fault => simp only [step, ha] at h; cases h
            | ok z =>
              simp only [step, ha] at h
              cases h
              refine ⟨.binary op left right :: trees, by simp [Expr.postorder], ?_⟩
              have hvalue : (Expr.binary op left right).value = .ok z := by
                rw [Expr.value, hleft, hright]
                exact ha
              rw [List.map_cons, List.map_cons, hvalue, hvalues]

/-- Code has a value exactly if it is the post-order of a tree with that value. -/
theorem run_eq_ok_iff (code : Code) (v : Float) :
    run code = .ok v ↔ ∃ e : Expr, code = e.postorder ∧ e.value = .ok v := by
  constructor
  · intro h
    unfold run at h
    cases hr : runOn [] code with
    | error fault => rw [hr] at h; cases h
    | ok stack =>
      rw [hr] at h
      obtain ⟨trees, rfl, hvalues⟩ := runOn_nil_eq_ok hr
      rcases stack with _ | ⟨x, _ | ⟨y, stack⟩⟩
      · cases h
      · cases h
        obtain ⟨e, rfl, he⟩ := List.map_eq_singleton_iff.1 hvalues
        exact ⟨e, by simp, he⟩
      · cases h
  · rintro ⟨e, rfl, he⟩
    rw [run_postorder, he]

end Machine

end Reckon
