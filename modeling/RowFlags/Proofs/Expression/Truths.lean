import Mathlib.Data.List.Forall2
import RowFlags.Proofs.Expression.Compilation

/-!
# Truths of clauses

A truth is a Boolean or NULL, by which it stays unknown. Where the clauses of a list have truths for
values, so has the list, and it counts as true exactly if its conjunction makes it so of what its
clauses count as (`Expr.tells_clauses`). How many clauses there are, and whether a truth that is not
known shows in the value of the list, makes no difference to what it counts as.
-/

set_option autoImplicit false

namespace RowFlags

/-- A Boolean, or a truth that is not known. -/
def Value.IsTruth (v : Value) : Prop := v = .null ∨ ∃ b, v = .boolean b

namespace Conjunction

theorem holds_cons (c : Conjunction) (truth : Bool) (truths : List Bool) :
    c.holds (truth :: truths) = c.onBool truth (c.holds truths) := by
  cases c <;> rfl

theorem holds_append (c : Conjunction) (front back : List Bool) :
    c.holds (front ++ back) = c.onBool (c.holds front) (c.holds back) := by
  cases c <;> simp [holds, onBool]

@[simp] theorem holds_singleton (c : Conjunction) (truth : Bool) : c.holds [truth] = truth := by
  cases c <;> simp [holds]

end Conjunction

/-- An unknown operand counts as false in the truth of two clauses, although it may leave their
value unknown. -/
theorem BinaryFunction.conjoin_of_isTruth (c : Conjunction) {v w : Value} (hv : v.IsTruth)
    (hw : w.IsTruth) :
    ∃ u, conjoin c v w = .ok u ∧ u.IsTruth ∧ u.truthy = c.onBool v.truthy w.truthy := by
  rcases hv with rfl | ⟨a, rfl⟩ <;> rcases hw with rfl | ⟨b, rfl⟩
  · exact ⟨.null, rfl, .inl rfl, by cases c <;> rfl⟩
  · cases c <;> cases b
    · exact ⟨.boolean false, rfl, .inr ⟨_, rfl⟩, rfl⟩
    · exact ⟨.null, rfl, .inl rfl, rfl⟩
    · exact ⟨.null, rfl, .inl rfl, rfl⟩
    · exact ⟨.boolean true, rfl, .inr ⟨_, rfl⟩, rfl⟩
  · cases c <;> cases a
    · exact ⟨.boolean false, rfl, .inr ⟨_, rfl⟩, rfl⟩
    · exact ⟨.null, rfl, .inl rfl, rfl⟩
    · exact ⟨.null, rfl, .inl rfl, rfl⟩
    · exact ⟨.boolean true, rfl, .inr ⟨_, rfl⟩, rfl⟩
  · exact ⟨.boolean (c.onBool a b), rfl, .inr ⟨_, rfl⟩, rfl⟩

/-- Clauses that are truths combine to a truth, of whatever number they are. -/
theorem Conjunction.combine_of_isTruth (c : Conjunction) {values : List Value}
    (h : ∀ v ∈ values, v.IsTruth) (hne : values ≠ []) :
    ∃ v, c.combine values = .ok v ∧ v.IsTruth ∧ v.truthy = c.holds (values.map Value.truthy) := by
  unfold combine
  split
  · exact absurd rfl hne
  · next first last =>
    obtain ⟨u, hu, htruth, htruthy⟩ :=
      BinaryFunction.conjoin_of_isTruth c (h last (by simp)) (h first (by simp))
    refine ⟨u, hu, htruth, ?_⟩
    rw [htruthy]
    cases c
    · exact (Bool.and_comm _ _).trans (by simp [holds])
    · exact (Bool.or_comm _ _).trans (by simp [holds])
  · exact ⟨_, rfl, .inr ⟨_, rfl⟩, rfl⟩

namespace Expr

variable {ε : Type} (raise : EvalError → ε) (lookup : Column → Except ε Value)

/-- The expression compiles, and its value is a truth that counts as the given one. -/
def Tells (e : Expr) (truth : Bool) : Prop :=
  (∃ code, e.compile = .ok code) ∧
    ∃ v : Value, e.interpret (m := Id) raise lookup = pure v ∧ v.IsTruth ∧ v.truthy = truth

variable {raise lookup}

theorem compile_clauses {op : Conjunction} {items : List Expr} {code : List Instruction}
    (h : compileAll items = .ok code) : ∃ code, (clauses op items).compile = .ok code := by
  cases items with
  | nil => exact ⟨_, rfl⟩
  | cons item rest =>
    obtain ⟨operator, hoperator⟩ := exists_clauseOperator op rest.length
    rw [compile, h, Outcome.ok_bind, List.length_cons, hoperator]
    · exact ⟨_, rfl⟩
    · intro hnil
      cases hnil

/-- Expressions that each tell a truth have truths for values. -/
theorem exists_values_of_tells {items : List Expr} {truths : List Bool}
    (h : List.Forall₂ (Tells raise lookup) items truths) :
    (∃ code, compileAll items = .ok code) ∧
      ∃ values, interpretAll (m := Id) raise lookup items = pure values ∧
        (∀ v ∈ values, v.IsTruth) ∧ values.map Value.truthy = truths := by
  induction h with
  | nil => exact ⟨⟨[], rfl⟩, [], rfl, List.forall_mem_nil _, rfl⟩
  | cons hitem _ ih =>
    obtain ⟨⟨front, hfront⟩, v, hv, htruth, rfl⟩ := hitem
    obtain ⟨⟨back, hback⟩, values, hvalues, htruths, rfl⟩ := ih
    refine ⟨⟨front ++ back, ?_⟩, v :: values, ?_, ?_, rfl⟩
    · rw [compileAll, hfront, hback]
      rfl
    · rw [interpretAll, hv, hvalues]
      rfl
    · exact List.forall_mem_cons.2 ⟨htruth, htruths⟩

/-- No clauses at all are true. -/
theorem tells_noClauses (op : Conjunction) : Tells raise lookup (.clauses op []) true :=
  ⟨⟨_, rfl⟩, .boolean true, rfl, .inr ⟨true, rfl⟩, rfl⟩

/-- Clauses that each tell a truth tell together what their conjunction makes of it. Only where
there are none would a disjunction make it false. -/
theorem tells_clauses {op : Conjunction} {items : List Expr} {truths : List Bool}
    (h : List.Forall₂ (Tells raise lookup) items truths) (hne : op = .or → items ≠ []) :
    Tells raise lookup (.clauses op items) (op.holds truths) := by
  by_cases hnil : items = []
  · subst hnil
    cases h
    cases op with
    | and => exact tells_noClauses .and
    | or => exact absurd rfl (hne rfl)
  · obtain ⟨⟨code, hcode⟩, values, hvalues, htruths, rfl⟩ := exists_values_of_tells h
    have hvaluesNe : values ≠ [] := by
      rintro rfl
      cases h
      exact hnil rfl
    obtain ⟨v, hv, htruth, htruthy⟩ := op.combine_of_isTruth htruths hvaluesNe
    refine ⟨compile_clauses hcode, v, ?_, htruth, htruthy⟩
    rw [interpret, hvalues, pure_bind, hv]
    rfl

end Expr

end RowFlags
