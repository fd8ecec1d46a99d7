import RowFlags.Proofs.Expression.Nodes
import RowFlags.Proofs.Outcome

/-!
# What compiling refuses

A call of a database function and an operator of the user's own are refused where they stand, and
nothing else is: an operator that compiling makes itself always takes as many operands as there are.
So a tree compiles exactly if none of its nodes is refused, and otherwise it fails as the first
refused node in the order of `Expr.visited` says (`Program.ofExpr_refusals`).
-/

set_option autoImplicit false

namespace RowFlags

namespace Expr

/-- Why a node itself is refused, whatever its parts are. -/
def refusal? : Expr → Option EvalError
  | .call function arguments => some (.unsupportedCall (call function arguments).sql)
  | .binary (.custom operator) _ _ => some (.unsupportedOperator operator)
  | _ => none

theorem isCall_of_refusal? {e : Expr} (h : e.refusal? = none) : e.isCall = false := by
  cases e with
  | call function arguments => cases h
  | _ => rfl

theorem refusal?_ne_invalidArity (e : Expr) (f : Function) (n : Nat) :
    e.refusal? ≠ some (.invalidArity f n) := by
  unfold refusal?
  split <;> simp

/-- The result of going through the nodes in order: the first refusal, if there is one. -/
inductive Judged {α : Type} (nodes : List Expr) : Except EvalError α → Prop
  | ok {a : α} (h : nodes.findSome? refusal? = none) : Judged nodes (.ok a)
  | error {cause : EvalError} (h : nodes.findSome? refusal? = some cause) :
    Judged nodes (.error cause)

namespace Judged

variable {α β : Type} {front back nodes : List Expr}

theorem bind {x : Except EvalError α} {f : α → Except EvalError β} (hx : Judged front x)
    (hf : ∀ a, Judged back (f a)) : Judged (front ++ back) (x >>= f) := by
  cases hx with
  | @ok a h =>
    rw [Outcome.ok_bind]
    have hlater := hf a
    generalize f a = result at hlater ⊢
    cases hlater with
    | ok hback => exact .ok (by simp [h, hback])
    | error hback => exact .error (by simp [h, hback])
  | error h => exact .error (by simp [h])

theorem map {x : Except EvalError α} (hx : Judged nodes x) (f : α → β) :
    Judged nodes (f <$> x) := by
  cases hx with
  | ok h => exact .ok h
  | error h => exact .error h

/-- A node that is not refused itself leaves the result to the nodes after it. -/
theorem cons {e : Expr} {x : Except EvalError α} (h : e.refusal? = none) (hx : Judged nodes x) :
    Judged (e :: nodes) x := by
  cases hx with
  | ok hnodes => exact .ok (by simp [h, hnodes])
  | error hnodes => exact .error (by simp [h, hnodes])

end Judged

theorem judged_functionOf (op : BinaryOp) (left right : Expr) :
    Judged [binary op left right] (functionOf op) := by
  cases op with
  | custom operator => exact .error rfl
  | _ => exact .ok rfl

theorem refusal?_of_literal? {e : Expr} {v : Value} (h : e.literal? = some v) :
    e.refusal? = none := by
  unfold literal? at h
  split at h <;> cases h <;> rfl

mutual

/-- Compiling gives the first refusal among the nodes that it comes to. -/
theorem judged_compile : (e : Expr) → Judged e.visited e.compile
  | .column _ => .ok rfl
  | .literal _ => .ok rfl
  | .null => .ok rfl
  | .group items => by
    rw [visited, compile]
    refine .cons rfl ?_
    split
    · next values hvalues =>
      obtain ⟨hvisited, hliterals⟩ := visitedAll_of_literals hvalues
      rw [hvisited]
      refine .ok (List.findSome?_eq_none_iff.2 fun item hitem => ?_)
      obtain ⟨v, hv⟩ := hliterals item hitem
      exact refusal?_of_literal? hv
    · next hvalues =>
      match items, hvalues with
      | item :: rest, _ =>
        simp only [List.length_cons, Operator.make_reducer, Outcome.ok_bind]
        exact (judged_compileAll (item :: rest)).map _
  | .unary _ operand => .cons rfl ((judged_compile operand).map _)
  | .binary op left right => by
    rw [visited, compile]
    refine (judged_functionOf op left right).bind fun f => ?_
    refine (judged_compile right).bind fun rightCode => ?_
    exact (judged_compile left).map _
  | .test _ _ => .ok rfl
  | .clauses _ [] => .ok rfl
  | .clauses op (item :: rest) => by
    obtain ⟨operator, hoperator⟩ := exists_clauseOperator op rest.length
    rw [visited, compile, List.length_cons, hoperator]
    · exact .cons rfl ((judged_compileAll (item :: rest)).map _)
    · simp
  | .call _ _ => .error rfl

theorem judged_compileAll : (items : List Expr) → Judged (visitedAll items) (compileAll items)
  | [] => .ok rfl
  | item :: rest => by
    rw [visitedAll, compileAll]
    refine (judged_compile item).bind fun front => ?_
    exact (judged_compileAll rest).map _

end

/-- A tree compiles if none of the nodes that compiling comes to is refused. -/
theorem exists_compile_iff {e : Expr} :
    (∃ code, e.compile = .ok code) ↔ ∀ d ∈ e.visited, d.refusal? = none := by
  rw [← List.findSome?_eq_none_iff]
  have hjudged := judged_compile e
  generalize e.compile = result at hjudged
  cases hjudged with
  | ok h => simp [h]
  | error h => simp [h]

/-- Compiling comes to no call in a tree that compiles. -/
theorem isCall_of_compile {e : Expr} {code : List Instruction} (h : e.compile = .ok code) :
    ∀ d ∈ e.visited, d.isCall = false := fun d hd =>
  isCall_of_refusal? (exists_compile_iff.1 ⟨code, h⟩ d hd)

/-- What compiles has steps that compile. -/
theorem exists_compile_of_mem_steps {e part : Expr} (h : ∃ code, e.compile = .ok code)
    (hpart : part ∈ e.steps) : ∃ code, part.compile = .ok code := by
  rw [exists_compile_iff] at h ⊢
  exact fun d hd => h d (mem_visited_of_mem_steps hpart hd)

/-- No node is refused that is neither a call nor an operator of the user's own. -/
theorem refusal?_eq_none_iff {e : Expr} :
    e.refusal? = none ↔ (∀ function arguments, e ≠ .call function arguments) ∧
      ∀ operator left right, e ≠ .binary (.custom operator) left right := by
  unfold refusal?
  split
  · simp
  · simp
  · next hcall hcustom =>
    exact iff_of_true rfl ⟨fun f as h => hcall f as h, fun op l r h => hcustom op l r h⟩

/-- Where nothing is refused every node is visited, so no node anywhere is one to refuse. -/
theorem findSome?_visited_eq_none_iff {e : Expr} :
    e.visited.findSome? refusal? = none ↔
      (∀ function arguments, ¬ (call function arguments).StandsIn e) ∧
        ∀ operator left right, ¬ (binary (.custom operator) left right).StandsIn e := by
  rw [List.findSome?_eq_none_iff]
  constructor
  · intro h
    have hnode (d : Expr) (hd : d.StandsIn e) : d.refusal? = none :=
      h d (mem_visited_of_standsIn (fun c hc => isCall_of_refusal? (h c hc)) hd)
    refine ⟨fun f as hd => ?_, fun op l r hd => ?_⟩
    · cases hnode _ hd
    · cases hnode _ hd
  · rintro ⟨hcall, hcustom⟩ d hd
    have hd := standsIn_of_mem_visited hd
    refine refusal?_eq_none_iff.2 ⟨?_, ?_⟩
    · rintro f as rfl
      exact hcall f as hd
    · rintro op l r rfl
      exact hcustom op l r hd

end Expr

namespace Program

/-- A tree compiles exactly if no call of a database function and no operator of the user's own
stands in it, at any depth. Otherwise compiling fails as the first such node that it comes to says,
and never for the number of an operator's operands. -/
theorem ofExpr_refusals (e : Expr) :
    ((∃ p, Program.ofExpr e = .ok p) ↔
      (∀ function arguments, ¬ (Expr.call function arguments).StandsIn e) ∧
        ∀ operator left right, ¬ (Expr.binary (.custom operator) left right).StandsIn e) ∧
    (∀ cause, Program.ofExpr e = .error cause ↔
      ∃ front d back, e.visited = front ++ d :: back ∧ d.refusal? = some cause ∧
        ∀ earlier ∈ front, earlier.refusal? = none) ∧
    ∀ f n, Program.ofExpr e ≠ .error (.invalidArity f n) := by
  have hjudged : Expr.Judged e.visited (Program.ofExpr e) := (Expr.judged_compile e).map _
  rw [← Expr.findSome?_visited_eq_none_iff]
  simp only [← List.findSome?_eq_some_iff]
  generalize Program.ofExpr e = result at hjudged
  cases hjudged with
  | ok h => simp [h]
  | error h =>
    refine ⟨by simp [h], fun cause => by simp [h], ?_⟩
    rintro f n ⟨⟩
    obtain ⟨d, -, hd⟩ := List.exists_of_findSome?_eq_some h
    exact d.refusal?_ne_invalidArity f n hd

/-- The operator on the right is refused before the call on the left and before its own operand. -/
example :
    Program.ofExpr
        (.binary .eq (.call "lower" []) (.binary (.custom "~") (.call "upper" []) .null)) =
      .error (.unsupportedOperator "~") := rfl

end Program

end RowFlags
