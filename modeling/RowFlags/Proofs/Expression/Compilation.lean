import RowFlags.Proofs.Expression.Induction
import RowFlags.Proofs.Expression.Interpretation

/-!
# Compiled expressions compute what their trees say

The code of an expression, run on any stack, leaves the expression's value on top of it and asks for
the columns that the interpretation of the tree asks for, in the same order. The code of a list
leaves all the values, the last on top; the operator after it finds as many values as it takes
(`codeLaw_run`). So a compiled expression evaluates to what its tree is interpreted as
(`evaluate_eq_interpret`), whatever the lookup does.
-/

set_option autoImplicit false

namespace RowFlags

namespace Program

variable {m : Type → Type} [Monad m] [LawfulMonad m] {ε : Type}
variable (raise : EvalError → ε) (lookup : Column → ExceptT ε m Value)

/-- Code in two parts runs part after part. -/
theorem run_append (front back : List Instruction) (stack : List Value) :
    run raise lookup (front ++ back) stack =
      run raise lookup front stack >>= run raise lookup back := by
  induction front generalizing stack with
  | nil => simp [run]
  | cons i rest ih =>
    cases i with
    | load c => simp [run, ih]
    | push v => simp [run, ih]
    | operate op =>
      simp only [List.cons_append, run]
      cases op.step stack with
      | ok next => exact ih next
      | error e => simp

omit [LawfulMonad m] in
/-- An operator alone. -/
theorem run_operate (op : Operator) (stack : List Value) :
    run raise lookup [.operate op] stack = EvalError.raising raise (op.step stack) := by
  simp only [run]
  cases op.step stack <;> rfl

omit [LawfulMonad m] in
/-- What is left on the stack decides alone, in any monad, -/
theorem single_eq_raising (stack : List Value) :
    single (m := m) raise stack = EvalError.raising raise (single (m := Id) id stack).run :=
  match stack with
  | [] => rfl
  | [_] => rfl
  | _ :: _ :: _ => rfl

omit [Monad m] [LawfulMonad m] in
/-- and leaves a state as it is. -/
theorem run_single {σ : Type} (stack : List Value) (s : σ) :
    (single (m := StateM σ) raise stack).run.run s = ((single (m := Id) raise stack).run, s) :=
  match stack with
  | [] => rfl
  | [_] => rfl
  | _ :: _ :: _ => rfl

end Program

namespace Operator

theorem step_unary (f : UnaryFunction) (v : Value) (stack : List Value) :
    (unary f).step (v :: stack) = (· :: stack) <$> f.apply v := rfl

theorem step_binary (f : BinaryFunction) (v w : Value) (stack : List Value) :
    (binary f).step (v :: w :: stack) = (· :: stack) <$> f.apply v w := rfl

/-- An operator of any number of operands takes the topmost values, the deepest first. -/
theorem step_variadic {f : Reducer} {op : Operator} {values : List Value} (stack : List Value)
    (hmake : make (.variadic f) values.length = .ok op) :
    op.step (values.reverse ++ stack) = .ok (f.apply values :: stack) := by
  unfold make at hmake
  split at hmake
  · cases hmake
    have hlength : values.reverse.length = values.length := List.length_reverse
    simp only [step]
    rw [if_neg (by simp), ← hlength, List.take_left, List.drop_left, List.reverse_reverse]
  · cases hmake

end Operator

namespace Expr

/-- The literals among expressions are what they are interpreted as. -/
theorem interpretAll_of_literals {m : Type → Type} [Monad m] [LawfulMonad m] {ε : Type}
    (raise : EvalError → ε) (lookup : Column → ExceptT ε m Value) {items : List Expr}
    {values : List Value} (h : items.mapM literal? = some values) :
    interpretAll raise lookup items = pure values := by
  induction items generalizing values with
  | nil =>
    simp only [List.mapM_nil, Option.pure_def, Option.some.injEq] at h
    simp [interpretAll, ← h]
  | cons item rest ih =>
    simp only [List.mapM_cons, Option.bind_eq_bind, Option.bind_eq_some_iff, Option.pure_def,
      Option.some.injEq] at h
    obtain ⟨v, hitem, tail, hrest, rfl⟩ := h
    have hvalue : interpret raise lookup item = pure v := by
      unfold literal? at hitem
      split at hitem <;> cases hitem <;> simp [interpret]
    simp [interpretAll, hvalue, ih hrest]

/-- The value of an operator is that of its function. -/
theorem apply_of_functionOf {op : BinaryOp} {f : BinaryFunction} (h : functionOf op = .ok f)
    (v w : Value) : op.apply v w = f.apply v w := by
  cases op <;> cases h <;> rfl

theorem apply_functionOfUnary (op : UnaryOp) (v : Value) :
    (functionOfUnary op).apply v = op.apply v := by
  cases op <;> rfl

section Run

variable {m : Type → Type} [Monad m] [LawfulMonad m] {ε : Type}
variable (raise : EvalError → ε) (lookup : Column → ExceptT ε m Value)

open Program (run run_append run_operate)

omit [LawfulMonad m] in
/-- The code of a test leaves what the test says of the value on top. -/
theorem run_testCode (t : TruthTest) (v : Value) (stack : List Value) :
    run raise lookup (testCode t) (v :: stack) = pure (t.apply v :: stack) := by
  cases t <;> rfl

/-- The operator of a clause list replaces the clauses' values by their combination. -/
theorem run_clauseOperator {c : Conjunction} {op : Operator} {values : List Value}
    (h : clauseOperator c values.length = .ok op) (hne : values ≠ []) (stack : List Value) :
    run raise lookup [.operate op] (values.reverse ++ stack) =
      (· :: stack) <$> EvalError.raising raise (c.combine values) := by
  unfold clauseOperator at h
  split at h
  · next htwo =>
    cases h
    match values, htwo with
    | [first, last], _ =>
      rw [run_operate]
      simp [Operator.step_binary, Conjunction.combine, BinaryFunction.apply]
  · next htwo =>
    rw [run_operate, Operator.step_variadic stack h]
    have hcombine : c.combine values = .ok ((reducerOf c).apply values) := by
      unfold Conjunction.combine
      split
      · exact absurd rfl hne
      · exact absurd rfl htwo
      · cases c <;> simp [reducerOf, Reducer.apply, Conjunction.holds]
    simp [hcombine, EvalError.raising]

/-- The code of an expression, run on any stack, leaves the expression's value on top, and that of
several leaves all their values, the last on top. -/
theorem codeLaw_run : CodeLaw
    (fun e code => ∀ stack,
      run raise lookup code stack = (· :: stack) <$> e.interpret raise lookup)
    (fun items code => ∀ stack,
      run raise lookup code stack =
        (fun values => values.reverse ++ stack) <$> interpretAll raise lookup items) where
  column c stack := by simp [run, interpret]
  literal v stack := by simp [run, interpret]
  null stack := by simp [run, interpret]
  folded hvalues stack := by
    simp [run, interpret, interpretAll_of_literals raise lookup hvalues]
  group _ hop hitems stack := by
    rw [run_append, hitems]
    simp only [interpret, bind_map_left, map_bind, map_pure]
    apply interpretAll_bind_congr
    intro values hlength
    rw [← hlength] at hop
    rw [run_operate, Operator.step_variadic stack hop]
    rfl
  unary hoperand stack := by
    rw [run_append, hoperand]
    simp [run_operate, Operator.step_unary, apply_functionOfUnary, interpret]
  binary hf hright hleft stack := by
    rw [run_append, run_append, hright]
    simp [hleft, run_operate, Operator.step_binary, interpret, apply_of_functionOf hf]
  test c t stack := by simp [run, run_testCode, interpret]
  noClauses op stack := by
    simp [run, interpret, interpretAll, Conjunction.combine, EvalError.raising]
  clauses hop hitems stack := by
    rw [run_append, hitems]
    simp only [interpret, bind_map_left, map_bind]
    apply interpretAll_bind_congr
    intro values hlength
    rw [← hlength] at hop
    apply run_clauseOperator raise lookup hop
    rintro rfl
    cases hlength
  nil stack := by simp [run, interpretAll]
  cons hitem hrest stack := by
    rw [run_append, hitem]
    simp [hrest, interpretAll]

theorem run_compile {e : Expr} {code : List Instruction} (h : e.compile = .ok code)
    (stack : List Value) :
    run raise lookup code stack = (· :: stack) <$> e.interpret raise lookup :=
  (codeLaw_run raise lookup).of_compile e code h stack

end Run

end Expr

namespace Program

theorem evaluateCode_of_compile {m : Type → Type} [Monad m] [LawfulMonad m] {ε : Type}
    (raise : EvalError → ε) (lookup : Column → ExceptT ε m Value) {e : Expr}
    {code : List Instruction} (h : e.compile = .ok code) :
    evaluateCode raise lookup code = e.interpret raise lookup := by
  simp [evaluateCode, Expr.run_compile raise lookup h, single]

theorem ofExpr_eq_ok_iff {e : Expr} {p : Program} :
    ofExpr e = .ok p ↔ ∃ code, e.compile = .ok code ∧ p = ⟨e, code⟩ := by
  constructor
  · intro h
    obtain ⟨code, hcode, hp⟩ := Outcome.bind_eq_ok_iff.1 h
    cases hp
    exact ⟨code, hcode, rfl⟩
  · rintro ⟨code, hcode, rfl⟩
    exact Outcome.bind_eq_ok_iff.2 ⟨code, hcode, rfl⟩

/-- Under a lookup that may fail, -/
theorem evaluate_of_compile {ε : Type} (raise : EvalError → ε) (lookup : Column → Except ε Value)
    {e : Expr} {code : List Instruction} (h : e.compile = .ok code) :
    evaluate raise lookup ⟨e, code⟩ = (e.interpret (m := Id) raise lookup).run :=
  evaluateCode_of_compile (m := Id) raise lookup h

/-- what comes of an expression is what it is interpreted as, if it compiles at all. -/
theorem exists_evaluate_iff {ε : Type} {raise : EvalError → ε} {lookup : Column → Except ε Value}
    {e : Expr} {result : Except ε Value} :
    (∃ p, ofExpr e = .ok p ∧ p.evaluate raise lookup = result) ↔
      (∃ code, e.compile = .ok code) ∧ (e.interpret (m := Id) raise lookup).run = result := by
  constructor
  · rintro ⟨p, hp, hresult⟩
    obtain ⟨code, hcode, rfl⟩ := ofExpr_eq_ok_iff.1 hp
    exact ⟨⟨code, hcode⟩, (evaluate_of_compile raise lookup hcode).symm.trans hresult⟩
  · rintro ⟨⟨code, hcode⟩, hresult⟩
    exact ⟨_, ofExpr_eq_ok_iff.2 ⟨code, hcode, rfl⟩,
      (evaluate_of_compile raise lookup hcode).trans hresult⟩

/-- A compiled expression evaluates to what its tree is interpreted as. In any monad the two are the
same computation, with the same effects of the lookup. On a row they give the same answer and ask
for the same columns in the same order; and a failure that the column asked for last did not give is
an operator's, never a complaint about the code. -/
theorem evaluate_eq_interpret {e : Expr} {p : Program} (h : Program.ofExpr e = .ok p) {ε : Type}
    (raise : EvalError → ε) :
    (∀ (m : Type → Type) [Monad m] [LawfulMonad m] (lookup : Column → ExceptT ε m Value),
      evaluateCode raise lookup p.code = e.interpret raise lookup) ∧
    ∀ lookup : Column → Except ε Value,
      p.evaluate raise lookup = (e.interpretTraced raise lookup).1 ∧
      (evaluateCode raise (noting lookup) p.code).run.run [] = e.interpretTraced raise lookup ∧
      ∀ failure, p.evaluate raise lookup = .error failure →
        (∃ cause, failure = raise cause ∧ ¬ cause.IsCodeFault) ∨
          ∃ c, (e.interpretTraced raise lookup).2.getLast? = some c ∧
            lookup c = .error failure := by
  obtain ⟨code, hcode, hp⟩ := Outcome.bind_eq_ok_iff.1 h
  cases hp
  have hsame (m : Type → Type) [Monad m] [LawfulMonad m] (lookup : Column → ExceptT ε m Value) :
      evaluateCode raise lookup code = e.interpret raise lookup := by
    simp [evaluateCode, Expr.run_compile raise lookup hcode, single]
  refine ⟨hsame, ?_⟩
  intro lookup
  obtain ⟨hanswer, hfailure⟩ := Expr.traces_interpret raise lookup e []
  have hevaluate : evaluate raise lookup ⟨e, code⟩ = e.interpret (m := Id) raise lookup :=
    hsame Id lookup
  refine ⟨?_, ?_, ?_⟩
  · rw [hevaluate]
    exact hanswer.symm
  · rw [hsame]
    rfl
  · intro failure hfailed
    rw [hevaluate] at hfailed
    exact hfailure failure hfailed

/-- A column of the sample row. -/
def sampleColumn (position : Nat) (type : ColumnType) : Column := ⟨⟨1⟩, position, "t", "c", type⟩

/-- Clauses over three columns: a quotient, and a test that the division by zero forestalls. -/
def sampleClauses : Expr :=
  .clauses .and
    [.binary (.arithmetic .div) (.column (sampleColumn 0 .int32)) (.column (sampleColumn 1 .int32)),
      .test (sampleColumn 2 .boolean) .isFalse]

/-- A row on which the divisor is `n` and the third column is missing. -/
def sampleRow (n : Int32) (c : Column) : Except EvalError Value :=
  if c.position = 0 then .ok (.int32 7)
  else if c.position = 1 then .ok (.int32 n)
  else .error (.columnNotFound c)

/-- The divisor is asked for before the dividend, and the tested column only after a division. -/
theorem evaluate_eq_interpret_sampleClauses :
    ∃ p, Program.ofExpr sampleClauses = .ok p ∧
      p.evaluate id (sampleRow 0) = .error .divisionByZero ∧
      p.evaluate id (sampleRow 2) = .error (.columnNotFound (sampleColumn 2 .boolean)) ∧
      evaluateTraced (sampleRow 0) p.code =
        (.error .divisionByZero, [sampleColumn 1 .int32, sampleColumn 0 .int32]) ∧
      evaluateTraced (sampleRow 2) p.code =
        (.error (.columnNotFound (sampleColumn 2 .boolean)),
          [sampleColumn 1 .int32, sampleColumn 0 .int32, sampleColumn 2 .boolean]) := by
  refine ⟨_, rfl, ?_⟩
  have hzero := (evaluate_eq_interpret (e := sampleClauses) rfl id).2 (sampleRow 0)
  have htwo := (evaluate_eq_interpret (e := sampleClauses) rfl id).2 (sampleRow 2)
  refine ⟨hzero.1, htwo.1, hzero.2.1, htwo.2.1⟩

end Program

end RowFlags
