import RowFlags.Program.Run
import RowFlags.Proofs.Outcome

/-!
# Interpreting expressions

The value of an expression by recursion on its tree, with neither code nor a stack. Like programs,
trees are interpreted in any monad, so the order in which columns are asked for is part of what is
said. Of two operands the right one comes first; items and clauses keep their order, and every
clause is interpreted, whatever the clauses before it gave.

`interpretTraced` interprets a tree on a row and notes which columns it asks for. Noting them
changes no answer, and a failure comes either from the column noted last or from an operator, which
never complains of the number of its operands (`traces_interpret`).
-/

set_option autoImplicit false

namespace RowFlags

/-- The value of an operator on its operand. -/
def UnaryOp.apply : UnaryOp → Value → Except EvalError Value
  | .not, v => UnaryFunction.invert.apply v
  | .neg, v => UnaryFunction.neg.apply v

/-- The value of an operator on its operands. Operators of the user's own have none. -/
def BinaryOp.apply (op : BinaryOp) (left right : Value) : Except EvalError Value :=
  match op with
  | .eq | .is => .ok (.boolean (left = right))
  | .ne | .isNot => .ok (.boolean (left ≠ right))
  | .arithmetic op => (BinaryFunction.arithmetic op).apply left right
  | .compare relation => (BinaryFunction.compare relation).apply left right
  | .member => BinaryFunction.member.apply left right
  | .notMember => BinaryFunction.notMember.apply left right
  | .contains => BinaryFunction.contains.apply left right
  | .concat => BinaryFunction.concat.apply left right
  | .custom operator => .error (.unsupportedOperator operator)

/-- What a test says of the value of its column. -/
def TruthTest.apply : TruthTest → Value → Value
  | .isNull, v => .boolean v.isNull
  | .isNotNull, v => .boolean !v.isNull
  | .isTrue, v => v
  | .isFalse, v => .boolean !v.truthy

/-- Whether truths are all true, or any of them is. -/
def Conjunction.holds : Conjunction → List Bool → Bool
  | .and, truths => truths.all id
  | .or, truths => truths.any id

/-- The value of clauses. Two are conjoined with the last one on the left; any other number of them
is judged by truthiness, and no clauses at all are true. -/
def Conjunction.combine (c : Conjunction) : List Value → Except EvalError Value
  | [] => .ok (.boolean true)
  | [first, last] => BinaryFunction.conjoin c last first
  | values => .ok (.boolean (c.holds (values.map Value.truthy)))

/-- Takes up a result, with its failure as an error of the caller's. -/
def EvalError.raising {m : Type → Type} [Monad m] {ε α : Type} (raise : EvalError → ε) :
    Except EvalError α → ExceptT ε m α
  | .ok a => pure a
  | .error e => throw (raise e)

@[simp] theorem EvalError.raising_map {m : Type → Type} [Monad m] [LawfulMonad m] {ε α β : Type}
    (raise : EvalError → ε) (f : α → β) (result : Except EvalError α) :
    raising (m := m) raise (f <$> result) = f <$> raising raise result := by
  cases result <;> simp [raising]

theorem EvalError.raising_bind {m : Type → Type} [Monad m] [LawfulMonad m] {ε α β : Type}
    (raise : EvalError → ε) (result : Except EvalError α) (f : α → Except EvalError β) :
    raising (m := m) raise (result >>= f) =
      raising raise result >>= fun a => raising raise (f a) := by
  cases result <;> simp [raising]

namespace Expr

section Interpretation

variable {m : Type → Type} [Monad m] {ε : Type}
variable (raise : EvalError → ε) (lookup : Column → ExceptT ε m Value)

mutual

/-- The value of an expression. Calls of database functions have none. -/
def interpret : Expr → ExceptT ε m Value
  | .column c => lookup c
  | .literal v => pure v
  | .null => pure .null
  | .group items => do
    let values ← interpretAll items
    return .list values
  | .unary op operand => do
    let v ← interpret operand
    EvalError.raising raise (op.apply v)
  | .binary op left right => do
    let w ← interpret right
    let v ← interpret left
    EvalError.raising raise (op.apply v w)
  | .test c t => do
    let v ← lookup c
    return t.apply v
  | .clauses op items => do
    let values ← interpretAll items
    EvalError.raising raise (op.combine values)
  | .call function arguments => throw (raise (.unsupportedCall (call function arguments).sql))

/-- The values of the expressions, in order. -/
def interpretAll : List Expr → ExceptT ε m (List Value)
  | [] => pure []
  | item :: rest => do
    let v ← interpret item
    let values ← interpretAll rest
    return v :: values

end

/-- What follows the expressions' values need only agree on as many values as expressions. -/
theorem interpretAll_bind_congr [LawfulMonad m] {α : Type} {k l : List Value → ExceptT ε m α}
    (items : List Expr) (h : ∀ values, values.length = items.length → k values = l values) :
    interpretAll raise lookup items >>= k = interpretAll raise lookup items >>= l := by
  induction items generalizing k l with
  | nil => simpa [interpretAll] using h [] rfl
  | cons item rest ih =>
    simp only [interpretAll, bind_assoc, pure_bind]
    congr 1
    funext v
    apply ih
    intro values hvalues
    exact h (v :: values) (by simp [hvalues])

end Interpretation

end Expr

/-! ## Failures of operators -/

/-- The failures that only malformed code has: its operators and operands differ in number. -/
def EvalError.IsCodeFault : EvalError → Prop
  | .malformed _ => True
  | .invalidArity _ _ => True
  | _ => False

/-- The failures of functions that have their operands, by the operands' values. -/
def EvalError.OfOperands : EvalError → Prop
  | .operandTypes _ _ _ => True
  | .divisionByZero => True
  | .overflow _ => True
  | _ => False

theorem EvalError.OfOperands.not_isCodeFault {e : EvalError} (h : e.OfOperands) :
    ¬ e.IsCodeFault := by
  cases e <;> first | exact id | exact h.elim

/-- A function refuses its operand by its type, or the result is out of bounds. -/
theorem UnaryFunction.error_cases {f : UnaryFunction} {v : Value} {e : EvalError}
    (h : f.apply v = .error e) :
    e = .operandTypes (.unary f) v.columnType? none ∨ e = .overflow (.unary f) := by
  unfold apply at h
  cases f <;> cases v
  case neg.int32 n =>
    dsimp only at h
    split at h <;> cases h
    exact .inr rfl
  all_goals cases h
  all_goals exact .inl rfl

theorem UnaryFunction.ofOperands {f : UnaryFunction} {v : Value} {e : EvalError}
    (h : f.apply v = .error e) : e.OfOperands := by
  rcases error_cases h with rfl | rfl <;> trivial

namespace BinaryFunction

variable {f : BinaryFunction} {v w : Value} {e : EvalError}

theorem calculate_error_cases {op : Arithmetic} {a b : Int32} (h : calculate op a b = .error e) :
    e = .divisionByZero ∨ e = .overflow (.binary (.arithmetic op)) := by
  unfold calculate at h
  split at h
  · cases h
    exact .inl rfl
  · split at h <;> cases h
    exact .inr rfl

theorem membership_eq_error (h : membership f v w = .error e) : e = f.refuse v w := by
  unfold membership at h
  split at h <;> cases h
  rfl

theorem conjoin_eq_error {c : Conjunction} (h : conjoin c v w = .error e) :
    e = (logic c).refuse v w := by
  unfold conjoin at h
  split at h <;> cases h
  rfl

theorem applyPresent_error_cases (h : f.applyPresent v w = .error e) :
    e = f.refuse v w ∨ e = .divisionByZero ∨ e = .overflow (.binary f) := by
  unfold applyPresent at h
  split at h
  case h_1 => exact .inr (calculate_error_cases h)
  case h_5 =>
    split at h <;> cases h
    exact .inl rfl
  all_goals cases h
  exact .inl rfl

/-- A function refuses its operands by their types, from left to right, or they divide by zero, or
the result is out of bounds. -/
theorem error_cases (h : f.apply v w = .error e) :
    e = f.refuse v w ∨ e = .divisionByZero ∨ e = .overflow (.binary f) := by
  unfold apply at h
  split at h
  · cases h
  · cases h
  · exact .inl (membership_eq_error (Outcome.map_eq_error_iff.1 h))
  · exact .inl (membership_eq_error (Outcome.map_eq_error_iff.1 h))
  · exact .inl (conjoin_eq_error h)
  · split at h
    · cases h
    · exact applyPresent_error_cases h

theorem ofOperands (h : f.apply v w = .error e) : e.OfOperands := by
  rcases error_cases h with rfl | rfl | rfl <;> trivial

end BinaryFunction

theorem UnaryOp.not_isCodeFault {op : UnaryOp} {v : Value} {e : EvalError}
    (h : op.apply v = .error e) : ¬ e.IsCodeFault := by
  cases op <;> exact (UnaryFunction.ofOperands h).not_isCodeFault

theorem BinaryOp.not_isCodeFault {op : BinaryOp} {v w : Value} {e : EvalError}
    (h : op.apply v w = .error e) : ¬ e.IsCodeFault := by
  unfold apply at h
  split at h
  case h_11 =>
    cases h
    exact id
  all_goals first | exact (BinaryFunction.ofOperands h).not_isCodeFault | cases h

theorem Conjunction.combine_not_isCodeFault {c : Conjunction} {values : List Value} {e : EvalError}
    (h : c.combine values = .error e) : ¬ e.IsCodeFault := by
  unfold combine at h
  split at h
  · cases h
  · exact (BinaryFunction.ofOperands (f := .logic c) h).not_isCodeFault
  · cases h

/-! ## Tracing -/

theorem Program.run_noting {ε : Type} (lookup : Column → Except ε Value) (c : Column)
    (asked : List Column) :
    (noting lookup c).run.run asked = (lookup c, asked ++ [c]) := by
  unfold noting
  cases lookup c <;> rfl

/-- `x` computes what `y` computes and notes the columns it asks for. A failure is accounted for: an
operator raised it, and not for want of operands, or it is the answer of the lookup to the column
noted last. -/
def Traces {ε α : Type} (raise : EvalError → ε) (lookup : Column → Except ε Value)
    (x : ExceptT ε (StateM (List Column)) α) (y : ExceptT ε Id α) : Prop :=
  ∀ asked, (x.run.run asked).1 = y.run ∧ ∀ failure, y.run = .error failure →
    (∃ e, failure = raise e ∧ ¬ e.IsCodeFault) ∨
      ∃ c, (x.run.run asked).2.getLast? = some c ∧ lookup c = .error failure

namespace Traces

variable {ε α β : Type} {raise : EvalError → ε} {lookup : Column → Except ε Value}

theorem pure (a : α) : Traces raise lookup (Pure.pure a) (Pure.pure a) := by
  intro asked
  refine ⟨rfl, ?_⟩
  intro failure h
  cases h

theorem bind {x : ExceptT ε (StateM (List Column)) α} {y : ExceptT ε Id α}
    {f : α → ExceptT ε (StateM (List Column)) β} {g : α → ExceptT ε Id β}
    (hx : Traces raise lookup x y) (hf : ∀ a, Traces raise lookup (f a) (g a)) :
    Traces raise lookup (x >>= f) (y >>= g) := by
  intro asked
  obtain ⟨hout, hfailed⟩ := hx asked
  rw [Outcome.run_run_bind]
  match hstep : x.run.run asked with
  | (.ok a, later) =>
    rw [hstep] at hout
    have hy : (y >>= g).run = (g a).run := by
      rw [ExceptT.run_bind, ← hout]
      rfl
    rw [hy]
    exact hf a later
  | (.error e, later) =>
    rw [hstep] at hout hfailed
    have hy : (y >>= g).run = .error e := by
      rw [ExceptT.run_bind, ← hout]
      rfl
    rw [hy]
    refine ⟨rfl, ?_⟩
    rintro failure ⟨⟩
    exact hfailed e hout.symm

theorem throw {e : EvalError} (h : ¬ e.IsCodeFault) :
    Traces (α := α) raise lookup (MonadExcept.throw (raise e)) (MonadExcept.throw (raise e)) := by
  intro asked
  refine ⟨rfl, ?_⟩
  rintro failure ⟨⟩
  exact .inl ⟨e, rfl, h⟩

theorem raising {result : Except EvalError α} (h : ∀ e, result = .error e → ¬ e.IsCodeFault) :
    Traces raise lookup (EvalError.raising raise result) (EvalError.raising raise result) := by
  cases result with
  | ok a => exact pure a
  | error e => exact throw (h e rfl)

theorem noting (c : Column) : Traces raise lookup (Program.noting lookup c) (lookup c) := by
  intro asked
  rw [Program.run_noting]
  refine ⟨rfl, ?_⟩
  intro failure h
  exact .inr ⟨c, by simp, h⟩

end Traces

namespace Expr

section Tracing

variable {ε : Type} (raise : EvalError → ε) (lookup : Column → Except ε Value)

mutual

theorem traces_interpret : (e : Expr) →
    Traces raise lookup (e.interpret raise (Program.noting lookup)) (e.interpret raise lookup)
  | .column c => .noting c
  | .literal v => .pure v
  | .null => .pure Value.null
  | .group items => (traces_interpretAll items).bind fun _ => .pure _
  | .unary _ operand =>
    (traces_interpret operand).bind fun _ => .raising fun _ => UnaryOp.not_isCodeFault
  | .binary _ left right =>
    (traces_interpret right).bind fun _ =>
      (traces_interpret left).bind fun _ => .raising fun _ => BinaryOp.not_isCodeFault
  | .test c _ => (Traces.noting c).bind fun _ => .pure _
  | .clauses _ items =>
    (traces_interpretAll items).bind fun _ => .raising fun _ => Conjunction.combine_not_isCodeFault
  | .call _ _ => .throw id

theorem traces_interpretAll : (items : List Expr) →
    Traces raise lookup (interpretAll raise (Program.noting lookup) items)
      (interpretAll raise lookup items)
  | [] => .pure []
  | item :: rest =>
    (traces_interpret item).bind fun _ => (traces_interpretAll rest).bind fun _ => .pure _

end

end Tracing

/-- The value of an expression on a row, beside the columns asked for in order. -/
def interpretTraced {ε : Type} (raise : EvalError → ε) (lookup : Column → Except ε Value)
    (e : Expr) : Except ε Value × List Column :=
  (e.interpret raise (Program.noting lookup)).run.run []

end Expr

end RowFlags
