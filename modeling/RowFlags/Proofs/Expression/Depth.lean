import RowFlags.Proofs.Expression.Compilation

/-!
# How deep the stack is

Any instructions can be run, not only those of compiled expressions. How many values they leave can
be told without running them: `Program.depth` counts up for every value pushed and down for the
operands of an operator, and complains of the first operator that would lack some. A run keeps to
the count at every instruction (`Program.run_of_depth`). So instructions that come to one value
fail only as a lookup or an operator on its operands fails, and all others are malformed whatever is
looked up (`Program.evaluateCode_of_depth`). The code of an expression comes to one value
(`Expr.depth_compile`).
-/

set_option autoImplicit false

namespace RowFlags

namespace Operator

/-- What is wrong with too few values before an operator. -/
def shortage (op : Operator) (held : Nat) : Malformation :=
  match op.function with
  | .variadic f => .tooFew (.variadic f) op.arity held
  | f => .underflow f

/-- An operator that lacks operands says so. -/
theorem step_of_lt {op : Operator} {stack : List Value} (h : stack.length < op.arity) :
    op.step stack = .error (.malformed (op.shortage stack.length)) := by
  obtain ⟨function, arity, accepted⟩ := op
  cases function with
  | unary f =>
    obtain rfl : arity = 1 := by simpa [Function.accepts] using accepted
    rcases stack with _ | ⟨v, rest⟩
    · rfl
    · simp at h
  | binary f =>
    obtain rfl : arity = 2 := by simpa [Function.accepts] using accepted
    rcases stack with _ | ⟨v, _ | ⟨w, rest⟩⟩
    · rfl
    · rfl
    · simp only [List.length_cons] at h
      omega
  | variadic f => exact if_pos h

/-- An operator that has its operands replaces them by one value, or fails by their values. -/
theorem step_of_le {op : Operator} {stack : List Value} (h : op.arity ≤ stack.length) :
    (∃ v, op.step stack = .ok (v :: stack.drop op.arity)) ∨
      ∃ cause, op.step stack = .error cause ∧ cause.OfOperands := by
  obtain ⟨function, arity, accepted⟩ := op
  cases function with
  | unary f =>
    obtain rfl : arity = 1 := by simpa [Function.accepts] using accepted
    rcases stack with _ | ⟨v, rest⟩
    · simp at h
    · cases happly : f.apply v with
      | ok w => exact .inl ⟨w, by simp [step, happly]⟩
      | error cause =>
        exact .inr ⟨cause, by simp [step, happly], UnaryFunction.ofOperands happly⟩
  | binary f =>
    obtain rfl : arity = 2 := by simpa [Function.accepts] using accepted
    rcases stack with _ | ⟨v, _ | ⟨w, rest⟩⟩
    · simp at h
    · simp at h
    · cases happly : f.apply v w with
      | ok x => exact .inl ⟨x, by simp [step, happly]⟩
      | error cause =>
        exact .inr ⟨cause, by simp [step, happly], BinaryFunction.ofOperands happly⟩
  | variadic f => exact .inl ⟨_, if_neg (Nat.not_lt.2 h)⟩

end Operator

/-- How many values there are after an instruction, of `held` before it. -/
def Instruction.depthAfter (held : Nat) : Instruction → Except Malformation Nat
  | .load _ => .ok (held + 1)
  | .push _ => .ok (held + 1)
  | .operate op =>
    if op.arity ≤ held then .ok (held - op.arity + 1) else .error (op.shortage held)

namespace Program

/-- How many values there are after instructions, of `held` before them; or what the first operator
that lacks operands complains of. -/
def depth (held : Nat) : List Instruction → Except Malformation Nat
  | [] => .ok held
  | i :: code => do
    let next ← i.depthAfter held
    depth next code

theorem depth_append (held : Nat) (front back : List Instruction) :
    depth held (front ++ back) = depth held front >>= fun next => depth next back := by
  induction front generalizing held with
  | nil => rfl
  | cons i front ih =>
    simp only [List.cons_append, depth]
    cases i.depthAfter held with
    | ok next => exact ih next
    | error cause => rfl

/-- There is a first operator that lacks operands, if there is any. -/
theorem exists_of_depth_eq_error {held : Nat} {code : List Instruction} {cause : Malformation}
    (h : depth held code = .error cause) :
    ∃ front op back d, code = front ++ .operate op :: back ∧ depth held front = .ok d ∧
      d < op.arity ∧ cause = op.shortage d := by
  induction code generalizing held with
  | nil => cases h
  | cons i code ih =>
    rcases Outcome.bind_eq_error_iff.1 h with hfirst | ⟨next, hfirst, hrest⟩
    · cases i with
      | load c => cases hfirst
      | push v => cases hfirst
      | operate op =>
        simp only [Instruction.depthAfter] at hfirst
        split at hfirst
        · cases hfirst
        · next hlacks =>
          cases hfirst
          exact ⟨[], op, code, held, rfl, rfl, Nat.not_le.1 hlacks, rfl⟩
    · obtain ⟨front, op, back, d, rfl, hfront, hlacks, hcause⟩ := ih hrest
      exact ⟨i :: front, op, back, d, rfl, by rw [depth, hfirst]; exact hfront, hlacks, hcause⟩

section Runs

variable {σ ε : Type} (raise : EvalError → ε) (lookup : Column → ExceptT ε (StateM σ) Value)

/-- A run, from a stack and a state of the lookup, comes to a failure that is not for want of
operands: a lookup fails, or an operator on the operands that it has. -/
inductive Fails : List Instruction → List Value → σ → ε → Prop
  | lookup {c : Column} {code : List Instruction} {stack : List Value} {s after : σ} {e : ε}
    (h : (lookup c).run.run s = (.error e, after)) : Fails (.load c :: code) stack s e
  | operator {op : Operator} {code : List Instruction} {stack : List Value} {s : σ}
    {cause : EvalError} (henough : op.arity ≤ stack.length) (h : op.step stack = .error cause) :
    Fails (.operate op :: code) stack s (raise cause)
  | load {c : Column} {code : List Instruction} {stack : List Value} {s after : σ} {v : Value}
    {e : ε} (h : (lookup c).run.run s = (.ok v, after)) (hlater : Fails code (v :: stack) after e) :
    Fails (.load c :: code) stack s e
  | push {v : Value} {code : List Instruction} {stack : List Value} {s : σ} {e : ε}
    (hlater : Fails code (v :: stack) s e) : Fails (.push v :: code) stack s e
  | operate {op : Operator} {code : List Instruction} {stack next : List Value} {s : σ} {e : ε}
    (h : op.step stack = .ok next) (hlater : Fails code next s e) :
    Fails (.operate op :: code) stack s e

variable {raise lookup}

/-- What fails a run is what the run fails with. -/
theorem Fails.run_eq {code : List Instruction} {stack : List Value} {s : σ} {e : ε}
    (h : Fails raise lookup code stack s e) :
    ∃ after, (run raise lookup code stack).run.run s = (.error e, after) := by
  induction h with
  | @lookup c code stack s after e h =>
    refine ⟨after, ?_⟩
    rw [run, Outcome.run_run_bind, h]
  | @operator op code stack s cause henough h =>
    refine ⟨s, ?_⟩
    rw [run, h]
    rfl
  | @load c code stack s after v e h hlater ih =>
    rw [run, Outcome.run_run_bind, h]
    exact ih
  | push hlater ih => exact ih
  | @operate op code stack next s e h hlater ih =>
    rw [run, h]
    exact ih

/-- A failure is the answer to a lookup of the code, or lies in the operands of an operator. -/
theorem Fails.cases {code : List Instruction} {stack : List Value} {s : σ} {e : ε}
    (h : Fails raise lookup code stack s e) :
    (∃ c before after, .load c ∈ code ∧ (lookup c).run.run before = (.error e, after)) ∨
      ∃ cause, e = raise cause ∧ cause.OfOperands := by
  induction h with
  | lookup h => exact .inl ⟨_, _, _, List.mem_cons_self, h⟩
  | operator henough h =>
    rcases Operator.step_of_le henough with ⟨v, hstep⟩ | ⟨cause, hstep, hcause⟩
    · rw [h] at hstep
      cases hstep
    · rw [h] at hstep
      cases hstep
      exact .inr ⟨_, rfl, hcause⟩
  | load _ _ ih | push _ ih | operate _ _ ih =>
    refine ih.imp_left ?_
    rintro ⟨c, before, after, hc, hanswer⟩
    exact ⟨c, before, after, List.mem_cons_of_mem _ hc, hanswer⟩

/-- A run of code in which no operator lacks operands leaves as many values as are counted, unless
something else fails. -/
theorem run_of_depth {code : List Instruction} (stack : List Value) {d : Nat}
    (h : depth stack.length code = .ok d) (s : σ) :
    (∃ out after, (run raise lookup code stack).run.run s = (.ok out, after) ∧ out.length = d) ∨
      ∃ e, Fails raise lookup code stack s e := by
  induction code generalizing stack s with
  | nil =>
    cases h
    exact .inl ⟨stack, s, rfl, rfl⟩
  | cons i code ih =>
    obtain ⟨next, hfirst, hrest⟩ := Outcome.bind_eq_ok_iff.1 h
    cases i with
    | load c =>
      cases hfirst
      rcases hanswer : (lookup c).run.run s with ⟨e | v, after⟩
      · exact .inr ⟨e, .lookup hanswer⟩
      · rw [run, Outcome.run_run_bind, hanswer]
        refine (ih (v :: stack) hrest after).imp_right ?_
        rintro ⟨e, he⟩
        exact ⟨e, .load hanswer he⟩
    | push v =>
      cases hfirst
      refine (ih (v :: stack) hrest s).imp_right ?_
      rintro ⟨e, he⟩
      exact ⟨e, .push he⟩
    | operate op =>
      simp only [Instruction.depthAfter] at hfirst
      split at hfirst
      case isFalse => cases hfirst
      case isTrue henough =>
        cases hfirst
        rcases Operator.step_of_le henough with ⟨v, hstep⟩ | ⟨cause, hstep, -⟩
        · have hlength : (v :: stack.drop op.arity).length = stack.length - op.arity + 1 := by
            rw [List.length_cons, List.length_drop]
          rw [run, hstep]
          rw [← hlength] at hrest
          refine (ih _ hrest s).imp_right ?_
          rintro ⟨e, he⟩
          exact ⟨e, .operate hstep he⟩
        · exact .inr ⟨raise cause, .operator henough hstep⟩

theorem evaluateCode_of_ok {code : List Instruction} {s after : σ} {stack : List Value}
    (h : (run raise lookup code []).run.run s = (.ok stack, after)) :
    (evaluateCode raise lookup code).run.run s = ((single (m := Id) raise stack).run, after) := by
  rw [evaluateCode, Outcome.run_run_bind, h]
  exact run_single raise stack after

theorem evaluateCode_of_error {code : List Instruction} {s after : σ} {e : ε}
    (h : (run raise lookup code []).run.run s = (.error e, after)) :
    (evaluateCode raise lookup code).run.run s = (.error e, after) := by
  rw [evaluateCode, Outcome.run_run_bind, h]

/-- What fails a run fails the evaluation. -/
theorem Fails.evaluateCode_eq {code : List Instruction} {s : σ} {e : ε}
    (h : Fails raise lookup code [] s e) :
    ∃ after, (evaluateCode raise lookup code).run.run s = (.error e, after) := by
  obtain ⟨after, hrun⟩ := h.run_eq
  exact ⟨after, evaluateCode_of_error hrun⟩

/-- Code that comes to one value has it, unless something fails on the way. -/
theorem evaluateCode_of_depth_one {code : List Instruction} (h : depth 0 code = .ok 1) (s : σ) :
    (∃ v after, (evaluateCode raise lookup code).run.run s = (.ok v, after)) ∨
      ∃ e, Fails raise lookup code [] s e := by
  refine (run_of_depth [] h s).imp_left ?_
  rintro ⟨out, after, hrun, hlength⟩
  obtain ⟨v, rfl⟩ := List.length_eq_one_iff.1 hlength
  exact ⟨v, after, evaluateCode_of_ok hrun⟩

/-- Nothing else is what code that comes to one value fails with. -/
theorem fails_of_evaluateCode_eq_error {code : List Instruction} (hone : depth 0 code = .ok 1)
    {s after : σ} {e : ε} (h : (evaluateCode raise lookup code).run.run s = (.error e, after)) :
    Fails raise lookup code [] s e := by
  have hcases : (∃ v after, (evaluateCode raise lookup code).run.run s = (.ok v, after)) ∨
    ∃ e, Fails raise lookup code [] s e := evaluateCode_of_depth_one hone s
  rcases hcases with ⟨v, later, hv⟩ | ⟨cause, hcause⟩
  · rw [hv] at h
    cases h
  · obtain ⟨later, heq⟩ := hcause.evaluateCode_eq
    rw [heq] at h
    cases h
    exact hcause

/-- Code that comes to another number of values complains of it, unless something fails before. -/
theorem evaluateCode_of_depth_ne_one {code : List Instruction} {d : Nat} (h : depth 0 code = .ok d)
    (hne : d ≠ 1) (s : σ) :
    (∃ after, (evaluateCode raise lookup code).run.run s =
        (.error (raise (.malformed (.leftover d))), after)) ∨
      ∃ e, Fails raise lookup code [] s e := by
  refine (run_of_depth [] h s).imp_left ?_
  rintro ⟨out, after, hrun, rfl⟩
  refine ⟨after, (evaluateCode_of_ok hrun).trans ?_⟩
  match out, hne with
  | [], _ => rfl
  | _ :: _ :: _, _ => rfl

/-- Code whose operator lacks operands complains of it, unless something fails before. -/
theorem evaluateCode_of_shortage {front back : List Instruction} {op : Operator} {d : Nat}
    (hfront : depth 0 front = .ok d) (hlacks : d < op.arity) (s : σ) :
    (∃ after, (evaluateCode raise lookup (front ++ .operate op :: back)).run.run s =
        (.error (raise (.malformed (op.shortage d))), after)) ∨
      ∃ e, Fails raise lookup front [] s e := by
  refine (run_of_depth [] hfront s).imp_left ?_
  rintro ⟨out, after, hrun, rfl⟩
  refine ⟨after, evaluateCode_of_error ?_⟩
  rw [run_append, Outcome.run_run_bind, hrun]
  simp only [run, Operator.step_of_lt hlacks]
  rfl

/-- What fails the first part of code fails it all. -/
theorem Fails.append {front : List Instruction} {stack : List Value} {s : σ} {e : ε}
    (h : Fails raise lookup front stack s e) (back : List Instruction) :
    Fails raise lookup (front ++ back) stack s e := by
  induction h with
  | lookup h => exact .lookup h
  | operator henough h => exact .operator henough h
  | load h _ ih => exact .load h ih
  | push _ ih => exact .push ih
  | operate h _ ih => exact .operate h ih

variable (raise lookup)

/-- The count decides over instructions. If it comes to one value, they have one as long as neither
a lookup nor an operator on its operands fails, and such a failure is all that they fail with.
Otherwise they fail whatever is looked up: if nothing fails before the first operator that lacks
operands, or before the end, with the complaint of the count. -/
theorem evaluateCode_of_depth (code : List Instruction) :
    (depth 0 code = .ok 1 →
      (∀ s, (∀ e, ¬ Fails raise lookup code [] s e) →
        ∃ v after, (evaluateCode raise lookup code).run.run s = (.ok v, after)) ∧
      (∀ s e after, (evaluateCode raise lookup code).run.run s = (.error e, after) →
        Fails raise lookup code [] s e ∧
          ((∃ c before later, .load c ∈ code ∧ (lookup c).run.run before = (.error e, later)) ∨
            ∃ cause, e = raise cause ∧ cause.OfOperands)) ∧
      (raise.Injective →
        (∀ c before later cause, .load c ∈ code →
          (lookup c).run.run before ≠ (.error (raise (.malformed cause)), later)) →
        ∀ s after cause, (evaluateCode raise lookup code).run.run s ≠
          (.error (raise (.malformed cause)), after))) ∧
    (∀ d, depth 0 code = .ok d → d ≠ 1 → ∀ s, ∃ e after,
      (evaluateCode raise lookup code).run.run s = (.error e, after) ∧
        ((∀ e, ¬ Fails raise lookup code [] s e) → e = raise (.malformed (.leftover d)))) ∧
    ∀ shortage, depth 0 code = .error shortage → ∃ front op back d,
      code = front ++ .operate op :: back ∧ depth 0 front = .ok d ∧ d < op.arity ∧
        shortage = op.shortage d ∧ ∀ s, ∃ e after,
          (evaluateCode raise lookup code).run.run s = (.error e, after) ∧
            ((∀ e, ¬ Fails raise lookup front [] s e) → e = raise (.malformed shortage)) := by
  refine ⟨fun hone => ⟨?_, ?_, ?_⟩, ?_, ?_⟩
  · intro s hnone
    refine (evaluateCode_of_depth_one hone s).resolve_right ?_
    rintro ⟨e, he⟩
    exact hnone e he
  · intro s e after h
    have he := fails_of_evaluateCode_eq_error hone h
    exact ⟨he, he.cases⟩
  · intro hinjective hlookup s after cause h
    rcases (fails_of_evaluateCode_eq_error hone h).cases with
      ⟨c, before, later, hc, hanswer⟩ | ⟨other, hother, hoperands⟩
    · exact hlookup c before later cause hc hanswer
    · cases hinjective hother
      exact hoperands
  · intro d hd hne s
    rcases evaluateCode_of_depth_ne_one hd hne s with ⟨after, h⟩ | ⟨e, he⟩
    · exact ⟨_, after, h, fun _ => rfl⟩
    · obtain ⟨after, h⟩ := he.evaluateCode_eq
      exact ⟨e, after, h, fun hnone => absurd he (hnone e)⟩
  · intro shortage hshortage
    obtain ⟨front, op, back, d, rfl, hfront, hlacks, rfl⟩ := exists_of_depth_eq_error hshortage
    refine ⟨front, op, back, d, rfl, hfront, hlacks, rfl, fun s => ?_⟩
    rcases evaluateCode_of_shortage hfront hlacks s with ⟨after, h⟩ | ⟨e, he⟩
    · exact ⟨_, after, h, fun _ => rfl⟩
    · obtain ⟨after, h⟩ := (he.append _).evaluateCode_eq
      exact ⟨e, after, h, fun hnone => absurd he (hnone e)⟩

/-- A lookup that finds seven in every column and counts how often it is asked. -/
def sampleSevens (_ : Column) : ExceptT EvalError (StateM Nat) Value :=
  ExceptT.mk fun asked => (.ok (.int32 7), asked + 1)

/-- Two values and a comparison make one value, without the comparison two are left, and the
comparison alone finds none. -/
theorem evaluateCode_of_depth_samples :
    (∃ v asked, (evaluateCode id sampleSevens
        [.load (sampleColumn 0 .int32), .push (.int32 7), .operate (.binary .eq)]).run.run 0 =
          (.ok v, asked)) ∧
      (∃ asked, (evaluateCode id sampleSevens
        [.load (sampleColumn 0 .int32), .push (.int32 7)]).run.run 0 =
          (.error (.malformed (.leftover 2)), asked)) ∧
      ∃ asked, (evaluateCode id sampleSevens [.operate (.binary .eq)]).run.run 0 =
        (.error (.malformed (.underflow (.binary .eq))), asked) := by
  refine ⟨?_, ?_, ?_⟩
  · refine ((evaluateCode_of_depth id sampleSevens _).1 rfl).1 0 fun e h => ?_
    cases h with
    | lookup h => cases h
    | load h hlater =>
      cases h
      cases hlater with
      | push hlater =>
        cases hlater with
        | operator _ h => cases h
        | operate _ hlater => cases hlater
  · obtain ⟨e, asked, h, he⟩ := (evaluateCode_of_depth id sampleSevens
      [.load (sampleColumn 0 .int32), .push (.int32 7)]).2.1 2 rfl (by decide) 0
    refine ⟨asked, ?_⟩
    rw [h, he]
    · rfl
    · intro e h
      cases h with
      | lookup h => cases h
      | load h hlater =>
        cases hlater with
        | push hlater => cases hlater
  · obtain ⟨front, op, back, d, hcode, -, -, -, hall⟩ :=
      (evaluateCode_of_depth id sampleSevens [.operate (.binary .eq)]).2.2 _ rfl
    obtain ⟨e, asked, h, he⟩ := hall 0
    refine ⟨asked, ?_⟩
    obtain rfl : front = [] := by
      cases front with
      | nil => rfl
      | cons i rest => simp at hcode
    rw [h, he fun _ h => nomatch h]
    rfl

end Runs

end Program

namespace Operator

theorem arity_of_make {f : Function} {n : Nat} {op : Operator} (h : make f n = .ok op) :
    op.arity = n := by
  unfold make at h
  split at h <;> cases h
  rfl

end Operator

namespace Expr

theorem arity_of_clauseOperator {c : Conjunction} {n : Nat} {op : Operator}
    (h : clauseOperator c n = .ok op) : op.arity = n := by
  unfold clauseOperator at h
  split at h
  · next htwo =>
    cases h
    exact htwo.symm
  · exact Operator.arity_of_make h

open Program (depth depth_append)

/-- Code that leaves the operands of an operator, and then the operator. -/
theorem depth_operate {held n : Nat} {code : List Instruction}
    (h : depth held code = .ok (held + n)) {op : Operator} (hop : op.arity = n) :
    depth held (code ++ [.operate op]) = .ok (held + 1) := by
  rw [depth_append, h, Outcome.ok_bind, depth, Instruction.depthAfter, hop,
    if_pos (Nat.le_add_left n held), Nat.add_sub_cancel]
  rfl

/-- The code of an expression comes to one value more, and that of several to as many. -/
theorem codeLaw_depth : CodeLaw
    (fun _ code => ∀ held, depth held code = .ok (held + 1))
    (fun items code => ∀ held, depth held code = .ok (held + items.length)) where
  column _ _ := rfl
  literal _ _ := rfl
  null _ := rfl
  folded _ _ := rfl
  group _ hop hitems held := depth_operate (hitems held) (Operator.arity_of_make hop)
  unary hoperand held := depth_operate (hoperand held) rfl
  binary _ hright hleft held := by
    refine depth_operate (n := 2) ?_ rfl
    rw [depth_append, hright held, Outcome.ok_bind]
    exact hleft (held + 1)
  test _ t _ := by cases t <;> rfl
  noClauses _ _ := rfl
  clauses hop hitems held := depth_operate (hitems held) (arity_of_clauseOperator hop)
  nil _ := rfl
  cons hitem hrest held := by
    rw [depth_append, hitem held, Outcome.ok_bind, hrest (held + 1), List.length_cons,
      Nat.add_assoc, Nat.add_comm 1]

theorem depth_compile {e : Expr} {code : List Instruction} (h : e.compile = .ok code)
    (held : Nat) : depth held code = .ok (held + 1) :=
  codeLaw_depth.of_compile e code h held

/-- Where every column has a value, an expression that compiles fails by the operands of an operator
at most. -/
theorem ofOperands_of_interpret {e : Expr} {code : List Instruction} (hcode : e.compile = .ok code)
    {value : Column → Value} {cause : EvalError}
    (h : (e.interpret (m := Id) id fun c => pure (value c)).run = .error cause) :
    cause.OfOperands := by
  let lookup : Column → Except EvalError Value := fun c => .ok (value c)
  obtain ⟨htraced, -⟩ := traces_interpret id lookup e []
  have hrun : (Program.evaluateCode id (Program.noting lookup) code).run.run [] =
      (.error cause, ((e.interpret id (Program.noting lookup)).run.run []).2) := by
    rw [Program.evaluateCode_of_compile id _ hcode]
    exact Prod.ext (htraced.trans h) rfl
  have hfails := Program.fails_of_evaluateCode_eq_error (depth_compile hcode 0) hrun
  rcases hfails.cases with ⟨c, before, later, -, hanswer⟩ | ⟨other, rfl, hoperands⟩
  · rw [Program.run_noting] at hanswer
    cases hanswer
  · exact hoperands

end Expr

end RowFlags
