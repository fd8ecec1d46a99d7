import RowFlags.Proofs.Expression.Compilation
import RowFlags.Proofs.Expression.Refusals

/-!
# Where failures come from

An evaluation that fails breaks at one node of the tree: what is computed for the node has values,
and the node itself has none (`BreaksAt`). The failure follows from those values. It names the types
of a left and a right operand as they stand in the tree; but of two clauses, which are computed in
their order, the last one is on top of the stack and is taken for the left operand, so that the
failure names their types the other way round (`Expr.told_of_ends`).
-/

set_option autoImplicit false

namespace RowFlags.Expr

section Origins

variable {σ ε : Type} (raise : EvalError → ε) (lookup : Column → ExceptT ε (StateM σ) Value)

/-- The expression compiles, and its program ends with the result when it starts from `s`. -/
def Ends (e : Expr) (s : σ) (result : Except ε Value) (after : σ) : Prop :=
  ∃ p, Program.ofExpr e = .ok p ∧
    (Program.evaluateCode raise lookup p.code).run.run s = (result, after)

/-- The expressions have these values when they are evaluated one after the other. -/
inductive EndsAll : List Expr → σ → List Value → σ → Prop
  | nil (s : σ) : EndsAll [] s [] s
  | cons {e : Expr} {rest : List Expr} {v : Value} {values : List Value} {s mid after : σ}
    (he : Ends raise lookup e s (.ok v) mid) (hrest : EndsAll rest mid values after) :
    EndsAll (e :: rest) s (v :: values) after

/-- What is computed for a node has values, in the order in which it is computed, and the node
itself fails. -/
def Breaks (d : Expr) (values : List Value) (failure : ε) (s : σ) : Prop :=
  (∃ mid, EndsAll raise lookup d.steps s values mid) ∧
    ∃ after, Ends raise lookup d s (.error failure) after

/-- The evaluation breaks at a node of the tree: at the root, or within the first of the root's
parts that has no value. -/
inductive BreaksAt (d : Expr) (values : List Value) (failure : ε) : Expr → σ → Prop
  | root {s : σ} (h : Breaks raise lookup d values failure s) : BreaksAt d values failure d s
  | within {e part : Expr} {front back : List Expr} {earlier : List Value} {s mid : σ}
    (hsteps : e.steps = front ++ part :: back) (hfront : EndsAll raise lookup front s earlier mid)
    (hpart : BreaksAt d values failure part mid) : BreaksAt d values failure e s

/-- What the failure of a node is, by the values of what is computed for it. -/
inductive Told : Expr → List Value → ε → Prop
  | column {c : Column} {failure : ε} {s after : σ}
    (h : (lookup c).run.run s = (.error failure, after)) : Told (.column c) [] failure
  | test {c : Column} {t : TruthTest} {failure : ε} {s after : σ}
    (h : (lookup c).run.run s = (.error failure, after)) : Told (.test c t) [] failure
  | unary {op : UnaryOp} {operand : Expr} {v : Value} {cause : EvalError}
    (h : (functionOfUnary op).apply v = .error cause)
    (hcause : cause = .operandTypes (.unary (functionOfUnary op)) v.columnType? none ∨
      cause = .overflow (.unary (functionOfUnary op))) :
    Told (.unary op operand) [v] (raise cause)
  /-- The right operand is computed first, and a failure by types names the left one first. -/
  | binary {op : BinaryOp} {left right : Expr} {f : BinaryFunction} {v w : Value}
    {cause : EvalError} (hf : functionOf op = .ok f) (h : f.apply v w = .error cause)
    (hcause : cause = .operandTypes (.binary f) v.columnType? w.columnType? ∨
      cause = .divisionByZero ∨ cause = .overflow (.binary f)) :
    Told (.binary op left right) [w, v] (raise cause)
  /-- Of two clauses the failure names the last one first. -/
  | clauses {op : Conjunction} {first last : Expr} {v w : Value} :
    Told (.clauses op [first, last]) [v, w]
      (raise (.operandTypes (.binary (.logic op)) w.columnType? v.columnType?))

/-- What a node makes of the values of what is computed for it. -/
def conclude : Expr → List Value → ExceptT ε (StateM σ) Value
  | .column c, _ => lookup c
  | .literal v, _ => pure v
  | .null, _ => pure .null
  | .group _, values => pure (.list values)
  | .unary op _, [v] => EvalError.raising raise (op.apply v)
  | .binary op _ _, [w, v] => EvalError.raising raise (op.apply v w)
  | .test c t, _ => t.apply <$> lookup c
  | .clauses op _, values => EvalError.raising raise (op.combine values)
  | e, _ => throw (raise (.unsupportedCall e.sql))

theorem interpret_eq_bind (e : Expr) :
    e.interpret raise lookup = interpretAll raise lookup e.steps >>= conclude raise lookup e := by
  cases e with
  | group items => rfl
  | clauses op items => rfl
  | _ => simp [interpret, interpretAll, steps, parts, conclude]

variable {raise lookup}

theorem ends_iff {e : Expr} {s after : σ} {result : Except ε Value} :
    Ends raise lookup e s result after ↔
      (∃ code, e.compile = .ok code) ∧
        (e.interpret raise lookup).run.run s = (result, after) := by
  constructor
  · rintro ⟨p, hp, hrun⟩
    obtain ⟨code, hcode, rfl⟩ := Program.ofExpr_eq_ok_iff.1 hp
    rw [Program.evaluateCode_of_compile raise lookup hcode] at hrun
    exact ⟨⟨code, hcode⟩, hrun⟩
  · rintro ⟨⟨code, hcode⟩, hrun⟩
    refine ⟨_, Program.ofExpr_eq_ok_iff.2 ⟨code, hcode, rfl⟩, ?_⟩
    rw [Program.evaluateCode_of_compile raise lookup hcode]
    exact hrun

theorem EndsAll.run_eq {items : List Expr} {s after : σ} {values : List Value}
    (h : EndsAll raise lookup items s values after) :
    (interpretAll raise lookup items).run.run s = (.ok values, after) := by
  induction h with
  | nil s => rfl
  | cons he _ ih =>
    rw [interpretAll, Outcome.run_run_bind_of_ok (ends_iff.1 he).2,
      Outcome.run_run_bind_of_ok ih]
    rfl

/-- Where a part fails after the parts before it, all the parts fail as it does. -/
theorem EndsAll.run_eq_error {front back : List Expr} {part : Expr} {earlier : List Value}
    {s mid after : σ} {failure : ε} (h : EndsAll raise lookup front s earlier mid)
    (hpart : (part.interpret raise lookup).run.run mid = (.error failure, after)) :
    (interpretAll raise lookup (front ++ part :: back)).run.run s = (.error failure, after) := by
  induction h with
  | nil s => rw [List.nil_append, interpretAll, Outcome.run_run_bind, hpart]
  | cons he _ ih =>
    rw [List.cons_append, interpretAll, Outcome.run_run_bind_of_ok (ends_iff.1 he).2,
      Outcome.run_run_bind, ih hpart]

variable (raise lookup) in
/-- Expressions that compile all have values, or a first one of them fails. -/
theorem endsAll_or_first {items : List Expr}
    (hcompile : ∀ item ∈ items, ∃ code, item.compile = .ok code) (s : σ) :
    (∃ values after, EndsAll raise lookup items s values after) ∨
      ∃ front part back earlier mid failure after, items = front ++ part :: back ∧
        EndsAll raise lookup front s earlier mid ∧
        Ends raise lookup part mid (.error failure) after := by
  induction items generalizing s with
  | nil => exact .inl ⟨[], s, .nil s⟩
  | cons item rest ih =>
    obtain ⟨hitem, hrest⟩ := List.forall_mem_cons.1 hcompile
    match hrun : (item.interpret raise lookup).run.run s with
    | (.error failure, after) =>
      exact .inr ⟨[], item, rest, [], s, failure, after, rfl, .nil s, ends_iff.2 ⟨hitem, hrun⟩⟩
    | (.ok v, mid) =>
      have hv : Ends raise lookup item s (.ok v) mid := ends_iff.2 ⟨hitem, hrun⟩
      rcases ih hrest mid with ⟨values, after, hall⟩ |
        ⟨front, part, back, earlier, last, failure, after, rfl, hfront, hpart⟩
      · exact .inl ⟨v :: values, after, .cons hv hall⟩
      · exact .inr ⟨item :: front, part, back, v :: earlier, last, failure, after, rfl,
          .cons hv hfront, hpart⟩

/-- An evaluation that fails breaks at a node. -/
theorem exists_breaksAt {e : Expr} {s after : σ} {failure : ε}
    (h : Ends raise lookup e s (.error failure) after) :
    ∃ d values, BreaksAt raise lookup d values failure e s := by
  induction e using induction_parts generalizing s after with
  | h e ih =>
    obtain ⟨hcompile, hrun⟩ := ends_iff.1 h
    have hsteps : ∀ part ∈ e.steps, ∃ code, part.compile = .ok code :=
      fun part => exists_compile_of_mem_steps hcompile
    -- Either the node itself fails on the values of its steps, or it fails as a step of it does.
    rcases endsAll_or_first raise lookup hsteps s with
      ⟨values, mid, hall⟩ | ⟨front, part, back, earlier, mid, other, last, heq, hfront, hpart⟩
    · exact ⟨e, values, .root ⟨⟨mid, hall⟩, after, h⟩⟩
    · have hmem : part ∈ e.steps := by simp [heq]
      rw [interpret_eq_bind, heq, Outcome.run_run_bind,
        hfront.run_eq_error (ends_iff.1 hpart).2] at hrun
      obtain rfl : other = failure := Except.error.inj (Prod.mk.inj hrun).1
      obtain ⟨d, values, hd⟩ := ih part (mem_parts_of_mem_steps hmem) hpart
      exact ⟨d, values, .within heq hfront hd⟩

theorem BreaksAt.run_eq {d e : Expr} {values : List Value} {failure : ε} {s : σ}
    (h : BreaksAt raise lookup d values failure e s) :
    ∃ after, (e.interpret raise lookup).run.run s = (.error failure, after) := by
  induction h with
  | root h =>
    obtain ⟨-, after, hends⟩ := h
    exact ⟨after, (ends_iff.1 hends).2⟩
  | within hsteps hfront _ ih =>
    obtain ⟨after, hpart⟩ := ih
    refine ⟨after, ?_⟩
    rw [interpret_eq_bind, hsteps, Outcome.run_run_bind, hfront.run_eq_error hpart]

/-- The first of the parts that fails is the only one that fails after those before it. -/
theorem EndsAll.first_unique {front front' back back' : List Expr} {part part' : Expr}
    {earlier earlier' : List Value} {s mid mid' after after' : σ} {failure failure' : ε}
    (h : EndsAll raise lookup front s earlier mid)
    (hpart : (part.interpret raise lookup).run.run mid = (.error failure, after))
    (h' : EndsAll raise lookup front' s earlier' mid')
    (hpart' : (part'.interpret raise lookup).run.run mid' = (.error failure', after'))
    (heq : front ++ part :: back = front' ++ part' :: back') : part = part' ∧ mid = mid' := by
  induction h generalizing front' earlier' with
  | nil s =>
    cases h' with
    | nil => exact ⟨(List.cons.inj heq).1, rfl⟩
    | cons hother _ =>
      obtain rfl := (List.cons.inj heq).1
      cases hpart.symm.trans (ends_iff.1 hother).2
  | cons he _ ih =>
    cases h' with
    | nil =>
      obtain rfl := (List.cons.inj heq).1
      cases hpart'.symm.trans (ends_iff.1 he).2
    | cons hother hrest =>
      obtain ⟨rfl, htail⟩ := List.cons.inj heq
      cases (ends_iff.1 he).2.symm.trans (ends_iff.1 hother).2
      exact ih hpart hrest htail

/-- Where a node breaks itself, none of its steps fails. -/
theorem Breaks.not_within {d d' part : Expr} {values values' earlier : List Value}
    {failure failure' : ε} {s mid : σ} {front back : List Expr}
    (h : Breaks raise lookup d values failure s) (hsteps : d.steps = front ++ part :: back)
    (hfront : EndsAll raise lookup front s earlier mid) :
    ¬ BreaksAt raise lookup d' values' failure' part mid := by
  intro hpart
  obtain ⟨⟨last, hall⟩, -⟩ := h
  obtain ⟨after, hfails⟩ := hpart.run_eq
  rw [hsteps] at hall
  cases hall.run_eq.symm.trans (hfront.run_eq_error hfails)

theorem Breaks.unique {d : Expr} {values values' : List Value} {failure failure' : ε} {s : σ}
    (h : Breaks raise lookup d values failure s) (h' : Breaks raise lookup d values' failure' s) :
    values = values' ∧ failure = failure' := by
  obtain ⟨⟨mid, hall⟩, after, hends⟩ := h
  obtain ⟨⟨mid', hall'⟩, after', hends'⟩ := h'
  cases hall.run_eq.symm.trans hall'.run_eq
  cases (ends_iff.1 hends).2.symm.trans (ends_iff.1 hends').2
  exact ⟨rfl, rfl⟩

/-- An evaluation breaks at one node only. -/
theorem BreaksAt.unique {d d' e : Expr} {values values' : List Value} {failure failure' : ε}
    {s : σ} (h : BreaksAt raise lookup d values failure e s)
    (h' : BreaksAt raise lookup d' values' failure' e s) :
    d = d' ∧ values = values' ∧ failure = failure' := by
  induction h with
  | root h =>
    cases h' with
    | root h' => exact ⟨rfl, h.unique h'⟩
    | within hsteps hfront hpart => exact absurd hpart (h.not_within hsteps hfront)
  | within hsteps hfront hpart ih =>
    cases h' with
    | root h' => exact absurd hpart (h'.not_within hsteps hfront)
    | within hsteps' hfront' hpart' =>
      obtain ⟨after, hfails⟩ := hpart.run_eq
      obtain ⟨after', hfails'⟩ := hpart'.run_eq
      obtain ⟨rfl, rfl⟩ :=
        hfront.first_unique hfails hfront' hfails' (hsteps.symm.trans hsteps')
      exact ih hpart'

theorem exists_of_run_raising {result : Except EvalError Value} {s after : σ} {failure : ε}
    (h : (EvalError.raising (m := StateM σ) raise result).run.run s = (.error failure, after)) :
    ∃ cause, result = .error cause ∧ failure = raise cause := by
  cases result with
  | ok v => cases h
  | error cause =>
    cases h
    exact ⟨cause, rfl, rfl⟩

theorem exists_of_run_map {x : ExceptT ε (StateM σ) Value} {f : Value → Value} {s after : σ}
    {failure : ε} (h : (f <$> x).run.run s = (.error failure, after)) :
    x.run.run s = (.error failure, after) := by
  rw [← bind_pure_comp, Outcome.run_run_bind] at h
  match hrun : x.run.run s with
  | (.ok v, mid) =>
    rw [hrun] at h
    cases h
  | (.error e, mid) =>
    rw [hrun] at h
    cases h
    rfl

/-- Clauses fail only if there are two of them, which the failure names the other way round. -/
theorem combine_eq_error {op : Conjunction} {values : List Value} {cause : EvalError}
    (h : op.combine values = .error cause) :
    ∃ v w, values = [v, w] ∧
      cause = .operandTypes (.binary (.logic op)) w.columnType? v.columnType? := by
  unfold Conjunction.combine at h
  split at h
  · cases h
  · next first last => exact ⟨first, last, rfl, BinaryFunction.conjoin_eq_error h⟩
  · cases h

/-- The failure of a node follows from the values of what is computed for it. -/
theorem Breaks.told {d : Expr} {values : List Value} {failure : ε} {s : σ}
    (h : Breaks raise lookup d values failure s) : Told raise lookup d values failure := by
  obtain ⟨⟨mid, hall⟩, after, hends⟩ := h
  obtain ⟨⟨code, hcode⟩, hrun⟩ := ends_iff.1 hends
  rw [interpret_eq_bind, Outcome.run_run_bind_of_ok hall.run_eq] at hrun
  cases d with
  | column c =>
    cases hall
    exact .column hrun
  | literal v => cases hrun
  | null => cases hrun
  | group items => cases hrun
  | unary op operand =>
    obtain _ | ⟨-, _ | _⟩ := hall
    obtain ⟨cause, hcause, rfl⟩ := exists_of_run_raising hrun
    rw [← apply_functionOfUnary] at hcause
    exact .unary hcause (UnaryFunction.error_cases hcause)
  | binary op left right =>
    obtain _ | ⟨-, _ | ⟨-, _ | _⟩⟩ := hall
    obtain ⟨cause, hcause, rfl⟩ := exists_of_run_raising hrun
    obtain ⟨f, hf, -⟩ := Outcome.bind_eq_ok_iff.1 hcode
    rw [apply_of_functionOf hf] at hcause
    exact .binary hf hcause (BinaryFunction.error_cases hcause)
  | test c t =>
    cases hall
    exact .test (exists_of_run_map hrun)
  | clauses op items =>
    obtain ⟨cause, hcause, rfl⟩ := exists_of_run_raising hrun
    obtain ⟨v, w, rfl, rfl⟩ := combine_eq_error hcause
    obtain _ | ⟨-, _ | ⟨-, _ | _⟩⟩ := hall
    exact .clauses
  | call function arguments => cases hcode

theorem BreaksAt.told {d e : Expr} {values : List Value} {failure : ε} {s : σ}
    (h : BreaksAt raise lookup d values failure e s) : Told raise lookup d values failure := by
  induction h with
  | root h => exact h.told
  | within _ _ _ ih => exact ih

/-- An evaluation that fails, whatever the lookup does, breaks at exactly one node of the tree, and
the failure follows from the values that were computed for that node. If an operator refuses its two
operands by their types, it names those of the left and of the right operand as they stand in the
tree; two clauses are refused by the types of the last and of the first one. -/
theorem told_of_ends {e : Expr} {s after : σ} {failure : ε}
    (h : Ends raise lookup e s (.error failure) after) :
    ∃ d values, BreaksAt raise lookup d values failure e s ∧ Told raise lookup d values failure ∧
      ∀ other values' failure', BreaksAt raise lookup other values' failure' e s →
        other = d ∧ values' = values ∧ failure' = failure := by
  obtain ⟨d, values, hd⟩ := exists_breaksAt h
  exact ⟨d, values, hd, hd.told, fun other values' failure' hother => hother.unique hd⟩

end Origins

/-- The sample row behind a count of the columns asked for. -/
def sampleCounted (c : Column) : ExceptT EvalError (StateM Nat) Value :=
  ExceptT.mk fun asked => (Program.sampleRow 2 c, asked + 1)

/-- A comparison of a number with a text. -/
def sampleCompared : Expr :=
  .binary (.compare .lt) (.column (Program.sampleColumn 0 .int32)) (.literal (.string "x"))

/-- The comparison breaks, below two clauses. -/
theorem told_of_ends_sampleCompared :
    ∃ d values failure, BreaksAt id sampleCounted d values failure
        (.clauses .or [.unary .not sampleCompared, .literal (.boolean true)]) 0 ∧
      d = sampleCompared ∧ values = [.string "x", .int32 7] ∧
      failure = .operandTypes (.binary (.compare .lt)) (some .int32) (some .varchar) := by
  have hends : Ends id sampleCounted
      (.clauses .or [.unary .not sampleCompared, .literal (.boolean true)]) 0
      (.error (.operandTypes (.binary (.compare .lt)) (some .int32) (some .varchar))) 1 :=
    ⟨_, rfl, rfl⟩
  obtain ⟨d, values, hd, -, hunique⟩ := told_of_ends hends
  have hcompared : BreaksAt id sampleCounted sampleCompared [.string "x", .int32 7]
      (.operandTypes (.binary (.compare .lt)) (some .int32) (some .varchar))
      (.clauses .or [.unary .not sampleCompared, .literal (.boolean true)]) 0 := by
    refine .within (by rfl) (.nil 0) (.within (by rfl) (.nil 0) (.root ?_))
    exact ⟨⟨1, .cons ⟨_, rfl, rfl⟩ (.cons ⟨_, rfl, rfl⟩ (.nil 1))⟩, 1, _, rfl, rfl⟩
  obtain ⟨rfl, rfl, -⟩ := hunique _ _ _ hcompared
  exact ⟨_, _, _, hd, rfl, rfl, rfl⟩

/-- True and a number under AND. -/
def sampleMixed : Expr := .clauses .and [.literal (.boolean true), .literal (.int32 1)]

/-- Two clauses that are refused by the types of the last and of the first: the failure does not
name the type of the first clause on the left and that of the last one on the right. -/
theorem sampleMixed_names_last_first :
    Ends id sampleCounted sampleMixed 0
        (.error (.operandTypes (.binary (.logic .and)) (some .int32) (some .boolean))) 0 ∧
      ¬ ∀ e op first last v w f left right s,
        BreaksAt id sampleCounted (.clauses op [first, last]) [v, w]
          (.operandTypes f left right) e s →
        left = v.columnType? ∧ right = w.columnType? := by
  have hends : Ends id sampleCounted sampleMixed 0
      (.error (.operandTypes (.binary (.logic .and)) (some .int32) (some .boolean))) 0 :=
    ⟨_, rfl, rfl⟩
  refine ⟨hends, fun h => ?_⟩
  have hbreaks : Breaks id sampleCounted sampleMixed [.boolean true, .int32 1]
      (.operandTypes (.binary (.logic .and)) (some .int32) (some .boolean)) 0 :=
    ⟨⟨0, .cons ⟨_, rfl, rfl⟩ (.cons ⟨_, rfl, rfl⟩ (.nil 0))⟩, 0, hends⟩
  cases (h _ _ _ _ _ _ _ _ _ _ (.root hbreaks)).1

end RowFlags.Expr
