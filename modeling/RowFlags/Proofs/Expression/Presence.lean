import RowFlags.Expr.Presence
import RowFlags.Proofs.Expression.Truths

/-!
# Conditions over the presence of columns

A formula says of columns that they are there: a Boolean column that it is true, any other that it
has a value. Rephrased as a condition it is computed with NULLs, by two-clause conjunctions that may
leave a truth unknown and by reducers that may not. The unknown never shows: at every place of a
formula it counts as false, and the condition is truthy exactly where the formula holds
(`Formula.evaluate_asCondition`).
-/

set_option autoImplicit false

namespace RowFlags

/-! ## Conditions that decide -/

namespace Expr

variable {ε : Type} (raise : EvalError → ε) (lookup : Column → Except ε Value)

/-- As a condition the expression compiles, and its value is a truth that counts as the given
one. -/
def Decides (e : Expr) (truth : Bool) : Prop :=
  (∃ code, e.asCondition.compile = .ok code) ∧
    ∃ v : Value, e.asCondition.interpret (m := Id) raise lookup = pure v ∧ v.IsTruth ∧
      v.truthy = truth

/-- Each of the expressions decides, and what they decide comes to the given truth under `op`. -/
def DecideUnder (op : Conjunction) (items : List Expr) (truth : Bool) : Prop :=
  ∃ truths, List.Forall₂ (Decides raise lookup) items truths ∧ op.holds truths = truth

variable {raise lookup}

theorem decideUnder_singleton {op : Conjunction} {e : Expr} {truth : Bool} :
    DecideUnder raise lookup op [e] truth ↔ Decides raise lookup e truth := by
  constructor
  · rintro ⟨truths, h, rfl⟩
    cases h with
    | cons hitem hrest =>
      cases hrest
      rwa [op.holds_singleton]
  · intro h
    exact ⟨[truth], .cons h .nil, op.holds_singleton truth⟩

theorem DecideUnder.append {op : Conjunction} {front back : List Expr} {a b : Bool}
    (hfront : DecideUnder raise lookup op front a) (hback : DecideUnder raise lookup op back b) :
    DecideUnder raise lookup op (front ++ back) (op.onBool a b) := by
  obtain ⟨as, has, rfl⟩ := hfront
  obtain ⟨bs, hbs, rfl⟩ := hback
  exact ⟨as ++ bs, List.rel_append has hbs, op.holds_append as bs⟩

/-- Clauses that each decide are decided by their conjunction. -/
theorem DecideUnder.clauses {op : Conjunction} {items : List Expr} {truth : Bool}
    (h : DecideUnder raise lookup op items truth) (hne : items ≠ []) :
    Decides raise lookup (.clauses op items) truth := by
  obtain ⟨truths, hitems, rfl⟩ := h
  have hclauses : List.Forall₂ (Tells raise lookup) (asConditions items) truths := by
    rw [asConditions_eq_map, List.forall₂_map_left_iff]
    exact hitems
  refine tells_clauses hclauses fun _ => ?_
  rwa [asConditions_eq_map, ne_eq, List.map_eq_nil_iff]

/-- Clauses decide the same under any conjunction, dissolved in it or not. -/
theorem DecideUnder.dissolve {inner : Conjunction} {items : List Expr} {truth : Bool}
    (h : DecideUnder raise lookup inner items truth) (hne : items ≠ []) (outer : Conjunction) :
    DecideUnder raise lookup outer (clausesUnder outer (.clauses inner items)) truth := by
  rw [clausesUnder]
  split
  case isTrue hsame =>
    subst hsame
    exact h
  case isFalse => exact decideUnder_singleton.2 (h.clauses hne)

/-- There is a conjunction under which an expression is one clause. -/
theorem exists_clausesUnder_eq_singleton (e : Expr) : ∃ op, clausesUnder op e = [e] := by
  cases e with
  | clauses op items =>
    cases op
    · exact ⟨.or, rfl⟩
    · exact ⟨.and, rfl⟩
  | _ => exact ⟨.and, rfl⟩

end Expr

/-! ## Formulas -/

/-- A formula over the presence of columns. Conjunctions have at least one member. -/
inductive Formula where
  | column (c : Column)
  | notColumn (c : Column)
  | conjoin (op : Conjunction) (first : Formula) (rest : List Formula)

namespace Formula

mutual

/-- The formula as it is built from expressions. -/
def toExpr : Formula → Expr
  | .column c => .column c
  | .notColumn c => (Expr.column c).not
  | .conjoin op first rest => .conjoin op (first.toExpr :: toExprs rest)

/-- The formulas as they are built from expressions. -/
def toExprs : List Formula → List Expr
  | [] => []
  | f :: rest => f.toExpr :: toExprs rest

end

mutual

/-- The columns of a formula. -/
def columns : Formula → List Column
  | .column c => [c]
  | .notColumn c => [c]
  | .conjoin _ first rest => first.columns ++ columnsOf rest

/-- The columns of formulas. -/
def columnsOf : List Formula → List Column
  | [] => []
  | f :: rest => f.columns ++ columnsOf rest

end

section Meaning

variable (valueOf : Column → Value)

/-- A Boolean column is there if it is true, any other if it has a value. -/
def present (c : Column) : Bool :=
  if c.isBoolean then valueOf c = .boolean true else valueOf c ≠ .null

mutual

/-- Whether a formula holds where columns have the given values. -/
def holds : Formula → Bool
  | .column c => present valueOf c
  | .notColumn c => !present valueOf c
  | .conjoin op first rest => op.holds (holds first :: holdsAll rest)

/-- Whether each of the formulas holds. -/
def holdsAll : List Formula → List Bool
  | [] => []
  | f :: rest => holds f :: holdsAll rest

end

end Meaning

section Conditions

variable {ε : Type} {raise : EvalError → ε} {lookup : Column → Except ε Value}
variable {valueOf : Column → Value}

variable (lookup valueOf) in
/-- The lookup gives the columns their values, and truths to the Boolean ones. -/
def Given (columns : List Column) : Prop :=
  ∀ c ∈ columns, lookup c = .ok (valueOf c) ∧ (c.isBoolean = true → (valueOf c).IsTruth)

theorem given_append {front back : List Column} :
    Given lookup valueOf (front ++ back) ↔
      Given lookup valueOf front ∧ Given lookup valueOf back :=
  List.forall_mem_append

theorem decides_column {c : Column} (h : Given lookup valueOf [c]) :
    (Expr.column c).Decides raise lookup (present valueOf c) := by
  obtain ⟨hlookup, htruth⟩ := h c (by simp)
  unfold present
  split
  case isTrue hboolean =>
    simp only [Expr.Decides, Expr.asCondition, hboolean, if_true, Expr.interpret]
    refine ⟨⟨_, rfl⟩, valueOf c, hlookup, htruth hboolean, ?_⟩
    obtain hv | ⟨b, hv⟩ := htruth hboolean <;> simp [hv, Value.truthy]
  case isFalse hboolean =>
    simp only [Expr.Decides, Expr.asCondition, if_neg hboolean, Expr.isNotNull]
    refine ⟨⟨_, rfl⟩, .boolean (valueOf c ≠ .null), ?_, .inr ⟨_, rfl⟩, rfl⟩
    rw [Expr.interpret, Expr.interpret, Expr.interpret, hlookup]
    rfl

theorem decides_notColumn {c : Column} (h : Given lookup valueOf [c]) :
    (Expr.column c).not.Decides raise lookup (!present valueOf c) := by
  obtain ⟨hlookup, htruth⟩ := h c (by simp)
  unfold present
  split
  case isTrue hboolean =>
    simp only [Expr.Decides, Expr.not, Expr.asCondition, hboolean, if_true]
    refine ⟨⟨_, rfl⟩, .boolean !(valueOf c).truthy, ?_, .inr ⟨_, rfl⟩, ?_⟩
    · rw [Expr.interpret, hlookup]
      rfl
    · obtain hv | ⟨b, hv⟩ := htruth hboolean <;> simp [hv, Value.truthy]
  case isFalse hboolean =>
    simp only [Expr.Decides, Expr.not, Expr.asCondition, if_neg hboolean, Expr.isNull]
    refine ⟨⟨_, rfl⟩, .boolean (valueOf c = .null), ?_, .inr ⟨_, rfl⟩, by simp [Value.truthy]⟩
    rw [Expr.interpret, Expr.interpret, Expr.interpret, hlookup]
    rfl

/-- A negated column is one clause, in both of its forms. -/
theorem clausesUnder_not_column (op : Conjunction) (c : Column) :
    (Expr.column c).not.clausesUnder op = [(Expr.column c).not] := by
  rw [Expr.not]
  split <;> rfl

theorem clausesUnder_toExpr_ne_nil (op : Conjunction) :
    (f : Formula) → f.toExpr.clausesUnder op ≠ []
  | .column c => List.cons_ne_nil _ _
  | .notColumn c => by
    rw [toExpr, clausesUnder_not_column]
    exact List.cons_ne_nil _ _
  | .conjoin inner first rest => by
    rw [toExpr, Expr.conjoin, Expr.clausesUnder]
    split
    · simp [clausesUnder_toExpr_ne_nil inner first]
    · exact List.cons_ne_nil _ _

variable (raise)

mutual

/-- Whatever clauses a formula adds to a list, they come to its truth there. -/
theorem decideUnder_toExpr (op : Conjunction) : (f : Formula) → Given lookup valueOf f.columns →
    Expr.DecideUnder raise lookup op (f.toExpr.clausesUnder op) (f.holds valueOf)
  | .column _, h => Expr.decideUnder_singleton.2 (decides_column h)
  | .notColumn c, h => by
    rw [toExpr, clausesUnder_not_column]
    exact Expr.decideUnder_singleton.2 (decides_notColumn h)
  | .conjoin inner first rest, h => by
    obtain ⟨hfirst, hrest⟩ := given_append.1 h
    have hmembers := (decideUnder_toExpr inner first hfirst).append
      (decideUnder_toExprs inner rest hrest)
    rw [← inner.holds_cons, ← List.flatMap_cons] at hmembers
    refine hmembers.dissolve ?_ op
    simp [clausesUnder_toExpr_ne_nil inner first]

theorem decideUnder_toExprs (op : Conjunction) : (fs : List Formula) →
    Given lookup valueOf (columnsOf fs) →
    Expr.DecideUnder raise lookup op ((toExprs fs).flatMap (Expr.clausesUnder op))
      (op.holds (holdsAll valueOf fs))
  | [], _ => ⟨[], .nil, rfl⟩
  | f :: rest, h => by
    obtain ⟨hfirst, hrest⟩ := given_append.1 h
    have hmembers := (decideUnder_toExpr op f hfirst).append (decideUnder_toExprs op rest hrest)
    rwa [← op.holds_cons, ← List.flatMap_cons] at hmembers

end

theorem decides_toExpr {f : Formula} (h : Given lookup valueOf f.columns) :
    f.toExpr.Decides raise lookup (f.holds valueOf) := by
  obtain ⟨op, hsingle⟩ := f.toExpr.exists_clausesUnder_eq_singleton
  have hdecided := decideUnder_toExpr raise op f h
  rw [hsingle] at hdecided
  exact Expr.decideUnder_singleton.1 hdecided

end Conditions

/-- Every formula compiles as a condition. On a row that gives its columns values, and truths for
the Boolean ones, the program does not fail: its value is a truth, and it is truthy exactly where
the formula holds. -/
theorem evaluate_asCondition (f : Formula) :
    ∃ p, Program.ofExpr f.toExpr.asCondition = .ok p ∧
      ∀ (ε : Type) (raise : EvalError → ε) (lookup : Column → Except ε Value)
        (valueOf : Column → Value), Given lookup valueOf f.columns →
        ∃ v, p.evaluate raise lookup = .ok v ∧ (v = .null ∨ ∃ b, v = .boolean b) ∧
          v.truthy = f.holds valueOf := by
  have hnull : Given (fun _ => (.ok .null : Except EvalError Value)) (fun _ => .null) f.columns :=
    fun _ _ => ⟨rfl, fun _ => .inl rfl⟩
  obtain ⟨⟨code, hcode⟩, -⟩ := decides_toExpr id hnull
  refine ⟨⟨f.toExpr.asCondition, code⟩, ?_, ?_⟩
  · rw [Program.ofExpr, hcode]
    rfl
  · intro ε raise lookup valueOf hgiven
    obtain ⟨-, v, hv, htruth, htruthy⟩ := decides_toExpr raise hgiven
    refine ⟨v, ?_, htruth, htruthy⟩
    rw [Program.evaluate, Program.evaluateCode_of_compile (m := Id) raise lookup hcode]
    exact hv

/-- A Boolean column, a text and a number. -/
def sampleFlag : Column := Program.sampleColumn 0 .boolean

@[inherit_doc sampleFlag]
def sampleText : Column := Program.sampleColumn 1 .varchar

@[inherit_doc sampleFlag]
def sampleNumber : Column := Program.sampleColumn 2 .int32

/-- Either the flag and a number, or all of: a number, no flag, and a flag or a text. -/
def sampleFormula : Formula :=
  .conjoin .or (.conjoin .and (.column sampleFlag) [.column sampleNumber])
    [.conjoin .and (.column sampleNumber)
      [.notColumn sampleFlag, .conjoin .or (.column sampleFlag) [.column sampleText]]]

/-- A row whose number is zero, with neither flag nor text. -/
def sampleValueOf (c : Column) : Value := if c.position = 2 then .int32 0 else .null

/-- The lookup in that row. -/
def sampleLookup (c : Column) : Except EvalError Value := .ok (sampleValueOf c)

/-- A number that is zero is there. The flag is NULL, which leaves the conjunction of it and the
number unknown, but not the formula. -/
theorem evaluate_asCondition_sampleFormula :
    Given sampleLookup sampleValueOf sampleFormula.columns ∧
      ∃ p v, Program.ofExpr sampleFormula.toExpr.asCondition = .ok p ∧
        p.evaluate id sampleLookup = .ok v ∧ v.truthy = false := by
  have hgiven : Given sampleLookup sampleValueOf sampleFormula.columns := by
    intro c hc
    refine ⟨rfl, ?_⟩
    intro hboolean
    refine .inl (if_neg ?_)
    revert c
    decide
  obtain ⟨p, hp, hvalues⟩ := evaluate_asCondition sampleFormula
  obtain ⟨v, hv, -, htruthy⟩ := hvalues EvalError id sampleLookup sampleValueOf hgiven
  exact ⟨hgiven, p, v, hp, hv, htruthy.trans rfl⟩

end Formula

end RowFlags
