import RowFlags.Proofs.Expression.Presence
import RowFlags.Proofs.Expression.Rephrasing

/-!
# Conditions that are true or false

Equalities, tests, and negations and lists of such conditions have no third value: what comes out of
them, if they do not fail, is a Boolean (`Expr.IsBoolean.of_interpret`). So it is with formulas over
columns that are not Boolean, for as conditions they are put together from tests of NULL
(`Formula.isBoolean_asCondition`).
-/

set_option autoImplicit false

namespace RowFlags

/-- Booleans are conjoined to a Boolean, of whatever number they are. -/
theorem Conjunction.combine_of_booleans (op : Conjunction) {values : List Value}
    (h : ∀ v ∈ values, ∃ b, v = .boolean b) : ∃ b, op.combine values = .ok (.boolean b) := by
  unfold combine
  split
  · exact ⟨_, rfl⟩
  · next first last =>
    obtain ⟨a, rfl⟩ := h first (by simp)
    obtain ⟨b, rfl⟩ := h last (by simp)
    exact ⟨op.onBool b a, rfl⟩
  · exact ⟨_, rfl⟩

namespace Expr

/-- The expression is true or false by its form. -/
inductive IsBoolean : Expr → Prop
  | equality {op : BinaryOp} (h : op ∈ [.eq, .ne, .is, .isNot]) (left right : Expr) :
    IsBoolean (.binary op left right)
  | test (c : Column) {t : TruthTest} (h : t ≠ .isTrue) : IsBoolean (.test c t)
  | not {e : Expr} (h : IsBoolean e) : IsBoolean (.unary .not e)
  | clauses (op : Conjunction) {items : List Expr} (h : ∀ item ∈ items, IsBoolean item) :
    IsBoolean (.clauses op items)

section Values

variable {ε : Type} {raise : EvalError → ε} {lookup : Column → ExceptT ε Id Value}

theorem exists_mem_of_interpretAll {items : List Expr} {values : List Value}
    (h : (interpretAll raise lookup items).run = .ok values) {v : Value} (hv : v ∈ values) :
    ∃ item ∈ items, (interpret raise lookup item).run = .ok v := by
  induction items generalizing values with
  | nil =>
    cases h
    cases hv
  | cons item rest ih =>
    rw [interpretAll] at h
    obtain ⟨first, hfirst, h⟩ := Outcome.run_bind_eq_ok_iff.1 h
    obtain ⟨others, hothers, h⟩ := Outcome.run_bind_eq_ok_iff.1 h
    cases h
    rcases List.mem_cons.1 hv with rfl | hv
    · exact ⟨item, List.mem_cons_self, hfirst⟩
    · obtain ⟨other, hother, hvalue⟩ := ih hothers hv
      exact ⟨other, List.mem_cons_of_mem _ hother, hvalue⟩

/-- What is true or false by its form has no other value. -/
theorem IsBoolean.of_interpret {e : Expr} (h : e.IsBoolean) {v : Value}
    (hv : (e.interpret raise lookup).run = .ok v) : ∃ b, v = .boolean b := by
  induction h generalizing v with
  | @equality op hop left right =>
    obtain ⟨w, -, hv⟩ := Outcome.run_bind_eq_ok_iff.1 hv
    obtain ⟨u, -, hv⟩ := Outcome.run_bind_eq_ok_iff.1 hv
    simp only [List.mem_cons, List.not_mem_nil, or_false] at hop
    rcases hop with rfl | rfl | rfl | rfl <;> cases hv <;> exact ⟨_, rfl⟩
  | @test c t ht =>
    obtain ⟨w, -, hv⟩ := Outcome.run_bind_eq_ok_iff.1 hv
    cases hv
    cases t with
    | isTrue => exact absurd rfl ht
    | _ => exact ⟨_, rfl⟩
  | not _ ih =>
    obtain ⟨w, hw, hv⟩ := Outcome.run_bind_eq_ok_iff.1 hv
    obtain ⟨b, rfl⟩ := ih hw
    cases hv
    exact ⟨_, rfl⟩
  | @clauses op items _ ih =>
    obtain ⟨values, hvalues, hv⟩ := Outcome.run_bind_eq_ok_iff.1 hv
    obtain ⟨b, hb⟩ := op.combine_of_booleans fun w hw => by
      obtain ⟨item, hitem, hvalue⟩ := exists_mem_of_interpretAll hvalues hw
      exact ih item hitem hvalue
    rw [hb] at hv
    cases hv
    exact ⟨b, rfl⟩

end Values

end Expr

namespace Formula

section Parts

variable {P : Expr → Prop}

mutual

/-- What holds of columns and their negations, and of lists of what it holds of, holds of formulas,
and of all clauses that they add to a list. -/
theorem induction_clauses (hlist : ∀ op items, (∀ item ∈ items, P item) → P (.clauses op items)) :
    (f : Formula) → (∀ c ∈ f.columns, P (.column c) ∧ P (Expr.column c).not) →
      P f.toExpr ∧ ∀ op, ∀ item ∈ f.toExpr.clausesUnder op, P item
  | .column c, h => by
    have hc := (h c (by simp [columns])).1
    exact ⟨hc, fun op => List.forall_mem_singleton.2 hc⟩
  | .notColumn c, h => by
    have hc := (h c (by simp [columns])).2
    refine ⟨hc, fun op => ?_⟩
    rw [toExpr, clausesUnder_not_column]
    exact List.forall_mem_singleton.2 hc
  | .conjoin inner first rest, h => by
    have hfirst := induction_clauses hlist first fun c hc => h c (by simp [columns, hc])
    have hrest := induction_clausesAll hlist rest fun c hc => h c (by simp [columns, hc])
    have hmembers : ∀ item ∈ (toExprs (first :: rest)).flatMap (Expr.clausesUnder inner),
        P item := by
      rw [toExprs, List.flatMap_cons]
      exact List.forall_mem_append.2 ⟨hfirst.2 inner, hrest inner⟩
    have hwhole := hlist inner _ hmembers
    refine ⟨hwhole, fun op => ?_⟩
    rw [toExpr, Expr.conjoin, Expr.clausesUnder]
    split
    · exact hmembers
    · exact List.forall_mem_singleton.2 hwhole

theorem induction_clausesAll
    (hlist : ∀ op items, (∀ item ∈ items, P item) → P (.clauses op items)) :
    (fs : List Formula) → (∀ c ∈ columnsOf fs, P (.column c) ∧ P (Expr.column c).not) →
      ∀ op, ∀ item ∈ (toExprs fs).flatMap (Expr.clausesUnder op), P item
  | [], _ => fun _ => List.forall_mem_nil P
  | f :: rest, h => fun op => by
    have hfirst := induction_clauses hlist f fun c hc => h c (by simp [columnsOf, hc])
    have hrest := induction_clausesAll hlist rest fun c hc => h c (by simp [columnsOf, hc])
    rw [toExprs, List.flatMap_cons]
    exact List.forall_mem_append.2 ⟨hfirst.2 op, hrest op⟩

end

end Parts

/-- Over columns that are not Boolean, a formula is a condition that is true or false. -/
theorem isBoolean_asCondition {f : Formula} (h : ∀ c ∈ f.columns, c.isBoolean = false) :
    f.toExpr.asCondition.IsBoolean := by
  refine (induction_clauses (P := fun e => e.asCondition.IsBoolean) ?_ f ?_).1
  · intro op items hitems
    rw [Expr.asCondition_clauses]
    exact .clauses op (List.forall_mem_map.2 hitems)
  · intro c hc
    constructor
    · rw [Expr.asCondition, if_neg (by simp [h c hc])]
      exact .equality (by simp) _ _
    · rw [Expr.not, if_neg (by simp [h c hc]), Expr.asCondition, if_neg (by simp [h c hc])]
      exact .equality (by simp) _ _

theorem names_asCondition_column {c d : Column} :
    (Expr.column c).asCondition.Names d ↔ c = d := by
  rw [Expr.asCondition]
  split <;> simp [Expr.isNotNull]

theorem names_asCondition_notColumn {c d : Column} :
    (Expr.column c).not.asCondition.Names d ↔ c = d := by
  rw [Expr.not]
  split
  · simp [Expr.asCondition]
  · next hother => simp [Expr.asCondition, hother, Expr.isNull]

theorem names_asCondition_clauses {op : Conjunction} {items : List Expr} {d : Column} :
    (Expr.clauses op items).asCondition.Names d ↔ ∃ item ∈ items, item.asCondition.Names d := by
  rw [Expr.asCondition_clauses, Expr.names_clauses]
  simp

section Columns

variable (d : Column)

mutual

/-- Whatever clauses a formula adds to a list, they name its columns. -/
theorem names_clausesUnder (op : Conjunction) : (f : Formula) →
    ((∃ item ∈ f.toExpr.clausesUnder op, item.asCondition.Names d) ↔ d ∈ f.columns)
  | .column c => by
    show (∃ item ∈ [Expr.column c], item.asCondition.Names d) ↔ d ∈ [c]
    simp [names_asCondition_column, eq_comm]
  | .notColumn c => by
    rw [toExpr, clausesUnder_not_column]
    simp [columns, names_asCondition_notColumn, eq_comm]
  | .conjoin inner first rest => by
    have hmembers : (∃ item ∈ (toExprs (first :: rest)).flatMap (Expr.clausesUnder inner),
        item.asCondition.Names d) ↔ d ∈ (conjoin inner first rest).columns := by
      rw [toExprs, List.flatMap_cons, columns, List.mem_append, ← names_clausesUnder inner first,
        ← names_clausesUnderAll inner rest]
      simp only [List.mem_append, or_and_right, exists_or]
    rw [toExpr, Expr.conjoin, Expr.clausesUnder]
    split
    · exact hmembers
    · rw [← hmembers]
      simp only [List.mem_singleton, exists_eq_left]
      exact names_asCondition_clauses

theorem names_clausesUnderAll (op : Conjunction) : (fs : List Formula) →
    ((∃ item ∈ (toExprs fs).flatMap (Expr.clausesUnder op), item.asCondition.Names d) ↔
      d ∈ columnsOf fs)
  | [] => by simp [toExprs, columnsOf]
  | f :: rest => by
    rw [toExprs, List.flatMap_cons, columnsOf, List.mem_append, ← names_clausesUnder op f,
      ← names_clausesUnderAll op rest]
    simp only [List.mem_append, or_and_right, exists_or]

end

end Columns

/-- As a condition a formula names its columns. -/
theorem names_asCondition_iff {f : Formula} {c : Column} :
    f.toExpr.asCondition.Names c ↔ c ∈ f.columns := by
  obtain ⟨op, hsingle⟩ := f.toExpr.exists_clausesUnder_eq_singleton
  rw [← names_clausesUnder c op f, hsingle]
  simp

end Formula

end RowFlags
