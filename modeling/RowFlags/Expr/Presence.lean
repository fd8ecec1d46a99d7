import RowFlags.Expr.Basic

/-!
# Presence of columns

A bare column that is not Boolean, used as a condition, means that it has a value. `asCondition`
says so outright: the column becomes a test that it is not NULL, its negation a test that it is.
Clauses are rephrased each for itself; inside any other expression nothing changes.
-/

set_option autoImplicit false

namespace RowFlags.Expr

mutual

/-- The expression as a condition, with the presence of columns spelled out. -/
def asCondition : Expr → Expr
  | .column c => if c.isBoolean then .column c else isNotNull (.column c)
  | .unary .not (.column c) => if c.isBoolean then .unary .not (.column c) else isNull (.column c)
  | .clauses op items => .clauses op (asConditions items)
  | e => e

/-- Each expression as a condition. -/
def asConditions : List Expr → List Expr
  | [] => []
  | item :: rest => item.asCondition :: asConditions rest

end

theorem asConditions_eq_map (items : List Expr) : asConditions items = items.map asCondition := by
  induction items with
  | nil => rfl
  | cons item rest ih => simp [asConditions, ih]

end RowFlags.Expr
