import RowFlags.Expr.Basic
import RowFlags.Value.Literal

/-!
# Expressions as SQL

Operands that are operators or clause lists themselves stand in parentheses; all else delimits
itself. An empty clause list is true. A search for a text is written by a pattern.
-/

set_option autoImplicit false

namespace RowFlags

def Conjunction.sql : Conjunction → String
  | .and => "AND"
  | .or => "OR"

def UnaryOp.sql : UnaryOp → String
  | .not => "NOT"
  | .neg => "-"

def Arithmetic.sql : Arithmetic → String
  | .add => "+"
  | .sub => "-"
  | .mul => "*"
  | .div => "/"

def Relation.sql : Relation → String
  | .lt => "<"
  | .le => "<="
  | .gt => ">"
  | .ge => ">="

def BinaryOp.sql : BinaryOp → String
  | .arithmetic op => op.sql
  | .eq => "="
  | .ne => "!="
  | .compare relation => relation.sql
  | .is => "IS"
  | .isNot => "IS NOT"
  | .member => "IN"
  | .notMember => "NOT IN"
  | .contains => "LIKE"
  | .concat => "||"
  | .custom operator => operator

def TruthTest.sql : TruthTest → String
  | .isNull => "IS NULL"
  | .isNotNull => "IS NOT NULL"
  | .isTrue => "IS true"
  | .isFalse => "IS false"

namespace Expr

/-- Whether the expression needs parentheses as an operand. -/
def isCompound : Expr → Bool
  | .unary _ _ => true
  | .binary _ _ _ => true
  | .clauses _ _ => true
  | _ => false

/-- Whether the expression is a clause list. -/
def isClauses : Expr → Bool
  | .clauses _ _ => true
  | _ => false

/-- The text, in parentheses if they are needed. -/
def enclosed (needed : Bool) (text : String) : String :=
  if needed then "(" ++ text ++ ")" else text

mutual

/-- The expression as SQL. -/
def sql : Expr → String
  | .column c => c.sql
  | .literal v => v.sql
  | .null => "NULL"
  | .group items => "(" ++ ", ".intercalate (sqlItems items) ++ ")"
  | .unary .not operand => "NOT " ++ enclosed operand.isCompound operand.sql
  | .unary .neg operand => "-" ++ enclosed operand.isCompound operand.sql
  | .binary .contains left right =>
    enclosed left.isCompound left.sql ++ " LIKE '%' || " ++
      enclosed right.isCompound right.sql ++ " || '%'"
  | .binary op left right =>
    enclosed left.isCompound left.sql ++ " " ++ op.sql ++ " " ++
      enclosed right.isCompound right.sql
  | .test c .isFalse => "NOT " ++ c.sql
  | .test c t => c.sql ++ " " ++ t.sql
  | .clauses _ [] => "true"
  | .clauses op items => (" " ++ op.sql ++ " ").intercalate (sqlClauses items)
  | .call function arguments => function ++ "(" ++ ", ".intercalate (sqlItems arguments) ++ ")"

/-- Each expression as SQL. -/
def sqlItems : List Expr → List String
  | [] => []
  | item :: rest => item.sql :: sqlItems rest

/-- Each expression as SQL, clause lists in parentheses. -/
def sqlClauses : List Expr → List String
  | [] => []
  | item :: rest => enclosed item.isClauses item.sql :: sqlClauses rest

end

/-- The expression as an operand of another. -/
def sqlOperand (e : Expr) : String := enclosed e.isCompound e.sql

theorem sqlItems_eq_map (items : List Expr) : sqlItems items = items.map sql := by
  induction items with
  | nil => rfl
  | cons item rest ih => simp [sqlItems, ih]

theorem sqlClauses_eq_map (items : List Expr) :
    sqlClauses items = items.map fun e => enclosed e.isClauses e.sql := by
  induction items with
  | nil => rfl
  | cons item rest ih => simp [sqlClauses, ih]

end Expr

end RowFlags
