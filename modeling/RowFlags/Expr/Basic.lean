import RowFlags.Function.Basic
import RowFlags.Schema.Column
import RowFlags.Value.Basic

/-!
# Expressions

Conditions and terms over the columns of a row, as trees. The builders keep nested clauses of one
conjunction flat and negate a bare Boolean column by a test of it.
-/

set_option autoImplicit false

namespace RowFlags

/-- Operators before one operand. -/
inductive UnaryOp where
  | not
  | neg
  deriving DecidableEq

/-- Operators between two operands. -/
inductive BinaryOp where
  | arithmetic (op : Arithmetic)
  | eq
  | ne
  | compare (relation : Relation)
  /-- Equality under its name for tests of NULL. -/
  | is
  | isNot
  | member
  | notMember
  | contains
  | concat
  /-- An operator of the user's own, which is written but never computed. -/
  | custom (operator : String)
  deriving DecidableEq

/-- Tests of one column. -/
inductive TruthTest where
  | isNull
  | isNotNull
  | isTrue
  | isFalse
  deriving DecidableEq

/-- An expression over columns. -/
inductive Expr where
  | column (c : Column)
  | literal (v : Value)
  | null
  /-- A list in parentheses. -/
  | group (items : List Expr)
  | unary (op : UnaryOp) (operand : Expr)
  | binary (op : BinaryOp) (left right : Expr)
  | test (c : Column) (t : TruthTest)
  /-- Any number of clauses under one conjunction. -/
  | clauses (op : Conjunction) (items : List Expr)
  /-- A call of a database function, which is written but never computed. -/
  | call (function : String) (arguments : List Expr)

namespace Expr

instance : Inhabited Expr := ⟨.null⟩

mutual

/-- Whether two expressions are the same tree. -/
def same : Expr → Expr → Bool
  | .column c, .column d => c == d
  | .literal v, .literal w => v == w
  | .null, .null => true
  | .group as, .group bs => sameItems as bs
  | .unary p a, .unary q b => p == q && same a b
  | .binary p a b, .binary q c d => p == q && (same a c && same b d)
  | .test c t, .test d u => c == d && t == u
  | .clauses p as, .clauses q bs => p == q && sameItems as bs
  | .call f as, .call g bs => f == g && sameItems as bs
  | _, _ => false

/-- Whether two lists hold the same trees in the same order. -/
def sameItems : List Expr → List Expr → Bool
  | [], [] => true
  | a :: as, b :: bs => same a b && sameItems as bs
  | _, _ => false

end

mutual

theorem same_iff : (a b : Expr) → (same a b = true ↔ a = b)
  | .column _, b => by cases b <;> simp [same]
  | .literal _, b => by cases b <;> simp [same]
  | .null, b => by cases b <;> simp [same]
  | .group as, b => by cases b <;> simp [same, sameItems_iff as]
  | .unary _ a, b => by cases b <;> simp [same, same_iff a]
  | .binary _ a₁ a₂, b => by cases b <;> simp [same, same_iff a₁, same_iff a₂]
  | .test _ _, b => by cases b <;> simp [same]
  | .clauses _ as, b => by cases b <;> simp [same, sameItems_iff as]
  | .call _ as, b => by cases b <;> simp [same, sameItems_iff as]

theorem sameItems_iff : (as bs : List Expr) → (sameItems as bs = true ↔ as = bs)
  | [], bs => by cases bs <;> simp [sameItems]
  | a :: as, bs => by cases bs <;> simp [sameItems, same_iff a, sameItems_iff as]

end

instance : DecidableEq Expr := fun a b => decidable_of_iff _ (same_iff a b)

/-- What the tree's root is called. -/
def kind : Expr → String
  | .column _ => "column"
  | .literal _ => "literal"
  | .null => "null"
  | .group _ => "grouping"
  | .unary _ _ => "unary expression"
  | .binary _ _ _ => "binary expression"
  | .test _ _ => "boolean test"
  | .clauses _ _ => "clause list"
  | .call _ _ => "function call"

mutual

/-- Whether no column occurs in the expression. -/
def isConstant : Expr → Bool
  | .column _ => false
  | .literal _ => true
  | .null => true
  | .group items => areConstant items
  | .unary _ operand => operand.isConstant
  | .binary _ left right => left.isConstant && right.isConstant
  | .test _ _ => false
  | .clauses _ items => areConstant items
  | .call _ arguments => areConstant arguments

/-- Whether no column occurs in any of the expressions. -/
def areConstant : List Expr → Bool
  | [] => true
  | item :: rest => item.isConstant && areConstant rest

end

/-! ## Builders -/

/-- The clauses that an expression adds to a list under `op`: its own if it is such a list. -/
def clausesUnder (op : Conjunction) : Expr → List Expr
  | .clauses inner items => if inner = op then items else [.clauses inner items]
  | e => [e]

/-- The expressions under one conjunction, with lists of the same conjunction dissolved. -/
def conjoin (op : Conjunction) (items : List Expr) : Expr :=
  .clauses op (items.flatMap (clausesUnder op))

/-- Both expressions. -/
def and (left right : Expr) : Expr := conjoin .and [left, right]

/-- Either expression. -/
def or (left right : Expr) : Expr := conjoin .or [left, right]

/-- The negation: for a bare Boolean column the test that it is false. -/
def not : Expr → Expr
  | .column c => if c.isBoolean then .test c .isFalse else .unary .not (.column c)
  | e => .unary .not e

/-- The opposite number. -/
def neg (e : Expr) : Expr := .unary .neg e

/-- The expression is NULL. -/
def isNull (e : Expr) : Expr := .binary .is e .null

/-- The expression is not NULL. -/
def isNotNull (e : Expr) : Expr := .binary .isNot e .null

/-- The expression is one of the items. -/
def isIn (e : Expr) (items : List Expr) : Expr := .binary .member e (.group items)

/-- The expression is none of the items. -/
def isNotIn (e : Expr) (items : List Expr) : Expr := .binary .notMember e (.group items)

theorem areConstant_eq_all (items : List Expr) : areConstant items = items.all isConstant := by
  induction items with
  | nil => rfl
  | cons item rest ih => simp [areConstant, ih]

end Expr

end RowFlags
