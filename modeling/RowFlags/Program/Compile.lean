import RowFlags.Expr.Sql
import RowFlags.Program.Instruction
import RowFlags.Sorted

/-!
# Compiling expressions

Operands come before the operator that takes them. Of two operands the right one comes first, so
that the left one is on top of the stack; items and clauses keep their order. A list of literals is
folded into one constant, and an empty clause list is the constant true.
-/

set_option autoImplicit false

namespace RowFlags

namespace Expr

/-- The value of an expression that is a constant by its form. -/
def literal? : Expr → Option Value
  | .literal v => some v
  | .null => some .null
  | _ => none

/-- The function that computes an operator. -/
def functionOf : BinaryOp → Except EvalError BinaryFunction
  | .arithmetic op => .ok (.arithmetic op)
  | .eq => .ok .eq
  | .ne => .ok .ne
  | .compare relation => .ok (.compare relation)
  | .is => .ok .eq
  | .isNot => .ok .ne
  | .member => .ok .member
  | .notMember => .ok .notMember
  | .contains => .ok .contains
  | .concat => .ok .concat
  | .custom operator => .error (.unsupportedOperator operator)

/-- The function that computes an operator. -/
def functionOfUnary : UnaryOp → UnaryFunction
  | .not => .invert
  | .neg => .neg

/-- What a test does with the value of its column. -/
def testCode : TruthTest → List Instruction
  | .isNull => [.operate (.unary .isNull)]
  | .isNotNull => [.operate (.unary .isNotNull)]
  | .isTrue => []
  | .isFalse => [.operate (.unary .not)]

/-- The function that reduces a clause list of any length but two. -/
def reducerOf : Conjunction → Reducer
  | .and => .all
  | .or => .any

/-- The operator that combines `count` clauses. -/
def clauseOperator (op : Conjunction) (count : Nat) : Except EvalError Operator :=
  if count = 2 then .ok (.binary (.logic op)) else Operator.make (.variadic (reducerOf op)) count

theorem exists_clauseOperator (op : Conjunction) (n : Nat) :
    ∃ operator, clauseOperator op (n + 1) = .ok operator := by
  unfold clauseOperator
  split
  · exact ⟨_, rfl⟩
  · exact ⟨_, Operator.make_reducer _ _⟩

mutual

/-- The instructions that leave the value of the expression on the stack. -/
def compile : Expr → Except EvalError (List Instruction)
  | .column c => .ok [.load c]
  | .literal v => .ok [.push v]
  | .null => .ok [.push .null]
  | .group items =>
    match items.mapM literal? with
    | some values => .ok [.push (.list values)]
    | none => do
      let code ← compileAll items
      let operator ← Operator.make (.variadic .group) items.length
      return code ++ [.operate operator]
  | .unary op operand => do
    let code ← operand.compile
    return code ++ [.operate (.unary (functionOfUnary op))]
  | .binary op left right => do
    let f ← functionOf op
    let rightCode ← right.compile
    let leftCode ← left.compile
    return rightCode ++ leftCode ++ [.operate (.binary f)]
  | .test c t => .ok (.load c :: testCode t)
  | .clauses _ [] => .ok [.push (.boolean true)]
  | .clauses op items => do
    let code ← compileAll items
    let operator ← clauseOperator op items.length
    return code ++ [.operate operator]
  | .call function arguments => .error (.unsupportedCall (call function arguments).sql)

/-- The instructions that leave the values of the expressions, the last on top. -/
def compileAll : List Expr → Except EvalError (List Instruction)
  | [] => .ok []
  | item :: rest => do
    let front ← item.compile
    let back ← compileAll rest
    return front ++ back

end

end Expr

/-- A compiled expression beside the tree it comes from. -/
structure Program where
  source : Expr
  code : List Instruction

namespace Program

/-- Compiles an expression. -/
def ofExpr (e : Expr) : Except EvalError Program := do
  let code ← e.compile
  return ⟨e, code⟩

/-- The compiled text: every instruction in order. -/
def text (p : Program) : String := " ".intercalate (p.code.map Instruction.text)

/-- The columns that the program asks for, each once, in the order of columns. -/
def columns (p : Program) : List Column :=
  distinct Column.order (p.code.filterMap Instruction.column?)

/-- Programs are the same that take the same steps, whatever tree they come from. -/
def same (p q : Program) : Bool := p.code.map Instruction.key = q.code.map Instruction.key

theorem load_mem_of_mem_columns {p : Program} {c : Column} (h : c ∈ p.columns) :
    .load c ∈ p.code := by
  obtain ⟨i, hi, hcolumn⟩ := List.mem_filterMap.1 (mem_of_mem_distinct Column.order h)
  cases i <;> cases hcolumn
  exact hi

/-- A column that a program asks for is among its columns, or another of the same identity. -/
theorem exists_mem_columns {p : Program} {c : Column} (h : .load c ∈ p.code) :
    ∃ d ∈ p.columns, d.identity = c.identity := by
  have hasked : c ∈ p.code.filterMap Instruction.column? := List.mem_filterMap.2 ⟨.load c, h, rfl⟩
  obtain ⟨d, hd, heq⟩ := exists_mem_distinct Column.order hasked
  exact ⟨d, hd, (Column.order_eq_iff.1 heq).symm⟩

end Program

end RowFlags
