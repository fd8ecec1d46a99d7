import RowFlags.Function.Error
import RowFlags.Value.Literal

/-!
# Instructions

A compiled expression is a sequence of instructions for a stack of values. An operator carries the
number of operands it takes, which its function must accept.
-/

set_option autoImplicit false

namespace RowFlags

/-- A function with the number of operands it takes. -/
structure Operator where
  function : Function
  arity : Nat
  accepted : function.accepts arity = true
  deriving DecidableEq

namespace Operator

/-- The operator of a function on one operand. -/
def unary (f : UnaryFunction) : Operator := ⟨.unary f, 1, rfl⟩

/-- The operator of a function on two operands. -/
def binary (f : BinaryFunction) : Operator := ⟨.binary f, 2, rfl⟩

/-- The operator of a function on `arity` operands, if it takes so many. -/
def make (function : Function) (arity : Nat) : Except EvalError Operator :=
  if h : function.accepts arity = true then .ok ⟨function, arity, h⟩
  else .error (.invalidArity function arity)

/-- An operator in compiled text: its function and its operand count. -/
def text (op : Operator) : String := op.function.name ++ "/" ++ op.arity.repr

@[simp] theorem make_reducer (f : Reducer) (n : Nat) :
    make (.variadic f) (n + 1) = .ok ⟨.variadic f, n + 1, decide_eq_true n.succ_pos⟩ :=
  dif_pos (decide_eq_true n.succ_pos)

end Operator

/-- One step of a compiled expression. -/
inductive Instruction where
  /-- Pushes the value of a column. -/
  | load (c : Column)
  /-- Pushes a constant. -/
  | push (v : Value)
  /-- Replaces operands by their result. -/
  | operate (op : Operator)
  deriving DecidableEq

namespace Instruction

/-- What tells instructions apart: a column counts by its identity, not by what it carries along. -/
inductive Key where
  | load (column : TableId × Nat)
  | push (v : Value)
  | operate (op : Operator)
  deriving DecidableEq

/-- The key of an instruction. -/
def key : Instruction → Key
  | .load c => .load c.identity
  | .push v => .push v
  | .operate op => .operate op

/-- The instruction in compiled text. -/
def text : Instruction → String
  | .load c => c.sql
  | .push v => v.sql
  | .operate op => op.text

/-- The column that the instruction asks for. -/
def column? : Instruction → Option Column
  | .load c => some c
  | _ => none

end Instruction

end RowFlags
