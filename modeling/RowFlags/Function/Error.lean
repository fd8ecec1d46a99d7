import RowFlags.Function.Basic
import RowFlags.Schema.Column

/-!
# Failures of expressions

Why an expression cannot be compiled, or has no value on a row.
-/

set_option autoImplicit false

namespace RowFlags

/-- Why a sequence of instructions does not reduce to one value. -/
inductive Malformation where
  /-- The function finds no operand where it needs one. -/
  | underflow (f : Function)
  /-- The function takes more operands than there are values. -/
  | tooFew (f : Function) (needed held : Nat)
  /-- The sequence ends on another number of values than one. -/
  | leftover (count : Nat)
  deriving DecidableEq

/-- Why an expression is not compiled or not evaluated. -/
inductive EvalError where
  /-- A call of a database function, shown as SQL. -/
  | unsupportedCall (sql : String)
  /-- An operator of the user's own. -/
  | unsupportedOperator (operator : String)
  | invalidArity (f : Function) (arity : Nat)
  /-- The types of the operands, as far as they have one. -/
  | operandTypes (f : Function) (left right : Option ColumnType)
  | divisionByZero
  | overflow (f : Function)
  | columnNotFound (column : Column)
  | malformed (cause : Malformation)
  deriving DecidableEq

/-- The wording of a malformation. -/
def Malformation.message : Malformation → String
  | .underflow f => "stack underflow in " ++ f.name
  | .tooFew f needed held => f.name ++ s!" needs {needed} operands, stack holds {held}"
  | .leftover count => s!"{count} values left on the stack"

/-- The type of an operand in diagnostics. -/
def ColumnType.optionName : Option ColumnType → String
  | none => "None"
  | some type => "Some(" ++ type.name ++ ")"

/-- The wording of a failure. -/
def EvalError.message : EvalError → String
  | .unsupportedCall sql => "Unsupported expression " ++ sql ++ " of type function call"
  | .unsupportedOperator operator => "Unsupported operator " ++ operator
  | .invalidArity f arity => s!"Invalid arity {arity} for operator " ++ f.name
  | .operandTypes f left right =>
    "Invalid operand types for operator " ++ f.name ++ ": left=" ++ ColumnType.optionName left ++
      ", right=" ++ ColumnType.optionName right
  | .divisionByZero => "Division by zero"
  | .overflow f => "Arithmetic overflow in operator " ++ f.name
  | .columnNotFound column => "Column " ++ column.sql ++ " is not available for evaluation"
  | .malformed cause => "Malformed compiled expression: " ++ cause.message

end RowFlags
