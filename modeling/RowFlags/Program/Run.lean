import RowFlags.Function.Apply
import RowFlags.Program.Compile

/-!
# Running instructions

The stack has its top first. A column's value comes from a lookup that may fail and may have
effects: instructions are run in any monad, under any type of errors that takes up the failures of
expressions. `evaluateTraced` runs a program on a row and tells which columns it asked for.
-/

set_option autoImplicit false

namespace RowFlags

/-- The stack after an operator has replaced its operands by their result. -/
def Operator.step (op : Operator) (stack : List Value) : Except EvalError (List Value) :=
  match op.function, stack with
  | .unary f, operand :: rest => (· :: rest) <$> f.apply operand
  | .binary f, left :: right :: rest => (· :: rest) <$> f.apply left right
  | .variadic f, stack =>
    if stack.length < op.arity then
      .error (.malformed (.tooFew op.function op.arity stack.length))
    else .ok (f.apply (stack.take op.arity).reverse :: stack.drop op.arity)
  | f, _ => .error (.malformed (.underflow f))

namespace Program

variable {m : Type → Type} [Monad m] {ε : Type}

/-- Runs instructions on a stack. Columns are looked up where they stand; `raise` turns a failure of
the expression into an error of the caller's. -/
def run (raise : EvalError → ε) (lookup : Column → ExceptT ε m Value) :
    List Instruction → List Value → ExceptT ε m (List Value)
  | [], stack => pure stack
  | .load c :: code, stack => do
    let v ← lookup c
    run raise lookup code (v :: stack)
  | .push v :: code, stack => run raise lookup code (v :: stack)
  | .operate op :: code, stack =>
    match op.step stack with
    | .ok stack => run raise lookup code stack
    | .error e => throw (raise e)

/-- The only value on a stack. -/
def single (raise : EvalError → ε) : List Value → ExceptT ε m Value
  | [v] => pure v
  | stack => throw (raise (.malformed (.leftover stack.length)))

/-- The value that a sequence of instructions reduces to. -/
def evaluateCode (raise : EvalError → ε) (lookup : Column → ExceptT ε m Value)
    (code : List Instruction) : ExceptT ε m Value := do
  let stack ← run raise lookup code []
  single raise stack

/-- The value of a program under a lookup that may fail. -/
def evaluate (raise : EvalError → ε) (lookup : Column → Except ε Value) (p : Program) :
    Except ε Value :=
  evaluateCode (m := Id) raise lookup p.code

/-- A lookup that notes each column it is asked for. -/
def noting (lookup : Column → Except ε Value) (c : Column) :
    ExceptT ε (StateM (List Column)) Value := do
  modify (· ++ [c])
  liftExcept (lookup c)

/-- The value that instructions reduce to, beside the columns asked for in order. -/
def evaluateTraced (lookup : Column → Except EvalError Value) (code : List Instruction) :
    Except EvalError Value × List Column :=
  (evaluateCode id (noting lookup) code).run.run []

end Program

end RowFlags
