/-!
# Functions

What operators compute, sorted by the operands they take: one, two, or any positive number of them.
-/

set_option autoImplicit false

namespace RowFlags

/-- How clauses are combined. -/
inductive Conjunction where
  | and
  | or
  deriving DecidableEq

/-- The four operations of arithmetic. -/
inductive Arithmetic where
  | add
  | sub
  | mul
  | div
  deriving DecidableEq

/-- The four comparisons by order. -/
inductive Relation where
  | lt
  | le
  | gt
  | ge
  deriving DecidableEq

/-- Functions of one operand. -/
inductive UnaryFunction where
  | isNull
  | isNotNull
  /-- Negation of the truth of any value. -/
  | not
  /-- Negation of a Boolean, or of every bit of a number. -/
  | invert
  | neg
  deriving DecidableEq

/-- Functions of two operands. -/
inductive BinaryFunction where
  | arithmetic (op : Arithmetic)
  | eq
  | ne
  | compare (relation : Relation)
  | logic (conjunction : Conjunction)
  | member
  | notMember
  | contains
  | concat
  deriving DecidableEq

/-- Functions of any positive number of operands. -/
inductive Reducer where
  | all
  | any
  /-- Collects the operands into a list. -/
  | group
  deriving DecidableEq

/-- What an operator computes. -/
inductive Function where
  | unary (f : UnaryFunction)
  | binary (f : BinaryFunction)
  | variadic (f : Reducer)
  deriving DecidableEq

def Conjunction.name : Conjunction → String
  | .and => "and"
  | .or => "or"

def Arithmetic.name : Arithmetic → String
  | .add => "add"
  | .sub => "sub"
  | .mul => "mul"
  | .div => "div"

def Relation.name : Relation → String
  | .lt => "lt"
  | .le => "le"
  | .gt => "gt"
  | .ge => "ge"

def UnaryFunction.name : UnaryFunction → String
  | .isNull => "is_null"
  | .isNotNull => "is_not_null"
  | .not => "not"
  | .invert => "invert"
  | .neg => "neg"

def BinaryFunction.name : BinaryFunction → String
  | .arithmetic op => op.name
  | .eq => "eq"
  | .ne => "ne"
  | .compare relation => relation.name
  | .logic conjunction => conjunction.name
  | .member => "in"
  | .notMember => "not_in"
  | .contains => "contains"
  | .concat => "concat"

def Reducer.name : Reducer → String
  | .all => "all"
  | .any => "any"
  | .group => "group"

/-- Every function of one operand. -/
def UnaryFunction.every : List UnaryFunction := [.isNull, .isNotNull, .not, .invert, .neg]

/-- Every function of two operands. -/
def BinaryFunction.every : List BinaryFunction :=
  [.arithmetic .add, .arithmetic .sub, .arithmetic .mul, .arithmetic .div, .eq, .ne, .compare .lt,
    .compare .le, .compare .gt, .compare .ge, .logic .and, .logic .or, .member, .notMember,
    .contains, .concat]

/-- Every function of any number of operands. -/
def Reducer.every : List Reducer := [.all, .any, .group]

namespace Function

/-- The name of a function in compiled text and diagnostics. -/
def name : Function → String
  | .unary f => f.name
  | .binary f => f.name
  | .variadic f => f.name

/-- Whether a function can take that many operands. -/
def accepts : Function → Nat → Bool
  | .unary _, n => n == 1
  | .binary _, n => n == 2
  | .variadic _, n => 0 < n

/-- Every function. -/
def every : List Function :=
  UnaryFunction.every.map .unary ++ BinaryFunction.every.map .binary ++ Reducer.every.map .variadic

/-- The function of a name. -/
def ofName? (name : String) : Option Function := every.find? (·.name = name)

end Function

end RowFlags
