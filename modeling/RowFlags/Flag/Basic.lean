import RowFlags.Expr.Presence
import RowFlags.Naming.Resolver
import RowFlags.Program.Compile

/-!
# Flags

A flag is a Boolean attribute that a condition over columns stands for. With a default it can be
assigned as well: true stores the default in the condition's only column, false clears it. A
constant default must fit the column, and NULL is no default, since it could never make the flag
true.
-/

set_option autoImplicit false

namespace RowFlags

/-- The number of a flag, never given to another one. It only tells flags apart, and nothing limits
it. -/
structure FlagId where
  number : Nat
  deriving DecidableEq

/-- What assigning true stores. -/
inductive Default where
  | value (v : Value)
  /-- One value after the other: the argument counts the values drawn before. -/
  | producer (draw : Nat → Value)

/-- What a flag is to be made of. -/
structure FlagSpec where
  condition : Expr
  default : Option Default := none
  strategy : Strategy := .prefetched

/-- A flag over a compiled condition. -/
structure Flag where
  id : FlagId
  program : Program
  resolver : Resolver
  default : Option Default

namespace Default

/-- The value stored when `drawn` values were drawn before. -/
def draw : Default → Nat → Value
  | .value v, _ => v
  | .producer draw, drawn => draw drawn

/-- Whether the default is the constant NULL. -/
def isNull : Default → Bool
  | .value .null => true
  | _ => false

end Default

/-- The value, if the column can hold it under the attribute `name`. -/
def checkFit (name : String) (c : Column) (v : Value) : Except FlagError Value :=
  if v.fits c.type then .ok v else .error (.incompatible name c.type v)

namespace Flag

/-- The default that counts: NULL is none, and any other needs a single column that fits it. -/
def checkDefault (columns : List Column) (default : Option Default) :
    Except FlagError (Option Default) :=
  match default.filter (!·.isNull) with
  | none => .ok none
  | some default =>
    match columns, default with
    | [c], .value v => (fun _ => some default) <$> checkFit c.name c v
    | [_], .producer _ => .ok (some default)
    | _, _ => .error .defaultOnMultiColumn

/-- Makes the flag of a specification. Its condition is rephrased and compiled first. -/
def build (id : FlagId) (spec : FlagSpec) : Except FlagError Flag := do
  let program ← (Program.ofExpr spec.condition.asCondition).mapError FlagError.eval
  let default ← checkDefault program.columns spec.default
  return ⟨id, program, ⟨program.columns, spec.strategy⟩, default⟩

/-- The columns of the flag's condition. -/
def columns (f : Flag) : List Column := f.resolver.columns

/-- Whether the flag can be assigned. -/
def isWritable (f : Flag) : Bool := f.default.isSome

/-- The condition by which stored rows are chosen. -/
def predicate (f : Flag) : Expr := f.program.source

/-- A flag in diagnostics. -/
def diagnostic (f : Flag) : String :=
  let default := match f.default with
    | none => "None"
    | some (.value v) => "Some(Value(" ++ v.diagnostic ++ "))"
    | some (.producer _) => "Some(Producer(..))"
  "ColumnFlag \x7b expression: " ++ Text.quoted f.predicate.sql ++ ", default: " ++ default ++
    " \x7d"

end Flag

end RowFlags
