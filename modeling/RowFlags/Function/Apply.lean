import RowFlags.Function.Error
import RowFlags.Text.Search
import RowFlags.Value.Order

/-!
# Applying functions

What each function gives for its operands. Equality is that of the values, NULL with NULL included;
membership and the two-clause conjunctions have rules of their own for NULL; every other function
of two operands gives NULL as soon as one of them is. Arithmetic is that of the integers, refused
where the result is no 32-bit number.
-/

set_option autoImplicit false

namespace RowFlags

/-- The 32-bit number of that size, if there is one. -/
def int32? (i : Int) : Option Int32 :=
  if h : Int32.minValue.toInt ≤ i ∧ i ≤ Int32.maxValue.toInt then some (Int32.ofIntLE i h.1 h.2)
  else none

/-- A 32-bit number keeps its size. -/
theorem toInt_of_int32? {i : Int} {n : Int32} (h : int32? i = some n) : n.toInt = i := by
  unfold int32? at h
  split at h
  · obtain rfl := Option.some.inj h
    exact Int32.toInt_ofIntLE
  · cases h

@[simp] theorem int32?_toInt (n : Int32) : int32? n.toInt = some n := by
  rw [int32?, dif_pos ⟨n.minValue_le_toInt, n.toInt_le⟩, Int32.ofIntLE_toInt]

namespace Conjunction

/-- The conjunction of two truths. -/
def onBool : Conjunction → Bool → Bool → Bool
  | .and, a, b => a && b
  | .or, a, b => a || b

/-- The conjunction of two numbers, bit by bit. -/
def onInt32 : Conjunction → Int32 → Int32 → Int32
  | .and, a, b => a &&& b
  | .or, a, b => a ||| b

/-- The truth that decides a conjunction alone: false an AND, true an OR. -/
def absorbing : Conjunction → Bool
  | .and => false
  | .or => true

/-- The conjunction of NULL with a value: the value if it decides alone, else NULL. -/
def withNull (c : Conjunction) : Value → Value
  | .boolean b => if b = c.absorbing then .boolean b else .null
  | _ => .null

end Conjunction

namespace Arithmetic

/-- The result over the integers; division drops the fraction. -/
def onInt : Arithmetic → Int → Int → Int
  | .add, a, b => a + b
  | .sub, a, b => a - b
  | .mul, a, b => a * b
  | .div, a, b => a.tdiv b

end Arithmetic

/-- Whether a relation holds of operands that compare like this. -/
def Relation.holds : Relation → Ordering → Bool
  | .lt, o => o.isLT
  | .le, o => o.isLE
  | .gt, o => o.isGT
  | .ge, o => o.isGE

namespace UnaryFunction

/-- The value of a function of one operand. -/
def apply (f : UnaryFunction) (operand : Value) : Except EvalError Value :=
  match f, operand with
  | .isNull, v => .ok (.boolean v.isNull)
  | .isNotNull, v => .ok (.boolean !v.isNull)
  | .not, v => .ok (.boolean !v.truthy)
  | .invert, .null => .ok .null
  | .invert, .boolean b => .ok (.boolean !b)
  | .invert, .int32 n => .ok (.int32 (~~~n))
  | .neg, .null => .ok .null
  | .neg, .int32 n =>
    match int32? (-n.toInt) with
    | some m => .ok (.int32 m)
    | none => .error (.overflow (.unary f))
  | f, v => .error (.operandTypes (.unary f) v.columnType? none)

end UnaryFunction

namespace BinaryFunction

/-- The refusal of operands whose types a function does not take. -/
def refuse (f : BinaryFunction) (left right : Value) : EvalError :=
  .operandTypes (.binary f) left.columnType? right.columnType?

/-- Arithmetic on two numbers. -/
def calculate (op : Arithmetic) (a b : Int32) : Except EvalError Value :=
  if op = .div ∧ b = 0 then .error .divisionByZero
  else
    match int32? (op.onInt a.toInt b.toInt) with
    | some n => .ok (.int32 n)
    | none => .error (.overflow (.binary (.arithmetic op)))

/-- Whether the left operand is in the right one: among the items of a list, or within a text. -/
def membership (f : BinaryFunction) (left right : Value) : Except EvalError (Option Bool) :=
  match left, right with
  | v, .list items => .ok (some (v ∈ items))
  | .string needle, .string haystack => .ok (some (Text.contains haystack needle))
  | _, .null => .ok none
  | left, right => .error (f.refuse left right)

/-- A truth that may be unknown, as a value. -/
def ofTruth? : Option Bool → Value
  | some b => .boolean b
  | none => .null

/-- AND or OR of two operands, on Booleans and on the bits of numbers. -/
def conjoin (c : Conjunction) (left right : Value) : Except EvalError Value :=
  match left, right with
  | .boolean a, .boolean b => .ok (.boolean (c.onBool a b))
  | .int32 a, .int32 b => .ok (.int32 (c.onInt32 a b))
  | .null, v => .ok (c.withNull v)
  | v, .null => .ok (c.withNull v)
  | left, right => .error ((logic c).refuse left right)

/-- The functions that give NULL for NULL, on operands of which neither is. -/
def applyPresent (f : BinaryFunction) (left right : Value) : Except EvalError Value :=
  match f, left, right with
  | .arithmetic op, .int32 a, .int32 b => calculate op a b
  | .arithmetic .add, .string a, .string b => .ok (.string (a ++ b))
  | .concat, .string a, .string b => .ok (.string (a ++ b))
  | .contains, .string a, .string b => .ok (.boolean (Text.contains a b))
  | .compare relation, a, b =>
    match a.order? b with
    | some o => .ok (.boolean (relation.holds o))
    | none => .error (f.refuse left right)
  | f, left, right => .error (f.refuse left right)

/-- The value of a function of two operands. -/
def apply (f : BinaryFunction) (left right : Value) : Except EvalError Value :=
  match f with
  | .eq => .ok (.boolean (left = right))
  | .ne => .ok (.boolean (left ≠ right))
  | .member => ofTruth? <$> membership f left right
  | .notMember => (fun truth => ofTruth? (truth.map not)) <$> membership f left right
  | .logic c => conjoin c left right
  | f => if left.isNull || right.isNull then .ok .null else f.applyPresent left right

end BinaryFunction

namespace Reducer

/-- The value of a function of any number of operands. -/
def apply : Reducer → List Value → Value
  | .all, operands => .boolean (operands.all Value.truthy)
  | .any, operands => .boolean (operands.any Value.truthy)
  | .group, operands => .list operands

end Reducer

end RowFlags
