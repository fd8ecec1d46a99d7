import RowFlags.Text.Bytes
import RowFlags.Value.Basic

/-!
# The order of values

Two values of one type are ordered: false before true, numbers by size, texts by their bytes,
instants by time. Values of different types, NULL and lists are not.
-/

set_option autoImplicit false

namespace RowFlags.Value

/-- How two values of one type compare. -/
def order? : Value → Value → Option Ordering
  | .boolean a, .boolean b => some (compare a.toNat b.toNat)
  | .int32 a, .int32 b => some (compare a.toInt b.toInt)
  | .string a, .string b => some (Text.order a b)
  | .timestamp a, .timestamp b => some (a.order b)
  | _, _ => none

end RowFlags.Value
