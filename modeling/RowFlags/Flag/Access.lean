import RowFlags.Flag.Basic
import RowFlags.Program.Run
import RowFlags.Record

/-!
# Reading and assigning flags

A flag is read by evaluating its condition on the values that an object's attributes give its
columns. It is assigned through the attribute of its single column. Every failure leaves the object
alone, and only an assignment of true that got as far as the attribute draws from a producer.
-/

set_option autoImplicit false

namespace RowFlags.Flag

/-- The value of the condition on an object. -/
def evaluate (f : Flag) (naming : Naming) (r : Record) : Except FlagError Value :=
  f.program.evaluate FlagError.eval (r.valueOf naming)

/-- Whether the flag is on for an object. -/
def get (f : Flag) (naming : Naming) (r : Record) : Except FlagError Bool :=
  Value.truthy <$> f.evaluate naming r

/-- The object after an assignment, and how many values are drawn then, if `drawn` were before. -/
def assign (f : Flag) (naming : Naming) (drawn : Nat) (r : Record) (v : Value) :
    Except FlagError Record × Nat :=
  match f.default, v with
  | none, _ => (.error .readOnly, drawn)
  | some default, .boolean on =>
    match naming.single f.columns r.classId with
    | .error e => (.error e, drawn)
    | .ok (c, name) =>
      if on then (checkFit name c (default.draw drawn) >>= r.set name, drawn + 1)
      else (r.set name .null, drawn)
  | some _, v => (.error (.nonBoolean v), drawn)

end RowFlags.Flag
