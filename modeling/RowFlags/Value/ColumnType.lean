/-!
# Column types

The four types that a column can be declared with, and the codes that stand for them in stored
form.
-/

set_option autoImplicit false

namespace RowFlags

/-- The declared type of a column. -/
inductive ColumnType where
  | boolean
  | int32
  | varchar
  | timestamp
  deriving DecidableEq

namespace ColumnType

/-- The stored code of a type. -/
def code : ColumnType → UInt8
  | .boolean => 1
  | .int32 => 2
  | .varchar => 4
  | .timestamp => 8

/-- The type of a stored code. -/
def ofCode? : UInt8 → Option ColumnType
  | 1 => some .boolean
  | 2 => some .int32
  | 4 => some .varchar
  | 8 => some .timestamp
  | _ => none

/-- The name of a type in diagnostics. -/
def name : ColumnType → String
  | .boolean => "Boolean"
  | .int32 => "Int32"
  | .varchar => "Varchar"
  | .timestamp => "Timestamp"

/-- Codes stand for the types they came from and for nothing else. -/
theorem ofCode?_eq_some_iff {c : UInt8} {t : ColumnType} : ofCode? c = some t ↔ c = t.code := by
  constructor
  · intro h
    unfold ofCode? at h
    split at h <;> simp_all <;> subst h <;> rfl
  · rintro rfl
    cases t <;> rfl

end ColumnType

end RowFlags
