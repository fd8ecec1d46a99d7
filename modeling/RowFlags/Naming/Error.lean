import RowFlags.Function.Error
import RowFlags.Mapping.Basic
import RowFlags.Value.Literal

/-!
# Failures of flags

Why an attribute is not found, a flag not made, read or assigned, or a value not taken.
-/

set_option autoImplicit false

namespace RowFlags

/-- Why a flag or an attribute refuses. -/
inductive FlagError where
  | eval (e : EvalError)
  /-- The class binds several attributes to the column. -/
  | ambiguous (classId : ClassId) (column : Column) (names : List String)
  | unmapped (classId : ClassId) (column : Column)
  | unregistered (classId : ClassId)
  /-- There is no single column that stands for the flag. -/
  | multipleColumns
  | defaultOnMultiColumn
  | nonBoolean (value : Value)
  | readOnly
  | unknownAttribute (classId : ClassId) (name : String)
  /-- A flag has the name of an attribute. -/
  | attributeConflict (classId : ClassId) (name : String)
  | incompatible (name : String) (type : ColumnType) (value : Value)
  deriving DecidableEq

/-- The wording of a failure. -/
def FlagError.message : FlagError → String
  | .eval e => e.message
  | .ambiguous classId column names =>
    "Column " ++ column.sql ++ " is mapped ambiguously on " ++ classId.text ++ " as [" ++
      ", ".intercalate (names.map Text.quoted) ++ "]"
  | .unmapped classId column => "Column " ++ column.sql ++ " is not mapped on " ++ classId.text
  | .unregistered classId => classId.text ++ " is not registered with this resolver"
  | .multipleColumns => "Resolver contains multiple columns"
  | .defaultOnMultiColumn => "Cannot use default for multi-column expression"
  | .nonBoolean value => "Flag only accepts boolean values, got " ++ value.sql
  | .readOnly => "Flag is read-only"
  | .unknownAttribute classId name => s!"Unknown attribute '{name}' on " ++ classId.text
  | .attributeConflict classId name =>
    s!"Flag '{name}' shadows a mapped attribute of " ++ classId.text
  | .incompatible name type value =>
    "Value " ++ value.sql ++ s!" does not fit attribute '{name}' of type " ++ type.name

end RowFlags
