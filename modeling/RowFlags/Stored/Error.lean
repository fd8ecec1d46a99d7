import RowFlags.Text.Utf8
import RowFlags.Value.Literal

/-!
# Refusals of the row codec

Why values cannot be stored under a schema, or bytes cannot be read under one.
-/

set_option autoImplicit false

namespace RowFlags

/-- Parts of a row that take a fixed count of bytes. -/
inductive FixedField where
  | int32
  | stringLength
  | timestamp
  deriving DecidableEq

/-- What a part of a row is called. -/
def FixedField.name : FixedField → String
  | .int32 => "int32"
  | .stringLength => "string length"
  | .timestamp => "timestamp"

/-- Why a row is not written or not read. -/
inductive RowError where
  /-- No column type has this code. -/
  | unknownType (code : UInt8)
  /-- There are not as many values as columns. -/
  | lengthMismatch (values columns : Nat)
  /-- The value is neither NULL nor of the column's type. -/
  | incompatible (value : Value) (type : ColumnType)
  /-- The instant's nanosecond count does not fit eight bytes. -/
  | outOfRange (time : Instant)
  | missingBitmap
  | missingBoolean
  | missingField (field : FixedField)
  /-- The announced length of a text goes past the end of the row. -/
  | stringTooLong
  | notText (fault : Text.Utf8Fault)
  deriving DecidableEq

/-- The wording of a refusal. -/
def RowError.message : RowError → String
  | .unknownType code => "Unknown data type: " ++ code.toNat.repr
  | .lengthMismatch values columns =>
    s!"Value count {values} doesn't match schema length {columns}"
  | .incompatible value type =>
    "Value " ++ value.diagnostic ++ " is not compatible with type " ++ type.name
  | .outOfRange time =>
    "Timestamp " ++ time.spaced ++ " UTC cannot be stored with nanosecond precision"
  | .missingBitmap => "Data too short for NULL bitmap"
  | .missingBoolean => "Invalid boolean value: no data"
  | .missingField field => "Invalid " ++ field.name ++ " value: not enough data"
  | .stringTooLong => "Invalid string value: string too long"
  | .notText fault => fault.message

/-- The type of a stored code; other codes are refused. -/
def ColumnType.ofCode (code : UInt8) : Except RowError ColumnType :=
  match ColumnType.ofCode? code with
  | some type => .ok type
  | none => .error (.unknownType code)

end RowFlags
