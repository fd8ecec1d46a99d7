import RowFlags.Stored.Bitmap
import RowFlags.Stored.Error
import RowFlags.Stored.Number
import RowFlags.Text.Bytes

/-!
# Stored rows

A row is stored as a bitmap of its NULLs followed by its other values in column order: a byte for
a Boolean, four bytes for a number, eight for the nanosecond count of an instant, and for a text
four bytes of length before its UTF-8 bytes. Nothing frames the row; the schema says where each
part ends, and bytes after the last part are not looked at.
-/

set_option autoImplicit false

namespace RowFlags.Stored

/-- The bytes of a value in a column of its type; NULL takes none. -/
def fieldBytes (type : ColumnType) (value : Value) : Except RowError (List UInt8) :=
  match value, type with
  | .null, _ => .ok []
  | .boolean b, .boolean => .ok [if b then 1 else 0]
  | .int32 n, .int32 => .ok (ofInt 4 n.toInt)
  | .string s, .varchar => .ok (ofNat 4 (Text.bytes s).length ++ Text.bytes s)
  | .timestamp t, .timestamp =>
    if Instant.Storable t.nanoseconds then .ok (ofInt 8 t.nanoseconds) else .error (.outOfRange t)
  | value, type => .error (.incompatible value type)

/-- The bytes of the fields one after the other. -/
def fieldsBytes : List (ColumnType × Value) → Except RowError (List UInt8)
  | [] => .ok []
  | (type, value) :: rest => do
    let front ← fieldBytes type value
    let back ← fieldsBytes rest
    return front ++ back

/-- The stored form of a row. Counts are compared first, then every type, then every range. -/
def encodeRow (schema : List ColumnType) (values : List Value) : Except RowError (List UInt8) :=
  if values.length ≠ schema.length then .error (.lengthMismatch values.length schema.length)
  else
    match (schema.zip values).find? fun field => !field.2.fits field.1 with
    | some (type, value) => .error (.incompatible value type)
    | none => (bitmap (values.map Value.isNull) ++ ·) <$> fieldsBytes (schema.zip values)

/-- Eight bytes hold the nanosecond count of some instant, whatever they are. -/
theorem storable_toInt (bytes : List UInt8) : Instant.Storable (toInt 8 bytes) :=
  toInt_range 8 bytes

/-- A value of the type off the front of the bytes. -/
def readField (type : ColumnType) (data : List UInt8) : Except RowError (Value × List UInt8) :=
  match type with
  | .boolean =>
    match data with
    | [] => .error .missingBoolean
    | b :: rest => .ok (.boolean (b != 0), rest)
  | .int32 =>
    match split? 4 data with
    | none => .error (.missingField .int32)
    | some (bytes, rest) => .ok (.int32 (Int32.ofInt (toInt 4 bytes)), rest)
  | .varchar =>
    match split? 4 data with
    | none => .error (.missingField .stringLength)
    | some (length, rest) =>
      match split? (toNat length) rest with
      | none => .error .stringTooLong
      | some (bytes, rest) =>
        match Text.decode bytes with
        | .error fault => .error (.notText fault)
        | .ok text => .ok (.string text, rest)
  | .timestamp =>
    match split? 8 data with
    | none => .error (.missingField .timestamp)
    | some (bytes, rest) =>
      .ok (.timestamp (Instant.ofNanoseconds (toInt 8 bytes) (storable_toInt bytes)), rest)

/-- The fields off the front of the bytes, and what is left; a marked field is NULL. -/
def readFields :
    List (ColumnType × Bool) → List UInt8 → Except RowError (List Value × List UInt8)
  | [], data => .ok ([], data)
  | (_, true) :: fields, data => do
    let (values, rest) ← readFields fields data
    return (.null :: values, rest)
  | (type, false) :: fields, data => do
    let (value, data) ← readField type data
    let (values, rest) ← readFields fields data
    return (value :: values, rest)

/-- A row off the front of the bytes, and what is left. -/
def readRow (schema : List ColumnType) (data : List UInt8) :
    Except RowError (List Value × List UInt8) :=
  if schema.isEmpty then .ok ([], data)
  else
    match split? (bitmapWidth schema.length) data with
    | none => .error .missingBitmap
    | some (bits, rest) => readFields (schema.zip (marks schema.length bits)) rest

/-- The row that the bytes start with. -/
def decodeRow (schema : List ColumnType) (data : List UInt8) : Except RowError (List Value) :=
  Prod.fst <$> readRow schema data

end RowFlags.Stored
