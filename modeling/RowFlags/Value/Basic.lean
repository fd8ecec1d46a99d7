import RowFlags.Time.Instant
import RowFlags.Value.ColumnType

/-!
# Values

What expressions compute with and rows hold. NULL fits every column type; a list fits none and is
never stored. Equality is decided by `same`, which compares NULL with NULL as equal.
-/

set_option autoImplicit false

namespace RowFlags

/-- A value of a column, or a list of values. -/
inductive Value where
  | null
  | boolean (b : Bool)
  | int32 (n : Int32)
  | string (s : String)
  | timestamp (t : Instant)
  | list (items : List Value)

namespace Value

instance : Inhabited Value := ⟨.null⟩

mutual

/-- Whether two values are the same. -/
def same : Value → Value → Bool
  | .null, .null => true
  | .boolean a, .boolean b => a == b
  | .int32 a, .int32 b => a == b
  | .string a, .string b => a == b
  | .timestamp a, .timestamp b => a == b
  | .list a, .list b => sameItems a b
  | _, _ => false

/-- Whether two lists hold the same values in the same order. -/
def sameItems : List Value → List Value → Bool
  | [], [] => true
  | a :: as, b :: bs => same a b && sameItems as bs
  | _, _ => false

end

mutual

theorem same_iff : (a b : Value) → (same a b = true ↔ a = b)
  | .null, b => by cases b <;> simp [same]
  | .boolean _, b => by cases b <;> simp [same]
  | .int32 _, b => by cases b <;> simp [same]
  | .string _, b => by cases b <;> simp [same]
  | .timestamp _, b => by cases b <;> simp [same]
  | .list as, b => by cases b <;> simp [same, sameItems_iff as]

theorem sameItems_iff : (as bs : List Value) → (sameItems as bs = true ↔ as = bs)
  | [], bs => by cases bs <;> simp [sameItems]
  | a :: as, bs => by cases bs <;> simp [sameItems, same_iff a, sameItems_iff as]

end

instance : DecidableEq Value := fun a b => decidable_of_iff _ (same_iff a b)

/-- The type of a value; NULL and lists have none. -/
def columnType? : Value → Option ColumnType
  | .null => none
  | .boolean _ => some .boolean
  | .int32 _ => some .int32
  | .string _ => some .varchar
  | .timestamp _ => some .timestamp
  | .list _ => none

/-- Whether a column of the type can hold the value. -/
def fits : Value → ColumnType → Bool
  | .null, _ => true
  | .boolean _, .boolean => true
  | .int32 _, .int32 => true
  | .string _, .varchar => true
  | .timestamp _, .timestamp => true
  | _, _ => false

/-- Whether the value is NULL. -/
def isNull : Value → Bool
  | .null => true
  | _ => false

/-- Whether the value counts as true: NULL, false, zero and what is empty do not. -/
def truthy : Value → Bool
  | .null => false
  | .boolean b => b
  | .int32 n => n != 0
  | .string s => !s.isEmpty
  | .timestamp _ => true
  | .list items => !items.isEmpty

@[simp] theorem isNull_iff {v : Value} : v.isNull = true ↔ v = .null := by
  cases v <;> simp [isNull]

/-- Columns hold NULL and the values of their own type. -/
theorem fits_iff {v : Value} {t : ColumnType} :
    v.fits t = true ↔ v = .null ∨ v.columnType? = some t := by
  cases v <;> cases t <;> simp [fits, columnType?]

end Value

end RowFlags
