import RowFlags.Value.ColumnType

/-!
# Columns

A column is known by the table it belongs to and its position there. It carries its name, the name
of its table and its type along, so that it can be written and typed without asking the table.
-/

set_option autoImplicit false

namespace RowFlags

/-- The number of a table, never given to another one: fewer than 2³² tables are made, so that four
bytes would hold it. -/
structure TableId where
  number : Nat
  deriving DecidableEq

/-- A column of a table, which has fewer than 2³² of them, so that four bytes would hold the
position. -/
structure Column where
  table : TableId
  position : Nat
  tableName : String
  name : String
  type : ColumnType
  deriving DecidableEq

namespace Column

/-- What tells columns apart: the table and the position in it. -/
def identity (c : Column) : TableId × Nat := (c.table, c.position)

/-- The column behind the name of its table. -/
def sql (c : Column) : String := c.tableName ++ "." ++ c.name

/-- Whether the column holds Booleans. -/
def isBoolean (c : Column) : Bool := c.type = .boolean

/-- Columns in the order of their tables' numbers, then of their positions. -/
def order (c d : Column) : Ordering :=
  (compare c.table.number d.table.number).then (compare c.position d.position)

theorem order_eq_iff {c d : Column} : order c d = .eq ↔ c.identity = d.identity := by
  obtain ⟨⟨n⟩, p, _, _, _⟩ := c
  obtain ⟨⟨m⟩, q, _, _, _⟩ := d
  simp [order, identity, Ordering.then_eq_eq]

instance : Std.TransCmp order :=
  inferInstanceAs (Std.TransCmp (compareLex
    (compareOn fun c : Column => c.table.number) (compareOn fun c : Column => c.position)))

end Column

end RowFlags
