import RowFlags.Program.Run
import RowFlags.Record
import RowFlags.Stored.Row

/-!
# Stores

A store keeps the rows of a table in slots, each in its stored form. A new row takes the next slot,
whose number stays its own: a deleted row leaves its slot empty for good. Objects are written column
by column through the mapping of their class and read back through any mapping on the same table.
What is refused leaves the store as it was.
-/

set_option autoImplicit false

namespace RowFlags

/-- The number of a row's slot. -/
structure RowId where
  number : Nat
  deriving DecidableEq

/-- A row in diagnostics. -/
def RowId.text (row : RowId) : String := "row#" ++ row.number.repr

/-- Why a store refuses. -/
inductive StoreError where
  /-- The class maps the table `mapped`, not the store's. -/
  | otherTable (className mapped table : String)
  | row (e : RowError)
  | full
  | noRow (row : RowId) (table : String)
  | foreignColumn (column : Column) (table : String)
  | eval (e : EvalError)
  | flag (e : FlagError)
  | discriminatorUnmapped
  | badSnapshot
  /-- The snapshot is of the table `found`. -/
  | otherSnapshot (found table : String)
  | otherSchema (found : List ColumnType) (table : String)
  | unreadable (path : String)
  | unwritable (path : String)
  deriving DecidableEq

/-- The wording of a refusal. -/
def StoreError.message : StoreError → String
  | .otherTable className mapped table =>
    s!"Class '{className}' maps table '{mapped}', not '{table}'"
  | .row e => e.message
  | .full => "Table store is full"
  | .noRow id table => "Row " ++ id.text ++ s!" not found in '{table}'"
  | .foreignColumn column table =>
    "Column " ++ column.sql ++ s!" does not belong to table '{table}'"
  | .eval e => e.message
  | .flag e => e.message
  | .discriminatorUnmapped => "Discriminator is not mapped"
  | .badSnapshot => "Failed to decode table snapshot"
  | .otherSnapshot found table =>
    s!"Snapshot of table '{found}' cannot be restored into '{table}'"
  | .otherSchema found table =>
    "Snapshot schema [" ++ ", ".intercalate (found.map ColumnType.name) ++
      s!"] does not match table '{table}'"
  | .unreadable path => "Failed to read snapshot from " ++ path
  | .unwritable path => "Failed to write snapshot to " ++ path

/-- The rows of a table, in stored form; a slot without one is empty for good. -/
structure Store where
  table : Table
  slots : Array (Option (List UInt8))

namespace Store

/-- How many slots there can be. -/
def capacity : Nat := UInt32.size

/-- The store without rows. -/
def empty (t : Table) : Store := ⟨t, #[]⟩

/-- How many rows there are. -/
def size (s : Store) : Nat := s.slots.toList.countP Option.isSome

/-- The stored form of a row. -/
def row? (s : Store) (row : RowId) : Option (List UInt8) := (s.slots[row.number]?).join

/-- The refusal of a row that there is not. -/
def noRow (s : Store) (row : RowId) : StoreError := .noRow row s.table.name

/-- The class must map the store's table. -/
def checkClass (s : Store) (m : Mapping) : Except StoreError Unit :=
  if m.table.id = s.table.id then .ok ()
  else .error (.otherTable m.className m.table.name s.table.name)

/-- The value that an object gives a column: that of the first attribute bound to it. A column that
is not mapped, or whose attribute is absent, is NULL. -/
def columnValue (m : Mapping) (r : Record) (c : Column) : Value :=
  (((m.namesOf c).head?).bind r.attribute?).getD .null

/-- The values that an object gives the columns of the table. -/
def columnValues (s : Store) (m : Mapping) (r : Record) : List Value :=
  s.table.columns.map (columnValue m r)

/-- The stored form of an object. -/
def encode (s : Store) (m : Mapping) (r : Record) : Except StoreError (List UInt8) := do
  s.checkClass m
  (Stored.encodeRow s.table.schema (s.columnValues m r)).mapError StoreError.row

/-- Sets the attributes of some properties to the values of their columns. -/
def fill (values : List Value) : List Property → Record → Except FlagError Record
  | [], r => .ok r
  | p :: rest, r => do
    let r ← r.set p.key ((values[p.column.position]?).getD .null)
    fill values rest r

/-- The object of a class that a row's values make. -/
def decode (m : Mapping) (values : List Value) : Except StoreError Record :=
  (fill values m.properties m.newRecord).mapError StoreError.flag

/-- Adds an object as a new row. -/
def insert (s : Store) (m : Mapping) (r : Record) : Except StoreError (RowId × Store) := do
  let data ← s.encode m r
  if s.slots.size < capacity then
    return (⟨s.slots.size⟩, { s with slots := s.slots.push (some data) })
  else .error .full

/-- Replaces a row by an object. The object is encoded before the row is looked for. -/
def update (s : Store) (m : Mapping) (row : RowId) (r : Record) : Except StoreError Store := do
  let data ← s.encode m r
  if (s.row? row).isSome then
    return { s with slots := s.slots.setIfInBounds row.number (some data) }
  else .error (s.noRow row)

/-- Takes a row away. -/
def delete (s : Store) (row : RowId) : Except StoreError Store :=
  if (s.row? row).isSome then .ok { s with slots := s.slots.setIfInBounds row.number none }
  else .error (s.noRow row)

/-- The values of a row in column order. -/
def values (s : Store) (row : RowId) : Except StoreError (List Value) :=
  match s.row? row with
  | none => .error (s.noRow row)
  | some data => (Stored.decodeRow s.table.schema data).mapError StoreError.row

/-- A row as an object of a class. -/
def load (s : Store) (m : Mapping) (row : RowId) : Except StoreError Record := do
  s.checkClass m
  let values ← s.values row
  decode m values

end Store

end RowFlags
