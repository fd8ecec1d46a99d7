import RowFlags.Store.Basic
import RowFlags.Stored.Snapshot

/-!
# Saving and restoring stores

A store's snapshot holds all of its slots. It is restored for a table of the same name and the same
column types, and only for such a one; the rows in it are taken as they are.
-/

set_option autoImplicit false

namespace RowFlags.Store

/-- The bytes that keep the store. -/
def snapshot (s : Store) : List UInt8 :=
  Stored.encodeSnapshot
    { tableName := s.table.name
      typeCodes := s.table.schema.map ColumnType.code
      slots := s.slots.toList }

/-- The types of stored codes; the first unknown code is refused. -/
def readTypes : List UInt8 → Except StoreError (List ColumnType)
  | [] => .ok []
  | code :: rest => do
    let type ← (ColumnType.ofCode code).mapError StoreError.row
    let types ← readTypes rest
    return type :: types

/-- The store that the bytes keep, for a table that they fit. -/
def restore (t : Table) (data : List UInt8) : Except StoreError Store :=
  match Stored.decodeSnapshot data with
  | none => .error .badSnapshot
  | some snapshot =>
    if snapshot.tableName ≠ t.name then .error (.otherSnapshot snapshot.tableName t.name)
    else do
      let schema ← readTypes snapshot.typeCodes
      if schema = t.schema then return ⟨t, snapshot.slots.toArray⟩
      else .error (.otherSchema schema t.name)

end RowFlags.Store
