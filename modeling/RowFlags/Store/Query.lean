import RowFlags.Store.Basic

/-!
# Queries

Rows are chosen by an expression over the table's columns, which every row must be able to answer.
A class with a parent sees only the rows that carry its identity; other classes see every row.
Counting does not ask for a class.
-/

set_option autoImplicit false

namespace RowFlags.Store

/-- Compiles a condition on the table's rows; columns of other tables are refused. -/
def compile (s : Store) (condition : Expr) : Except StoreError Program := do
  let program ← (Program.ofExpr condition).mapError StoreError.eval
  match program.columns.find? fun c => !s.table.contains c with
  | some c => .error (.foreignColumn c s.table.name)
  | none => return program

/-- The rows from slot `next` on, with their values. -/
def scanFrom (schema : List ColumnType) (next : Nat) :
    List (Option (List UInt8)) → Except StoreError (List (RowId × List Value))
  | [] => .ok []
  | none :: rest => scanFrom schema (next + 1) rest
  | some data :: rest => do
    let values ← (Stored.decodeRow schema data).mapError StoreError.row
    let rows ← scanFrom schema (next + 1) rest
    return (⟨next⟩, values) :: rows

/-- Every row with its values, in slot order. -/
def scan (s : Store) : Except StoreError (List (RowId × List Value)) :=
  scanFrom s.table.schema 0 s.slots.toList

/-- The value of a condition on a row's values. -/
def evaluateRow (program : Program) (values : List Value) : Except EvalError Value :=
  program.evaluate id fun c =>
    match values[c.position]? with
    | some v => .ok v
    | none => .error (.columnNotFound c)

/-- The rows that a class sees. -/
def visible (m : Mapping) : Except StoreError (List Value → Bool) :=
  match m.parent, m.discriminator with
  | some _, some d =>
    match m.property? d.key with
    | none => .error .discriminatorUnmapped
    | some p => .ok fun values => values[p.column.position]? = some d.identity
  | _, _ => .ok fun _ => true

/-- The seen rows on which the condition is truthy; the first failure ends the choice. -/
def choose (program : Program) (sees : List Value → Bool) (m : Mapping) :
    List (RowId × List Value) → Except StoreError (List (RowId × Record))
  | [] => .ok []
  | (row, values) :: rest =>
    if sees values then do
      let v ← (evaluateRow program values).mapError StoreError.eval
      if v.truthy then
        let r ← decode m values
        let chosen ← choose program sees m rest
        return (row, r) :: chosen
      else choose program sees m rest
    else choose program sees m rest

/-- The rows of a class on which a condition is truthy, as objects of the class. -/
def filter (s : Store) (m : Mapping) (condition : Expr) :
    Except StoreError (List (RowId × Record)) := do
  s.checkClass m
  let program ← s.compile condition
  let sees ← visible m
  let rows ← s.scan
  choose program sees m rows

/-- How many of the rows a condition is truthy on; the first failure ends the count. -/
def tally (program : Program) : List (RowId × List Value) → Except StoreError Nat
  | [] => .ok 0
  | (_, values) :: rest => do
    let v ← (evaluateRow program values).mapError StoreError.eval
    let count ← tally program rest
    return if v.truthy then count + 1 else count

/-- How many rows of any class a condition is truthy on. -/
def count (s : Store) (condition : Expr) : Except StoreError Nat := do
  let program ← s.compile condition
  let rows ← s.scan
  tally program rows

end RowFlags.Store
