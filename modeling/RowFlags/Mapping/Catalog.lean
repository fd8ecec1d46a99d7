import RowFlags.Mapping.Directory
import RowFlags.Mapping.Draft

/-!
# Catalogs

A catalog holds tables, no two of one name, and mapped classes. What it refuses leaves it as it
was. It is the directory of the classes that it holds.
-/

set_option autoImplicit false

namespace RowFlags

/-- Tables and mapped classes, each in the order they came in. -/
structure Catalog where
  tables : List Table := []
  mappings : List Mapping := []

namespace Catalog

instance : Inhabited Catalog := ⟨{}⟩

/-- The table of a name. -/
def table? (c : Catalog) (name : String) : Option Table := c.tables.find? (·.name = name)

/-- The tables in the order of their numbers. -/
def listTables (c : Catalog) : List Table :=
  c.tables.mergeSort fun t u => t.id.number ≤ u.id.number

/-- Makes a table under the number `id`. A name in use is refused first. -/
def createTable (c : Catalog) (id : TableId) (name : String) (declared : List ColumnDeclaration) :
    Except CatalogError (Table × Catalog) :=
  if (c.table? name).isSome then .error (.tableExists name)
  else do
    let table ← Table.create id name declared
    return (table, { c with tables := c.tables ++ [table] })

/-- The mapping of a class. -/
def mapping? (c : Catalog) (id : ClassId) : Option Mapping := c.mappings.find? (·.id = id)

/-- Maps a class under the number `id`. Its parent must be held by this catalog. -/
def mapClass (c : Catalog) (id : ClassId) (draft : Draft) :
    Except CatalogError (Mapping × Catalog) := do
  let mapping ← draft.build id
  match mapping.parent with
  | some parent =>
    if (c.mapping? parent).isSome then
      return (mapping, { c with mappings := c.mappings ++ [mapping] })
    else .error (.parentNotMapped mapping.className)
  | none => return (mapping, { c with mappings := c.mappings ++ [mapping] })

/-- What the catalog knows of the attributes of its classes. -/
def directory (c : Catalog) : Directory where
  columnsOf id := ((c.mapping? id).map Mapping.columns).getD []
  namesOf id column := ((c.mapping? id).map (·.namesOf column)).getD []

end Catalog

end RowFlags
