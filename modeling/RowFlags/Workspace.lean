import RowFlags.Flag.Access
import RowFlags.Mapping.Catalog

/-!
# Workspaces

A workspace holds what changes over time: named catalogs, and for each flag the names recorded for
it and how many values its producer has given. Flags themselves do not change, so models may share
them. Numbers of tables, classes and flags are given out across all catalogs and never twice.

The numbers grow without end here. Those of tables and classes stand for counters of four bytes,
which agree with them while fewer than 2³² tables are made and fewer than 2³² classes asked for.
-/

set_option autoImplicit false

namespace RowFlags

/-- What a flag remembers. -/
structure FlagMemory where
  registry : Registry := {}
  /-- How many values its producer has given. -/
  drawn : Nat := 0

/-- Catalogs, the memory of flags, and the numbers to give out next. -/
structure Workspace where
  catalogs : NameMap Catalog := ∅
  memory : List (FlagId × FlagMemory) := []
  nextTable : Nat := 1
  nextClass : Nat := 1
  nextFlag : Nat := 1

namespace Workspace

/-- The catalog of a name; it is empty until something is made in it. -/
def catalog (w : Workspace) (name : String) : Catalog := (w.catalogs.get? name).getD {}

/-- What a source of names knows now. -/
def directoryOf (w : Workspace) : Source → Directory
  | .catalog name => (w.catalog name).directory
  | .given d => d

/-- What a flag remembers; at first nothing. -/
def memoryOf (w : Workspace) (id : FlagId) : FlagMemory := (w.memory.lookup id).getD {}

/-- Replaces what a flag remembers. -/
def remember (w : Workspace) (id : FlagId) (memory : FlagMemory) : Workspace :=
  { w with memory := (id, memory) :: w.memory }

@[simp] theorem memoryOf_remember (w : Workspace) (id other : FlagId) (memory : FlagMemory) :
    (w.remember id memory).memoryOf other = if other = id then memory else w.memoryOf other := by
  by_cases h : other = id
  · simp [remember, memoryOf, h]
  · have hb : (other == id) = false := by simpa using h
    simp [remember, memoryOf, List.lookup_cons, hb, h]

/-! ## Catalogs -/

/-- Makes a table in no catalog. A refusal takes no number. -/
def makeTable (w : Workspace) (name : String) (declared : List ColumnDeclaration) :
    Except CatalogError (Table × Workspace) := do
  let table ← Table.create ⟨w.nextTable⟩ name declared
  return (table, { w with nextTable := w.nextTable + 1 })

/-- Makes a table in a catalog. A refusal takes no number. -/
def createTable (w : Workspace) (catalogName name : String) (declared : List ColumnDeclaration) :
    Except CatalogError (Table × Workspace) := do
  let (table, catalog) ← (w.catalog catalogName).createTable ⟨w.nextTable⟩ name declared
  return (table, { w with
    catalogs := w.catalogs.insert catalogName catalog, nextTable := w.nextTable + 1 })

/-- Maps a class in a catalog. A number is taken even by a refusal. -/
def mapClass (w : Workspace) (catalogName : String) (draft : Draft) :
    Except CatalogError Mapping × Workspace :=
  let next := { w with nextClass := w.nextClass + 1 }
  match (w.catalog catalogName).mapClass ⟨w.nextClass⟩ draft with
  | .error e => (.error e, next)
  | .ok (mapping, catalog) =>
    (.ok mapping, { next with catalogs := w.catalogs.insert catalogName catalog })

/-! ## Flags -/

/-- Makes a flag. A refusal takes no number. -/
def makeFlag (w : Workspace) (spec : FlagSpec) : Except FlagError (Flag × Workspace) := do
  let flag ← Flag.build ⟨w.nextFlag⟩ spec
  return (flag, { w with nextFlag := w.nextFlag + 1 })

/-- The naming that a flag goes by now. -/
def namingOf (w : Workspace) (f : Flag) : Naming :=
  f.resolver.naming (w.memoryOf f.id).registry w.directoryOf

/-- Makes a class known to a flag. -/
def register (w : Workspace) (f : Flag) (d : Directory) (classId : ClassId) :
    Except FlagError Workspace := do
  let memory := w.memoryOf f.id
  let registry ← f.resolver.register memory.registry d classId
  return w.remember f.id { memory with registry }

/-- Whether a flag is on for an object. -/
def getFlag (w : Workspace) (f : Flag) (r : Record) : Except FlagError Bool :=
  f.get (w.namingOf f) r

/-- Assigns a flag on an object. -/
def assignFlag (w : Workspace) (f : Flag) (r : Record) (v : Value) :
    Except FlagError Record × Workspace :=
  let memory := w.memoryOf f.id
  let (result, drawn) := f.assign (w.namingOf f) memory.drawn r v
  (result, w.remember f.id { memory with drawn })

end Workspace

end RowFlags
