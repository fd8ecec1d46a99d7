import RowFlags.Naming.Registry

/-!
# Resolvers

A resolver tracks some columns and names them in one of two ways: by what it recorded when a class
was registered, or by asking a directory on every access, for which registration does nothing.
-/

set_option autoImplicit false

namespace RowFlags

/-- Where names are looked up on every access. -/
inductive Source where
  /-- A catalog that may go on growing. -/
  | catalog (name : String)
  | given (d : Directory)

/-- How a resolver names its columns. -/
inductive Strategy where
  | prefetched
  | onDemand (source : Source)

/-- Tracked columns and the way to name them. -/
structure Resolver where
  columns : List Column
  strategy : Strategy

namespace Resolver

/-- A resolver of columns, each tracked once, in the order of columns. -/
def tracking (columns : List Column) (strategy : Strategy) : Resolver :=
  ⟨distinct Column.order columns, strategy⟩

/-- Makes a class known, as far as the strategy needs it. -/
def register (r : Resolver) (known : Registry) (d : Directory) (classId : ClassId) :
    Except FlagError Registry :=
  match r.strategy with
  | .prefetched => known.register r.columns d classId
  | .onDemand _ => .ok known

/-- The naming in force, given what is recorded and what the sources know now. -/
def naming (r : Resolver) (known : Registry) (directoryOf : Source → Directory) : Naming :=
  match r.strategy with
  | .prefetched => known.naming
  | .onDemand source => (directoryOf source).naming

end Resolver

end RowFlags
