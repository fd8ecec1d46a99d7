import RowFlags.Schema.Table
import RowFlags.Value.Basic

/-!
# Mapped classes

A mapping says under which attributes a class shows the columns of its table. A class may map a
column under several attributes and leave others out. In a hierarchy on one table, a discriminator
attribute holds the identity of the class that a row belongs to.
-/

set_option autoImplicit false

namespace RowFlags

/-- The number of a mapped class, never given to another one: fewer than 2³² are asked for, refused
ones included, so that four bytes would hold it. -/
structure ClassId where
  number : Nat
  deriving DecidableEq

/-- A class in diagnostics. -/
def ClassId.text (c : ClassId) : String := "class#" ++ c.number.repr

/-- An attribute bound to a column. -/
structure Property where
  key : String
  column : Column
  deriving DecidableEq

/-- The attribute that tells the classes on one table apart, and a class's own value of it. -/
structure Discriminator where
  key : String
  identity : Value
  deriving DecidableEq

/-- How a class shows the columns of its table. -/
structure Mapping where
  id : ClassId
  className : String
  table : Table
  properties : List Property
  parent : Option ClassId
  discriminator : Option Discriminator
  deriving DecidableEq

namespace Mapping

/-- The property of an attribute. -/
def property? (m : Mapping) (key : String) : Option Property := m.properties.find? (·.key = key)

/-- Whether the class has an attribute. -/
def hasAttribute (m : Mapping) (key : String) : Bool := (m.property? key).isSome

/-- The mapped columns, each once, in the order of their first properties. -/
def columns (m : Mapping) : List Column := (m.properties.map Property.column).eraseDups

/-- Whether the class maps a column. -/
def mapsColumn (m : Mapping) (c : Column) : Bool := m.properties.any (·.column = c)

/-- The attributes bound to a column, in property order. -/
def namesOf (m : Mapping) (c : Column) : List String :=
  (m.properties.filter (·.column = c)).map Property.key

theorem mem_columns_iff {m : Mapping} {c : Column} :
    c ∈ m.columns ↔ ∃ p ∈ m.properties, p.column = c := by
  simp [columns]

theorem mem_namesOf_iff {m : Mapping} {c : Column} {key : String} :
    key ∈ m.namesOf c ↔ ∃ p ∈ m.properties, p.column = c ∧ p.key = key := by
  simp [namesOf, and_assoc]

/-- A column is mapped exactly if some attribute is bound to it. -/
theorem namesOf_ne_nil_iff {m : Mapping} {c : Column} : m.namesOf c ≠ [] ↔ c ∈ m.columns := by
  simp [mem_columns_iff, namesOf]

end Mapping

end RowFlags
