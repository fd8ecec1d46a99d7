import RowFlags.Mapping.Basic

/-!
# Drafts of mapped classes

A draft lists what a class is to show: the properties of its parent come first, then the attributes
named one by one, then, if asked for, every column that is left under its own name. `Draft.build`
makes the mapping or says which rule the draft breaks first.
-/

set_option autoImplicit false

namespace RowFlags

/-- The polymorphic part of a draft: the identity, and the attribute for it unless the parent's is
meant. -/
structure Identity where
  key : Option String
  value : Value

/-- What a class is to be mapped as. -/
structure Draft where
  className : String
  table : Table
  /-- Attributes with the names of their columns, in the order they were asked for. -/
  entries : List (String × String) := []
  allColumns : Bool := false
  parent : Option Mapping := none
  identity : Option Identity := none

namespace Draft

/-- Maps a column under an attribute. -/
def mapAs (d : Draft) (key column : String) : Draft :=
  { d with entries := d.entries ++ [(key, column)] }

/-- Maps a column under its own name. -/
def mapColumn (d : Draft) (column : String) : Draft := d.mapAs column column

/-- Maps every column that is left under its own name. -/
def mapAll (d : Draft) : Draft := { d with allColumns := true }

/-- Starts from the properties of a parent. -/
def inherit (d : Draft) (parent : Mapping) : Draft := { d with parent := some parent }

/-- Names the discriminator attribute and the identity. -/
def identify (d : Draft) (key : String) (value : Value) : Draft :=
  { d with identity := some ⟨some key, value⟩ }

/-- Gives the identity in the discriminator attribute of the parent. -/
def identifyAs (d : Draft) (value : Value) : Draft := { d with identity := some ⟨none, value⟩ }

/-- The properties of the parent, whose table must be the draft's. -/
def inherited (d : Draft) : Except CatalogError (List Property) :=
  match d.parent with
  | none => .ok []
  | some parent =>
    if parent.table.id = d.table.id then .ok parent.properties
    else .error (.otherTable d.className parent.table.name parent.className)

/-- Adds the entries to the properties. An attribute that is there already is refused before its
column is looked for. -/
def addEntries (d : Draft) (properties : List Property) :
    List (String × String) → Except CatalogError (List Property)
  | [] => .ok properties
  | (key, name) :: rest =>
    if properties.any (·.key = key) then .error (.attributeTaken key d.className)
    else do
      let column ← d.table.column name
      d.addEntries (properties ++ [⟨key, column⟩]) rest

/-- Adds a column under its own name, unless the column is mapped or the name is taken. -/
def addColumn (properties : List Property) (c : Column) : List Property :=
  if properties.any (fun p => p.column = c || p.key = c.name) then properties
  else properties ++ [⟨c.name, c⟩]

/-- The discriminator of the class, among its properties. -/
def discriminator (d : Draft) (properties : List Property) :
    Except CatalogError (Option Discriminator) :=
  match d.identity with
  | none => .ok none
  | some identity =>
    match identity.key <|> (d.parent.bind Mapping.discriminator).map Discriminator.key with
    | none => .error (.noDiscriminator d.className)
    | some key =>
      if properties.any (·.key = key) then .ok (some ⟨key, identity.value⟩)
      else .error (.discriminatorUnmapped key d.className)

/-- The mapping of a draft under the number `id`. -/
def build (d : Draft) (id : ClassId) : Except CatalogError Mapping := do
  let start ← d.inherited
  let named ← d.addEntries start d.entries
  let properties := if d.allColumns then d.table.columns.foldl addColumn named else named
  let discriminator ← d.discriminator properties
  return { id, className := d.className, table := d.table, properties,
           parent := d.parent.map Mapping.id, discriminator }

end Draft

end RowFlags
