import RowFlags.Mapping.Basic
import RowFlags.NameMap
import RowFlags.Naming.Basic

/-!
# Objects of mapped classes

An object has the number of its class and a value for each of its attributes. Its attributes are
fixed when it is made: setting another one is refused.
-/

set_option autoImplicit false

namespace RowFlags

/-- An object: its class and the values of its attributes. -/
structure Record where
  classId : ClassId
  attributes : NameMap Value
  deriving DecidableEq

namespace Record

/-- The object of a class with every attribute NULL. -/
def blank (m : Mapping) : Record :=
  ⟨m.id, NameMap.ofList (m.properties.map fun p => (p.key, .null))⟩

/-- The value of an attribute. -/
def attribute? (r : Record) (name : String) : Option Value := r.attributes.get? name

/-- The object with another value of an attribute that it has. -/
def set (r : Record) (name : String) (value : Value) : Except FlagError Record :=
  if r.attributes.contains name then .ok { r with attributes := r.attributes.insert name value }
  else .error (.unknownAttribute r.classId name)

/-- The value that a column has on an object, under a naming. -/
def valueOf (r : Record) (naming : Naming) (c : Column) : Except FlagError Value := do
  let name ← naming r.classId c
  match r.attribute? name with
  | some v => return v
  | none => .error (.unknownAttribute r.classId name)

end Record

/-- A new object of a class: its attributes are NULL, but for its identity in the discriminator. -/
def Mapping.newRecord (m : Mapping) : Record :=
  match m.discriminator with
  | none => .blank m
  | some d =>
    let blank := Record.blank m
    { blank with attributes := blank.attributes.insert d.key d.identity }

end RowFlags
