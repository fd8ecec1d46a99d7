import RowFlags.Naming.Basic

/-!
# Recorded names

A registry keeps the attribute names of some columns for the classes registered with it. A class is
recorded once and as a whole: registering it again changes nothing, and a registration that fails
leaves the registry as it was. A class that is not registered has no names.
-/

set_option autoImplicit false

namespace RowFlags

/-- The names recorded for each registered class. -/
structure Registry where
  classes : List (ClassId × List (Column × String)) := []

namespace Registry

instance : Inhabited Registry := ⟨{}⟩

/-- What is recorded for a class. -/
def names? (r : Registry) (classId : ClassId) : Option (List (Column × String)) :=
  r.classes.lookup classId

/-- Whether a class is registered. -/
def isRegistered (r : Registry) (classId : ClassId) : Bool := (r.names? classId).isSome

/-- The names of the listed columns on a class; the first refusal counts. -/
def collect (d : Directory) (classId : ClassId) :
    List Column → Except FlagError (List (Column × String))
  | [] => .ok []
  | c :: rest => do
    let name ← d.naming classId c
    let names ← collect d classId rest
    return (c, name) :: names

/-- Records the names of the `tracked` columns that the class maps, unless it is registered. -/
def register (r : Registry) (tracked : List Column) (d : Directory) (classId : ClassId) :
    Except FlagError Registry :=
  if r.isRegistered classId then .ok r
  else do
    let names ← collect d classId ((d.columnsOf classId).filter (· ∈ tracked))
    return ⟨(classId, names) :: r.classes⟩

/-- The naming by what is recorded. -/
def naming (r : Registry) : Naming := fun classId c =>
  match r.names? classId with
  | none => .error (.unregistered classId)
  | some names =>
    match names.lookup c with
    | some name => .ok name
    | none => .error (.unmapped classId c)

end Registry

end RowFlags
