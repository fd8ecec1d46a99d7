import RowFlags.Mapping.Directory
import RowFlags.Naming.Error
import RowFlags.Sorted
import RowFlags.Text.Bytes

/-!
# Naming columns

A flag speaks of columns, an object of attributes. A naming finds the one attribute that holds a
column on the objects of a class. A column under no attribute is unmapped there; one under several
is ambiguous, and the refusal lists them in byte order.
-/

set_option autoImplicit false

namespace RowFlags

/-- The attribute that holds a column on a class, or why there is no such one. -/
abbrev Naming := ClassId → Column → Except FlagError String

/-- The only name among the names of a column, however often it is given. -/
def uniqueName (classId : ClassId) (c : Column) (names : List String) : Except FlagError String :=
  match distinct Text.order names with
  | [] => .error (.unmapped classId c)
  | [name] => .ok name
  | several => .error (.ambiguous classId c several)

/-- The naming that asks a directory each time. -/
def Directory.naming (d : Directory) : Naming := fun classId c =>
  uniqueName classId c (d.namesOf classId c)

namespace Naming

/-- The attribute of the only column, if there is just one. -/
def single (naming : Naming) (columns : List Column) (classId : ClassId) :
    Except FlagError (Column × String) :=
  match columns with
  | [c] => (c, ·) <$> naming classId c
  | _ => .error .multipleColumns

end Naming

end RowFlags
