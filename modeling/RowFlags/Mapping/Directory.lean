import RowFlags.Mapping.Basic

/-!
# Directories of attributes

A directory tells which columns a class maps and which attributes are bound to each. Catalogs are
directories; others may be given outright.
-/

set_option autoImplicit false

namespace RowFlags

/-- What is known of the attributes of classes. -/
structure Directory where
  columnsOf : ClassId → List Column
  namesOf : ClassId → Column → List String

/-- One line of a directory that is given outright. -/
structure DirectoryEntry where
  classId : ClassId
  column : Column
  names : List String

/-- The directory of given entries. A class maps the columns of its entries; of several entries for
one column the first counts. -/
def Directory.ofEntries (entries : List DirectoryEntry) : Directory where
  columnsOf classId := (entries.filter (·.classId = classId)).map DirectoryEntry.column
  namesOf classId c :=
    match entries.find? fun e => e.classId = classId && e.column = c with
    | some e => e.names
    | none => []

end RowFlags
