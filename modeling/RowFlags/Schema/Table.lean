import RowFlags.Schema.Column
import RowFlags.Schema.Error

/-!
# Tables

A table has a number, a name and at least one declared column, no two of one name. Its columns are
the declarations with their positions, so a table's column knows its place by construction
(`columns_getElem?`).
-/

set_option autoImplicit false

namespace RowFlags

/-- What a column is declared with. -/
structure ColumnDeclaration where
  name : String
  type : ColumnType
  deriving DecidableEq

/-- A table with its declared columns. -/
structure Table where
  id : TableId
  name : String
  declared : List ColumnDeclaration
  nonempty : declared ≠ []
  nodup : (declared.map ColumnDeclaration.name).Nodup
  deriving DecidableEq

namespace Table

/-- The first name that stands a second time, given the names `seen` before. -/
def firstRepeated (seen : List String) : List String → Option String
  | [] => none
  | name :: rest => if name ∈ seen then some name else firstRepeated (name :: seen) rest

theorem nodup_of_firstRepeated {seen names : List String} (h : firstRepeated seen names = none) :
    names.Nodup ∧ ∀ name ∈ names, name ∉ seen := by
  induction names generalizing seen with
  | nil => simp
  | cons name rest ih =>
    unfold firstRepeated at h
    split at h
    · cases h
    · obtain ⟨hnodup, hseen⟩ := ih h
      refine ⟨List.nodup_cons.2 ⟨fun hmem => hseen name hmem List.mem_cons_self, hnodup⟩, ?_⟩
      intro other hother
      rcases List.mem_cons.1 hother with rfl | hother
      · assumption
      · exact fun hmem => hseen other hother (List.mem_cons_of_mem _ hmem)

/-- The table of these declarations. An empty list is refused first, then the first name that
stands a second time. -/
def create (id : TableId) (name : String) (declared : List ColumnDeclaration) :
    Except CatalogError Table :=
  if hempty : declared = [] then .error (.noColumns name)
  else
    match hrepeated : firstRepeated [] (declared.map ColumnDeclaration.name) with
    | some column => .error (.duplicateColumn column name)
    | none => .ok ⟨id, name, declared, hempty, (nodup_of_firstRepeated hrepeated).1⟩

/-- The columns from a declaration list whose first stands at `position`. -/
def columnsFrom (id : TableId) (tableName : String) (position : Nat) :
    List ColumnDeclaration → List Column
  | [] => []
  | d :: rest =>
    ⟨id, position, tableName, d.name, d.type⟩ :: columnsFrom id tableName (position + 1) rest

/-- The columns in declared order. -/
def columns (t : Table) : List Column := columnsFrom t.id t.name 0 t.declared

/-- The types of the columns in declared order. -/
def schema (t : Table) : List ColumnType := t.declared.map ColumnDeclaration.type

/-- The column of a name. -/
def column? (t : Table) (name : String) : Option Column := t.columns.find? (·.name = name)

/-- The column of a name, or the refusal that says it is missing. -/
def column (t : Table) (name : String) : Except CatalogError Column :=
  match t.column? name with
  | some c => .ok c
  | none => .error (.columnNotFound name t.name)

/-- Whether a column belongs to the table. -/
def contains (t : Table) (c : Column) : Bool := c.table = t.id && c.position < t.declared.length

theorem columnsFrom_getElem? (id : TableId) (tableName : String) (position i : Nat)
    (declared : List ColumnDeclaration) :
    (columnsFrom id tableName position declared)[i]? =
      declared[i]?.map fun d => ⟨id, position + i, tableName, d.name, d.type⟩ := by
  induction declared generalizing position i with
  | nil => rfl
  | cons d rest ih =>
    cases i with
    | zero => rfl
    | succ i =>
      simp only [columnsFrom, List.getElem?_cons_succ, ih]
      congr 2
      funext d
      congr 1
      omega

/-- The column at a position is the declaration there, placed. -/
theorem columns_getElem? (t : Table) (i : Nat) :
    t.columns[i]? = t.declared[i]?.map fun d => ⟨t.id, i, t.name, d.name, d.type⟩ := by
  simp [columns, columnsFrom_getElem?]

@[simp] theorem length_columns (t : Table) : t.columns.length = t.declared.length := by
  have h (position : Nat) (declared : List ColumnDeclaration) :
      (columnsFrom t.id t.name position declared).length = declared.length := by
    induction declared generalizing position with
    | nil => rfl
    | cons d rest ih => simp [columnsFrom, ih]
  exact h 0 t.declared

@[simp] theorem length_schema (t : Table) : t.schema.length = t.declared.length := by
  simp [schema]

end Table

end RowFlags
