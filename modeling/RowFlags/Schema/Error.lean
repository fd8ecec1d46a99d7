/-!
# Refusals of the catalog

Why a table is not made, a column not found, or a class not mapped.
-/

set_option autoImplicit false

namespace RowFlags

/-- Why a table or a mapped class is not made. -/
inductive CatalogError where
  | tableExists (table : String)
  | noColumns (table : String)
  | duplicateColumn (column table : String)
  | columnNotFound (column table : String)
  /-- The class maps another table than the `table` of its `parent`. -/
  | otherTable (className table parent : String)
  | attributeTaken (key className : String)
  /-- An identity is given, but neither the class nor its parent names an attribute for it. -/
  | noDiscriminator (className : String)
  | discriminatorUnmapped (key className : String)
  /-- The parent is mapped, but not in this catalog. -/
  | parentNotMapped (className : String)
  deriving DecidableEq

/-- The wording of a refusal. -/
def CatalogError.message : CatalogError → String
  | .tableExists table => s!"Table '{table}' already exists"
  | .noColumns table => s!"Table '{table}' must have at least one column"
  | .duplicateColumn column table => s!"Duplicate column '{column}' in table '{table}'"
  | .columnNotFound column table => s!"Column '{column}' not found in table '{table}'"
  | .otherTable className table parent =>
    s!"Class '{className}' must map table '{table}' to inherit from '{parent}'"
  | .attributeTaken key className =>
    s!"Attribute '{key}' is already mapped on class '{className}'"
  | .noDiscriminator className =>
    s!"Class '{className}' has a polymorphic identity but no discriminator attribute"
  | .discriminatorUnmapped key className =>
    s!"Discriminator '{key}' is not a mapped attribute of class '{className}'"
  | .parentNotMapped className =>
    s!"Parent of class '{className}' is not mapped in this catalog"

end RowFlags
