import RowFlags.Text.Quoted
import RowFlags.Time.Layout
import RowFlags.Value.Basic

/-!
# The text of a value

`sql` writes a value as an SQL literal: texts and instants stand between single quotes, and a quote
inside a text is written twice. `diagnostic` names the type of the value as well.
-/

set_option autoImplicit false

namespace RowFlags

/-- The characters between single quotes, each quote among them written twice. -/
def Text.singleQuoted (s : String) : String :=
  let doubled := s.toList.flatMap fun c => if c = '\'' then ['\'', '\''] else [c]
  String.ofList ('\'' :: doubled ++ ['\''])

namespace Value

mutual

/-- The value as an SQL literal. -/
def sql : Value → String
  | .null => "NULL"
  | .boolean b => if b then "true" else "false"
  | .int32 n => n.toInt.repr
  | .string s => Text.singleQuoted s
  | .timestamp t => "'" ++ t.spaced ++ "'"
  | .list items => "(" ++ ", ".intercalate (sqlItems items) ++ ")"

/-- Each value as an SQL literal. -/
def sqlItems : List Value → List String
  | [] => []
  | item :: rest => item.sql :: sqlItems rest

end

mutual

/-- The value with its type, as diagnostics show it. -/
def diagnostic : Value → String
  | .null => "Null"
  | .boolean b => "Boolean(" ++ (if b then "true" else "false") ++ ")"
  | .int32 n => "Int32(" ++ n.toInt.repr ++ ")"
  | .string s => "String(" ++ Text.quoted s ++ ")"
  | .timestamp t => "Timestamp(" ++ t.compact ++ ")"
  | .list items => "List([" ++ ", ".intercalate (diagnosticItems items) ++ "])"

/-- Each value with its type. -/
def diagnosticItems : List Value → List String
  | [] => []
  | item :: rest => item.diagnostic :: diagnosticItems rest

end

theorem sqlItems_eq_map (items : List Value) : sqlItems items = items.map sql := by
  induction items with
  | nil => rfl
  | cons item rest ih => simp [sqlItems, ih]

end Value

end RowFlags
