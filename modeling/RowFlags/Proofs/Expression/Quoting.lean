import RowFlags.Expr.Sql
import RowFlags.Proofs.Text.Literals

/-!
# Literals in the SQL of an expression

The SQL of an expression is read by the quoting rule: it ends outside of literals, and the literals
that are read are the texts of the tree, in the order in which they are written
(`Expr.literals?_sql`). Nothing in a text can close its literal early, and no two literals touch,
since separators stand between the parts of a tree and none of them holds a quote.
-/

set_option autoImplicit false

namespace RowFlags

open Text (Quotes Unquoted)

/-! ## The texts and names of a tree -/

namespace Value

mutual

/-- The texts that the SQL of a value holds between quotes. -/
def texts : Value → List String
  | .null => []
  | .boolean _ => []
  | .int32 _ => []
  | .string s => [s]
  | .timestamp t => [t.spaced]
  | .list items => textsOfAll items

/-- The texts of the values, one after the other. -/
def textsOfAll : List Value → List String
  | [] => []
  | item :: rest => item.texts ++ textsOfAll rest

end

theorem textsOfAll_eq_flatMap (items : List Value) : textsOfAll items = items.flatMap texts := by
  induction items with
  | nil => rfl
  | cons item rest ih => rw [textsOfAll, List.flatMap_cons, ih]

end Value

/-- The name that an operator is written by, if it is the user's own. -/
def BinaryOp.names : BinaryOp → List String
  | .custom operator => [operator]
  | _ => []

namespace Expr

mutual

/-- The texts that the SQL of an expression holds between quotes. A search for a text is written by
a pattern with a wildcard on each side of the text. -/
def texts : Expr → List String
  | .column _ => []
  | .literal v => v.texts
  | .null => []
  | .group items => textsOfAll items
  | .unary _ operand => operand.texts
  | .binary .contains left right => left.texts ++ "%" :: (right.texts ++ ["%"])
  | .binary _ left right => left.texts ++ right.texts
  | .test _ _ => []
  | .clauses _ items => textsOfAll items
  | .call _ arguments => textsOfAll arguments

/-- The texts of the expressions, one after the other. -/
def textsOfAll : List Expr → List String
  | [] => []
  | item :: rest => item.texts ++ textsOfAll rest

end

mutual

/-- The names in an expression that are written as they are: of tables, columns, functions and the
user's own operators. -/
def names : Expr → List String
  | .column c => [c.tableName, c.name]
  | .literal _ => []
  | .null => []
  | .group items => namesOfAll items
  | .unary _ operand => operand.names
  | .binary op left right => op.names ++ (left.names ++ right.names)
  | .test c _ => [c.tableName, c.name]
  | .clauses _ items => namesOfAll items
  | .call function arguments => function :: namesOfAll arguments

/-- The names in the expressions. -/
def namesOfAll : List Expr → List String
  | [] => []
  | item :: rest => item.names ++ namesOfAll rest

end

theorem textsOfAll_eq_flatMap (items : List Expr) : textsOfAll items = items.flatMap texts := by
  induction items with
  | nil => rfl
  | cons item rest ih => rw [textsOfAll, List.flatMap_cons, ih]

theorem namesOfAll_eq_flatMap (items : List Expr) : namesOfAll items = items.flatMap names := by
  induction items with
  | nil => rfl
  | cons item rest ih => rw [namesOfAll, ih, List.flatMap_cons]

end Expr

/-! ## What is written without quotes -/

namespace Text.Unquoted

theorem toDigits (n : Nat) : '\'' ∉ Nat.toDigits 10 n := by
  intro hmem
  have hdigit := Nat.isDigit_of_mem_toDigits (by decide) (by decide) hmem
  revert hdigit
  decide

theorem repr_int (n : Int) : Unquoted n.repr := by
  have hrepr (m : Nat) : Unquoted m.repr := by
    unfold Unquoted
    rw [Nat.repr, String.toList_ofList]
    exact toDigits m
  cases n with
  | ofNat m => exact hrepr m
  | negSucc m => exact append (by decide) (hrepr _)

theorem padded (width n : Nat) : Unquoted (Text.padded width n) := by
  unfold Unquoted
  rw [Text.padded, String.toList_ofList, List.mem_append, not_or]
  refine ⟨?_, toDigits n⟩
  intro hmem
  have hzero := List.eq_of_mem_replicate hmem
  revert hzero
  decide

theorem dateText (d : Date) : Unquoted d.text := by
  have hyear : Unquoted (Date.yearText d.year) := by
    unfold Date.yearText
    split
    · exact append (by decide) (padded 4 _)
    · split
      · exact append (by decide) (padded 4 _)
      · exact padded 4 _
  exact (((hyear.append (by decide)).append (padded 2 _)).append (by decide)).append (padded 2 _)

theorem clockText (t : Instant) : Unquoted t.clockText := by
  have hfraction (nanos : Nat) : Unquoted (Instant.fractionText nanos) := by
    unfold Instant.fractionText
    split
    · decide
    · split
      · exact append (by decide) (padded 3 _)
      · split
        · exact append (by decide) (padded 6 _)
        · exact append (by decide) (padded 9 _)
  exact (((((padded 2 _).append (by decide)).append (padded 2 _)).append (by decide)).append
    (padded 2 _)).append (hfraction _)

/-- Neither a date nor a time of day is written with a quote. -/
theorem spaced (t : Instant) : Unquoted t.spaced :=
  ((dateText t.date).append (by decide)).append (clockText t)

/-- A text without quotes stands between quotes as it is. -/
theorem singleQuoted_eq {s : String} (h : Unquoted s) : Text.singleQuoted s = "'" ++ s ++ "'" := by
  apply String.toList_inj.1
  show (String.ofList ('\'' :: Text.doubled s.toList ++ ['\''])).toList = _
  rw [Text.doubled_eq_self h]
  simp

end Text.Unquoted

/-! ## What values and expressions quote -/

namespace Value

mutual

theorem quotes_sql : (v : Value) → Quotes v.sql v.texts
  | .null => .bare (by decide)
  | .boolean b => .bare (by cases b <;> decide)
  | .int32 n => .bare (Text.Unquoted.repr_int n.toInt)
  | .string s => .singleQuoted s
  | .timestamp t => by
    rw [sql, ← (Text.Unquoted.spaced t).singleQuoted_eq]
    exact .singleQuoted t.spaced
  | .list items => by
    rw [sql, sqlItems_eq_map, texts, textsOfAll_eq_flatMap]
    exact ((Quotes.intercalate (by decide) (by decide) (quotes_items items)).bare_append
      (by decide)).append_bare (by decide) (by decide)

theorem quotes_items : (items : List Value) → ∀ item ∈ items, Quotes item.sql item.texts
  | [] => List.forall_mem_nil _
  | first :: rest => List.forall_mem_cons.2 ⟨quotes_sql first, quotes_items rest⟩

end

end Value

namespace Expr

theorem quotes_enclosed {text : String} {literals : List String} (h : Quotes text literals)
    (needed : Bool) : Quotes (enclosed needed text) literals := by
  cases needed with
  | false => exact h
  | true => exact (h.bare_append (by decide)).append_bare (by decide) (by decide)

theorem unquoted_column {c : Column} (htable : Unquoted c.tableName) (hname : Unquoted c.name) :
    Unquoted c.sql :=
  (htable.append (by decide)).append hname

theorem unquoted_operator {op : BinaryOp} (h : ∀ name ∈ op.names, Unquoted name) :
    Unquoted op.sql := by
  cases op with
  | arithmetic op => cases op <;> decide
  | compare relation => cases relation <;> decide
  | custom operator => exact h operator (List.mem_singleton_self operator)
  | _ => decide

/-- Two operands with the text of an operator between them. -/
theorem quotes_operands {left right : String} {literals others : List String}
    (hleft : Quotes left literals) (hright : Quotes right others) {operator : String}
    (h : Unquoted operator) : Quotes (left ++ " " ++ operator ++ " " ++ right) (literals ++ others) := by
  have hsplit : left ++ " " ++ operator ++ " " ++ right = left ++ (" " ++ operator ++ " ") ++ right := by
    simp only [String.append_assoc]
  rw [hsplit]
  refine hleft.join (((show Unquoted " " by decide).append h).append (by decide)) ?_ hright
  intro hempty
  have hlength := congrArg String.length hempty
  simp at hlength

/-- A search for a text, between its wildcards. -/
theorem quotes_search {left right : String} {literals others : List String}
    (hleft : Quotes left literals) (hright : Quotes right others) :
    Quotes (left ++ " LIKE '%' || " ++ right ++ " || '%'")
      (literals ++ "%" :: (others ++ ["%"])) := by
  have hsplit : left ++ " LIKE '%' || " ++ right ++ " || '%'" =
      left ++ " LIKE " ++ (Text.singleQuoted "%" ++ " || " ++
        (right ++ " || " ++ Text.singleQuoted "%")) := by
    have hfront : (" LIKE '%' || " : String) = " LIKE " ++ (Text.singleQuoted "%" ++ " || ") := by
      decide
    have hback : (" || '%'" : String) = " || " ++ Text.singleQuoted "%" := by decide
    rw [hfront, hback]
    simp only [String.append_assoc]
  rw [hsplit]
  exact hleft.join (by decide) (by decide) ((Quotes.singleQuoted "%").join (by decide) (by decide)
    (hright.join (by decide) (by decide) (.singleQuoted "%")))

theorem unquoted_test (t : TruthTest) : Unquoted t.sql := by
  cases t <;> decide

mutual

/-- The SQL of an expression quotes the texts of the tree. -/
theorem quotes_sql : (e : Expr) → (∀ name ∈ e.names, Unquoted name) → Quotes e.sql e.texts
  | .column c, h => .bare (unquoted_column (h _ (by simp [names])) (h _ (by simp [names])))
  | .literal v, _ => v.quotes_sql
  | .null, _ => .bare (by decide)
  | .group items, h => by
    rw [sql, sqlItems_eq_map, texts, textsOfAll_eq_flatMap]
    exact ((Quotes.intercalate (by decide) (by decide) (quotes_items items h)).bare_append
      (by decide)).append_bare (by decide) (by decide)
  | .unary .not operand, h => (quotes_enclosed (quotes_sql operand h) _).bare_append (by decide)
  | .unary .neg operand, h => (quotes_enclosed (quotes_sql operand h) _).bare_append (by decide)
  | .binary op left right, h => by
    have hleft := quotes_enclosed (quotes_sql left fun name hname => h name (by simp [names, hname]))
      left.isCompound
    have hright := quotes_enclosed
      (quotes_sql right fun name hname => h name (by simp [names, hname])) right.isCompound
    have hop : Unquoted op.sql := unquoted_operator fun name hname => h name (by simp [names, hname])
    by_cases hsearch : op = .contains
    · subst hsearch
      exact quotes_search hleft hright
    · rw [sql, texts]
      · exact quotes_operands hleft hright hop
      · exact hsearch
      · exact hsearch
  | .test c t, h => by
    have hcolumn : Unquoted c.sql :=
      unquoted_column (h _ (by simp [names])) (h _ (by simp [names]))
    by_cases hfalse : t = .isFalse
    · subst hfalse
      exact .bare ((show Unquoted "NOT " by decide).append hcolumn)
    · rw [sql]
      · exact .bare ((hcolumn.append (by decide)).append (unquoted_test t))
      · exact hfalse
  | .clauses _ [], _ => .bare (show Unquoted "true" by decide)
  | .clauses op (first :: rest), h => by
    rw [sql, sqlClauses_eq_map, texts, textsOfAll_eq_flatMap]
    · refine Quotes.intercalate (by cases op <;> decide) (by cases op <;> decide) ?_
      exact fun item hitem => quotes_enclosed (quotes_items (first :: rest) h item hitem) _
    · simp
  | .call function arguments, h => by
    rw [sql, sqlItems_eq_map, texts, textsOfAll_eq_flatMap]
    have hfunction : Unquoted (function ++ "(") := (h _ (by simp [names])).append (by decide)
    exact ((Quotes.intercalate (by decide) (by decide) (quotes_items arguments fun name hname =>
      h name (by simp [names, hname]))).bare_append hfunction).append_bare (by decide) (by decide)

theorem quotes_items : (items : List Expr) → (∀ name ∈ namesOfAll items, Unquoted name) →
    ∀ item ∈ items, Quotes item.sql item.texts
  | [], _ => List.forall_mem_nil _
  | first :: rest, h =>
    List.forall_mem_cons.2
      ⟨quotes_sql first fun name hname => h name (by simp [namesOfAll, hname]),
        quotes_items rest fun name hname => h name (by simp [namesOfAll, hname])⟩

end

/-- The SQL of an expression ends outside of literals, and its literals are the texts of the tree,
if no name that is written in it holds a quote. -/
theorem literals?_sql {e : Expr} (h : ∀ name ∈ e.names, '\'' ∉ name.toList) :
    Text.literals? e.sql = some e.texts :=
  (quotes_sql e h).literals?_eq

/-- Texts that begin and end with quotes, beside an empty one and a leap second, in a nested list
and in a pattern. -/
def quotesEverywhere : Expr :=
  .conjoin .or
    [.binary .contains (.column ⟨⟨1⟩, 0, "posts", "title", .varchar⟩) (.literal (.string "'' --")),
      .binary (.custom "~*") (.call "lower" [.literal (.string "")])
        (.literal (.list
          [.string "o'clock'", .list [.timestamp ⟨0, 1500000000, by decide⟩, .string "'"]]))]

theorem literals?_sql_quotesEverywhere :
    (∀ name ∈ quotesEverywhere.names, '\'' ∉ name.toList) ∧
      Text.literals? quotesEverywhere.sql =
        some ["%", "'' --", "%", "", "o'clock'", "1970-01-01 00:00:01.500", "'"] := by
  have hnames : ∀ name ∈ quotesEverywhere.names, '\'' ∉ name.toList := by decide
  have htexts : quotesEverywhere.texts =
      ["%", "'' --", "%", "", "o'clock'", "1970-01-01 00:00:01.500", "'"] := by decide +kernel
  exact ⟨hnames, (literals?_sql hnames).trans (congrArg some htexts)⟩

end Expr

end RowFlags
