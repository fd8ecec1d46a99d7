import RowFlags.Proofs.Expression.Nodes
import RowFlags.Proofs.Expression.Quoting
import RowFlags.Proofs.Text.Pieces

/-!
# The SQL of an expression, piece by piece

The pieces of a tree: its literals, and every other character of its SQL by itself. They are what
the SQL is written from (`Expr.written_pieces`), and what it is read as by the quoting rule if no
name holds a quote (`Expr.scan_sql`). What holds of characters and literals and is kept by putting
them together holds of the pieces of every tree (`Text.PieceLaw.expr`).
-/

set_option autoImplicit false

namespace RowFlags

open Text (Piece PieceLaw Apart Without Neutral bares written listed parenthesized)

/-! ## Values -/

namespace Value

mutual

/-- The pieces that the SQL of a value is written from. -/
def pieces : Value → List Piece
  | .null => bares "NULL"
  | .boolean b => bares (if b then "true" else "false")
  | .int32 n => bares n.toInt.repr
  | .string s => [.literal s]
  | .timestamp t => [.literal t.spaced]
  | .list items => listed (piecesOfAll items)

/-- The pieces of each value. -/
def piecesOfAll : List Value → List (List Piece)
  | [] => []
  | item :: rest => item.pieces :: piecesOfAll rest

end

theorem piecesOfAll_eq_map (items : List Value) : piecesOfAll items = items.map pieces := by
  induction items with
  | nil => rfl
  | cons item rest ih => rw [piecesOfAll, ih, List.map_cons]

mutual

theorem written_pieces : (v : Value) → written v.pieces = v.sql.toList
  | .null => Text.written_bares _
  | .boolean _ => Text.written_bares _
  | .int32 _ => Text.written_bares _
  | .string s => Text.written_literal s
  | .timestamp t => by
    rw [pieces, Text.written_literal, (Text.Unquoted.spaced t).singleQuoted_eq, sql]
  | .list items => by
    rw [pieces, Text.written_listed, piecesOfAll_eq_map, sql, sqlItems_eq_map,
      List.map_map, Function.comp_def, List.map_congr_left (written_items items)]
    simp [String.toList_intercalate, Function.comp_def]

theorem written_items : (items : List Value) →
    ∀ item ∈ items, written item.pieces = item.sql.toList
  | [] => List.forall_mem_nil _
  | item :: rest => List.forall_mem_cons.2 ⟨written_pieces item, written_items rest⟩

end

/-- A number is written as digits, after a dash if it is negative. -/
theorem bares_repr (n : Int) :
    bares n.repr = (if n < 0 then bares "-" else []) ++ bares n.natAbs.repr := by
  cases n with
  | ofNat m => rfl
  | negSucc m =>
    rw [if_pos (Int.negSucc_lt_zero m), ← Text.bares_append]
    rfl

/-- No digit is any other character. -/
theorem ne_of_mem_repr {m : Nat} {c other : Char} (h : c ∈ m.repr.toList)
    (hother : other.isDigit = false) : c ≠ other := by
  rintro rfl
  rw [Nat.repr, String.toList_ofList] at h
  rw [Nat.isDigit_of_mem_toDigits (by decide) (by decide) h] at hother
  cases hother

theorem neutral_repr (m : Nat) : Neutral m.repr := fun _ h =>
  ⟨ne_of_mem_repr h (by decide), ne_of_mem_repr h (by decide), ne_of_mem_repr h (by decide),
    ne_of_mem_repr h (by decide)⟩

end Value

namespace Text.PieceLaw

variable {S P : List Piece → Prop}

mutual

theorem value (law : PieceLaw S P) : (v : Value) → P v.pieces
  | .null => law.word (by decide)
  | .boolean b => law.word (by cases b <;> decide)
  | .int32 n => by
    have hdigits : S (Text.bares n.toInt.natAbs.repr) := law.bares (Value.neutral_repr _)
    rw [Value.pieces, Value.bares_repr]
    split
    · have hne : Text.bares n.toInt.natAbs.repr ≠ [] := by
        simp [Text.bares, Nat.repr, Nat.toDigits_ne_nil]
      have hjoined := law.join law.dash hdigits hne (law.separator law.nil)
      rwa [List.append_nil] at hjoined
    · exact law.separator hdigits
  | .string s => law.literal s
  | .timestamp t => law.literal t.spaced
  | .list items => by
    rw [Value.pieces, Value.piecesOfAll_eq_map]
    exact law.listed (List.forall_mem_map.2 (values law items))

theorem values (law : PieceLaw S P) : (items : List Value) → ∀ item ∈ items, P item.pieces
  | [] => List.forall_mem_nil _
  | item :: rest => List.forall_mem_cons.2 ⟨value law item, values law rest⟩

end

end Text.PieceLaw

/-! ## Expressions -/

namespace Expr

mutual

/-- The pieces that the SQL of an expression is written from. -/
def pieces : Expr → List Piece
  | .column c => bares c.sql
  | .literal v => v.pieces
  | .null => bares "NULL"
  | .group items => listed (piecesOfAll items)
  | .unary .not operand => bares "NOT " ++ Text.enclosed operand.isCompound operand.pieces
  | .unary .neg operand => bares "-" ++ Text.enclosed operand.isCompound operand.pieces
  | .binary .contains left right =>
    Text.enclosed left.isCompound left.pieces ++ bares " LIKE " ++ [.literal "%"] ++ bares " || " ++
      Text.enclosed right.isCompound right.pieces ++ bares " || " ++ [.literal "%"]
  | .binary op left right =>
    Text.enclosed left.isCompound left.pieces ++ bares " " ++ bares op.sql ++ bares " " ++
      Text.enclosed right.isCompound right.pieces
  | .test c .isFalse => bares "NOT " ++ bares c.sql
  | .test c t => bares c.sql ++ bares " " ++ bares t.sql
  | .clauses _ [] => bares "true"
  | .clauses op items => (bares (" " ++ op.sql ++ " ")).intercalate (piecesOfClauses items)
  | .call function arguments => bares function ++ listed (piecesOfAll arguments)

/-- The pieces of each expression. -/
def piecesOfAll : List Expr → List (List Piece)
  | [] => []
  | item :: rest => item.pieces :: piecesOfAll rest

/-- The pieces of each expression, clause lists in parentheses. -/
def piecesOfClauses : List Expr → List (List Piece)
  | [] => []
  | item :: rest => Text.enclosed item.isClauses item.pieces :: piecesOfClauses rest

end

/-- The pieces of the expression as an operand of another. -/
def operandPieces (e : Expr) : List Piece := Text.enclosed e.isCompound e.pieces

theorem piecesOfAll_eq_map (items : List Expr) : piecesOfAll items = items.map pieces := by
  induction items with
  | nil => rfl
  | cons item rest ih => rw [piecesOfAll, ih, List.map_cons]

theorem piecesOfClauses_eq_map (items : List Expr) :
    piecesOfClauses items = items.map fun e => Text.enclosed e.isClauses e.pieces := by
  induction items with
  | nil => rfl
  | cons item rest ih => rw [piecesOfClauses, ih, List.map_cons]

/-- The names in a part are names in the whole. -/
theorem names_subset_of_mem_parts {part e : Expr} (h : part ∈ e.parts) : part.names ⊆ e.names := by
  intro name hname
  cases e with
  | column c => cases h
  | literal v => cases h
  | null => cases h
  | test c t => cases h
  | group items =>
    rw [names, namesOfAll_eq_flatMap]
    exact List.mem_flatMap.2 ⟨part, h, hname⟩
  | unary op operand =>
    cases List.mem_singleton.1 h
    exact hname
  | binary op left right =>
    simp only [parts, List.mem_cons, List.not_mem_nil, or_false] at h
    simp only [names, List.mem_append]
    rcases h with rfl | rfl
    · exact .inr (.inl hname)
    · exact .inr (.inr hname)
  | clauses op items =>
    rw [names, namesOfAll_eq_flatMap]
    exact List.mem_flatMap.2 ⟨part, h, hname⟩
  | call function arguments =>
    rw [names, namesOfAll_eq_flatMap]
    exact List.mem_cons_of_mem _ (List.mem_flatMap.2 ⟨part, h, hname⟩)

theorem names_subset_of_standsIn {d e : Expr} (h : d.StandsIn e) : d.names ⊆ e.names := by
  induction h with
  | root => exact fun name hname => hname
  | within hpart _ ih => exact fun name hname => names_subset_of_mem_parts hpart (ih hname)

theorem written_enclosed {ps : List Piece} {text : String} (h : written ps = text.toList)
    (needed : Bool) : written (Text.enclosed needed ps) = (enclosed needed text).toList := by
  cases needed with
  | false => exact h
  | true => simp [Text.enclosed, enclosed, parenthesized, h]

theorem written_listed (items : List Expr)
    (h : ∀ item ∈ items, written item.pieces = item.sql.toList) :
    written (listed (piecesOfAll items)) =
      '(' :: ((", ".intercalate (sqlItems items)).toList ++ [')']) := by
  rw [Text.written_listed, piecesOfAll_eq_map, sqlItems_eq_map, List.map_map,
    String.toList_intercalate, List.map_map]
  simp only [Function.comp_def]
  rw [List.map_congr_left h]

/-- The SQL of an expression is written from its pieces. -/
theorem written_pieces (e : Expr) : written e.pieces = e.sql.toList := by
  induction e using induction_parts with
  | h e ih =>
    cases e with
    | column c => simp [pieces, sql]
    | literal v => rw [pieces, v.written_pieces, sql]
    | null => simp [pieces, sql]
    | group items =>
      rw [pieces, written_listed items ih, sql]
      simp
    | unary op operand =>
      have hoperand := written_enclosed (ih operand (by simp [parts])) operand.isCompound
      cases op <;> simp [pieces, sql, hoperand]
    | binary op left right =>
      have hleft := written_enclosed (ih left (by simp [parts])) left.isCompound
      have hright := written_enclosed (ih right (by simp [parts])) right.isCompound
      by_cases hsearch : op = .contains
      · subst hsearch
        rw [pieces, sql]
        simp only [Text.written_append, Text.written_bares, Text.written_literal, hleft, hright]
        simp [Text.singleQuoted]
      · rw [pieces, sql]
        · simp [hleft, hright]
        · exact hsearch
        · exact hsearch
    | test c t => cases t <;> simp [pieces, sql]
    | clauses op items =>
      cases items with
      | nil => simp [pieces, sql]
      | cons first rest =>
        rw [pieces, sql, Text.written_intercalate, String.toList_intercalate,
          piecesOfClauses_eq_map, sqlClauses_eq_map, List.map_map, List.map_map]
        · congr 1
          exact List.map_congr_left fun item hitem => written_enclosed (ih item hitem) _
        · simp
        · simp
    | call function arguments =>
      rw [pieces, Text.written_append, written_listed arguments ih, sql]
      simp

theorem bares_sql (c : Column) : bares c.sql = bares c.tableName ++ bares "." ++ bares c.name := by
  rw [Column.sql, Text.bares_append, Text.bares_append]

end Expr

namespace Text.PieceLaw

variable {S P : List Piece → Prop}

theorem operator (law : PieceLaw S P) {op : BinaryOp}
    (h : ∀ name ∈ op.names, S (Text.bares name)) : P (Text.bares op.sql) := by
  cases op with
  | arithmetic op =>
    cases op with
    | sub => exact law.dash
    | _ => exact law.word (by decide)
  | compare relation => exact law.word (by cases relation <;> decide)
  | custom operator => exact law.separator (h operator (List.mem_singleton_self operator))
  | _ => exact law.word (by decide)

/-- What is kept by putting pieces together the pieces of a tree have, if names keep things apart
and the dash of an opposite may come before its operand. -/
theorem expr (law : PieceLaw S P) {e : Expr} (h : ∀ name ∈ e.names, S (Text.bares name))
    (hneg : ∀ operand, (Expr.unary .neg operand).StandsIn e → P operand.operandPieces →
      P (Text.bares "-" ++ operand.operandPieces)) : P e.pieces := by
  have hcolumn {c : Column} (htable : S (Text.bares c.tableName)) (hname : S (Text.bares c.name)) :
      S (Text.bares c.sql) := by
    rw [Expr.bares_sql]
    exact law.append (law.append htable (law.bares (by decide))) hname
  have hspace : S (Text.bares " ") := law.bares (by decide)
  induction e using Expr.induction_parts with
  | h e ih =>
    have hparts : ∀ part ∈ e.parts, P part.pieces := fun part hpart =>
      ih part hpart (fun name hname => h name (Expr.names_subset_of_mem_parts hpart hname))
        fun operand hoperand => hneg operand (.within hpart hoperand)
    cases e with
    | column c =>
      exact law.separator (hcolumn (h _ (by simp [Expr.names])) (h _ (by simp [Expr.names])))
    | literal v => exact law.value v
    | null => exact law.word (by decide)
    | group items =>
      rw [Expr.pieces, Expr.piecesOfAll_eq_map]
      exact law.listed (List.forall_mem_map.2 hparts)
    | unary op operand =>
      have hoperand : P operand.operandPieces :=
        law.enclosed (hparts operand (by simp [Expr.parts])) operand.isCompound
      cases op with
      | not => exact law.before (law.bares (by decide)) hoperand
      | neg => exact hneg operand .root hoperand
    | binary op left right =>
      have hleft := law.enclosed (hparts left (by simp [Expr.parts])) left.isCompound
      have hright := law.enclosed (hparts right (by simp [Expr.parts])) right.isCompound
      -- A search for a text is written by a pattern, unlike every other operator.
      by_cases hsearch : op = .contains
      · subst hsearch
        have hlike : S (Text.bares " LIKE ") := law.bares (by decide)
        have hbars : S (Text.bares " || ") := law.bares (by decide)
        rw [Expr.pieces]
        exact law.join (law.join (law.join hleft hlike (by decide) (law.literal "%")) hbars
          (by decide) hright) hbars (by decide) (law.literal "%")
      · have hop : P (Text.bares op.sql) :=
          law.operator fun name hname => h name (by simp [Expr.names, hname])
        rw [Expr.pieces]
        · exact law.join (law.join hleft hspace (by decide) hop) hspace (by decide) hright
        · exact hsearch
    | test c t =>
      have hc : S (Text.bares c.sql) :=
        hcolumn (h _ (by simp [Expr.names])) (h _ (by simp [Expr.names]))
      by_cases hfalse : t = .isFalse
      · subst hfalse
        exact law.before (law.bares (by decide)) (law.separator hc)
      · rw [Expr.pieces]
        · exact law.before (law.append hc hspace) (law.word (by cases t <;> decide))
        · exact hfalse
    | clauses op items =>
      cases items with
      | nil => exact law.word (by decide)
      | cons first rest =>
        rw [Expr.pieces, Expr.piecesOfClauses_eq_map]
        · refine law.intercalate (law.bares (by cases op <;> decide)) (by cases op <;> decide) ?_
          exact List.forall_mem_map.2 fun item hitem => law.enclosed (hparts item hitem) _
        · simp
    | call function arguments =>
      rw [Expr.pieces, Expr.piecesOfAll_eq_map]
      exact law.before (h _ (by simp [Expr.names])) (law.listed (List.forall_mem_map.2 hparts))

/-- A property of pieces that all they are put together from have. -/
theorem expr_of_append (law : PieceLaw P P) {e : Expr}
    (h : ∀ name ∈ e.names, P (Text.bares name)) : P e.pieces :=
  law.expr h fun _ _ hoperand => law.before law.dash hoperand

end Text.PieceLaw

/-! ## Reading the SQL back -/

namespace Expr

open Text (IsLiteral)

theorem dashesAtMost_isLiteral : Text.DashesAtMost IsLiteral := by
  intro c _
  simp [IsLiteral, Piece.literal?]

/-- No two literals of a tree touch. -/
theorem literals_apart (e : Expr) : Apart IsLiteral e.pieces := by
  have hbare (text : String) : Without IsLiteral (bares text) :=
    Text.without_bares.2 fun c _ => by simp [IsLiteral, Piece.literal?]
  refine (Text.pieceLaw_apart dashesAtMost_isLiteral).expr (fun name _ => hbare name) ?_
  exact fun operand _ hoperand => .without_append (hbare "-") hoperand

theorem unquoted_pieces {e : Expr} (h : ∀ name ∈ e.names, Text.Unquoted name) :
    .bare '\'' ∉ e.pieces := by
  refine Text.pieceLaw_unquoted.expr_of_append fun name hname hmem => ?_
  obtain ⟨c, hc, heq⟩ := List.mem_map.1 hmem
  cases heq
  exact h name hname hc

/-- By the quoting rule the SQL of an expression is read as its pieces, if no name holds a quote. -/
theorem scan_sql {e : Expr} (h : ∀ name ∈ e.names, Text.Unquoted name) :
    Text.scan none e.sql.toList = some e.pieces := by
  rw [← e.written_pieces]
  exact Text.scan_written (unquoted_pieces h) e.literals_apart

theorem scan_sqlOperand {e : Expr} (h : ∀ name ∈ e.names, Text.Unquoted name) :
    Text.scan none e.sqlOperand.toList = some e.operandPieces := by
  rw [sqlOperand, ← written_enclosed e.written_pieces]
  exact Text.scan_written (Text.pieceLaw_unquoted.enclosed (unquoted_pieces h) _)
    ((Text.pieceLaw_apart dashesAtMost_isLiteral).enclosed e.literals_apart _)

end Expr

end RowFlags
