import RowFlags.Proofs.Expression.Pieces
import RowFlags.Proofs.Text.Words

/-!
# Operands in the SQL of an expression

Read with the precedence of SQL, a text falls apart at the spaces that stand outside of literals and
parentheses. Operators and clause lists stand in parentheses as operands, and all else but one kind
of node holds no such space. Tests of a column hold some and stand there bare, so an operator beside
a test takes a part of it for its operand (`Expr.words_sql`).
-/

set_option autoImplicit false

namespace RowFlags

open Text (Piece Unbroken Solid Closed Cuts bares grow textOf words?)

/-! ## The words of a node -/

/-- The words that an operator between two operands is written by. -/
def BinaryOp.words : BinaryOp → List String
  | .isNot => ["IS", "NOT"]
  | .notMember => ["NOT", "IN"]
  | op => [op.sql]

/-- The words that a test is written by, behind its column. -/
def TruthTest.words : TruthTest → List String
  | .isNull => ["IS", "NULL"]
  | .isNotNull => ["IS", "NOT", "NULL"]
  | .isTrue => ["IS", "true"]
  | .isFalse => ["IS", "false"]

namespace Expr

/-- The operands of an operator. -/
def operands : Expr → List Expr
  | .unary _ operand => [operand]
  | .binary _ left right => [left, right]
  | _ => []

/-- Whether the expression is a test of a column. -/
def isTest : Expr → Bool
  | .test _ _ => true
  | _ => false

/-- The words of an expression as an operand of another: one, but for tests. -/
def operandWords : Expr → List String
  | .test c .isFalse => ["NOT", c.sql]
  | .test c t => c.sql :: t.words
  | e => [e.sqlOperand]

/-- The words of an operator with its operands. -/
def words : Expr → List String
  | .unary .not operand => "NOT" :: operand.operandWords
  | .unary .neg operand => grow "-" operand.operandWords
  | .binary .contains left right =>
    left.operandWords ++ ["LIKE"] ++ ["'%'"] ++ ["||"] ++ right.operandWords ++ ["||"] ++ ["'%'"]
  | .binary op left right => left.operandWords ++ op.words ++ right.operandWords
  | e => [e.sql]

theorem operandWords_ne_nil (e : Expr) : e.operandWords ≠ [] := by
  unfold operandWords
  split <;> simp

theorem operandWords_eq_singleton_iff {e : Expr} :
    e.operandWords = [e.sqlOperand] ↔ e.isTest = false := by
  cases e with
  | test c t => cases t <;> simp [operandWords, TruthTest.words, isTest]
  | _ => simp [operandWords, isTest]

/-- The operands are parts of the node. -/
theorem mem_parts_of_mem_operands {x e : Expr} (h : x ∈ e.operands) : x ∈ e.parts := by
  cases e with
  | unary op operand => exact h
  | binary op left right => exact h
  | _ => cases h

end Expr

/-! ## Cutting a node -/

theorem Text.Unbroken.column {c : Column} (htable : Unbroken c.tableName)
    (hname : Unbroken c.name) : Unbroken c.sql :=
  (htable.append (by decide)).append hname

theorem BinaryOp.cuts_sql {op : BinaryOp} (h : ∀ name ∈ op.names, Unbroken name) :
    Cuts (bares op.sql) op.words := by
  cases op with
  | arithmetic op => exact .word (by cases op <;> decide)
  | compare relation => exact .word (by cases relation <;> decide)
  | custom operator => exact .word (h operator (List.mem_singleton_self operator))
  | isNot => exact (Cuts.word (s := "IS") (by decide)).join (.word (s := "NOT") (by decide))
  | notMember => exact (Cuts.word (s := "NOT") (by decide)).join (.word (s := "IN") (by decide))
  | _ => exact .word (by decide)

theorem TruthTest.cuts_sql (t : TruthTest) : Cuts (bares t.sql) t.words := by
  have his : Cuts (bares "IS") ["IS"] := .word (by decide)
  cases t with
  | isNull => exact his.join (.word (s := "NULL") (by decide))
  | isNotNull =>
    exact (his.join (.word (s := "NOT") (by decide))).join (.word (s := "NULL") (by decide))
  | isTrue => exact his.join (.word (s := "true") (by decide))
  | isFalse => exact his.join (.word (s := "false") (by decide))

theorem Value.solid_pieces (v : Value) : Solid v.pieces := by
  have hdigits (m : Nat) : Unbroken m.repr := fun _ h =>
    ⟨ne_of_mem_repr h (by decide), ne_of_mem_repr h (by decide), ne_of_mem_repr h (by decide),
      ne_of_mem_repr h (by decide)⟩
  cases v with
  | null => exact Unbroken.solid (by decide)
  | boolean b => exact Unbroken.solid (by cases b <;> decide)
  | int32 n =>
    rw [pieces, bares_repr]
    refine Solid.append ?_ (hdigits _).solid
    split
    · exact Unbroken.solid (by decide)
    · exact .nil
  | string s => exact .literal s
  | timestamp t => exact .literal t.spaced
  | list items =>
    rw [pieces, piecesOfAll_eq_map]
    exact .of_closed (Text.pieceLaw_closed.commas
      (List.forall_mem_map.2 (Text.pieceLaw_closed.values items)))

namespace Expr

/-- A tree matches its parentheses. -/
theorem closed_pieces {e : Expr} (h : ∀ name ∈ e.names, Unbroken name) : Closed e.pieces :=
  Text.pieceLaw_closed.expr_of_append fun name hname => (h name hname).solid.closed

theorem closed_items {items : List Expr} (h : ∀ name ∈ namesOfAll items, Unbroken name) :
    Closed ((bares ", ").intercalate (piecesOfAll items)) := by
  rw [piecesOfAll_eq_map]
  refine Text.pieceLaw_closed.commas (List.forall_mem_map.2 fun item hitem => ?_)
  refine closed_pieces fun name hname => h name ?_
  rw [namesOfAll_eq_flatMap]
  exact List.mem_flatMap.2 ⟨item, hitem, hname⟩

/-- Whatever is no test is swallowed whole as an operand. -/
theorem solid_operandPieces {e : Expr} (h : ∀ name ∈ e.names, Unbroken name)
    (htest : e.isTest = false) : Solid e.operandPieces := by
  cases e with
  | column c =>
    exact (Unbroken.column (h _ (by simp [names])) (h _ (by simp [names]))).solid
  | literal v => exact v.solid_pieces
  | null => exact Unbroken.solid (by decide)
  | group items => exact .of_closed (closed_items h)
  | unary op operand => exact .of_closed (closed_pieces h)
  | binary op left right => exact .of_closed (closed_pieces h)
  | test c t => cases htest
  | clauses op items => exact .of_closed (closed_pieces h)
  | call function arguments =>
    have hfunction : Unbroken function := h function (by simp [names])
    exact hfunction.solid.append (.of_closed (closed_items fun name hname =>
      h name (by simp [names, hname])))

theorem textOf_operandPieces (e : Expr) : textOf e.operandPieces = e.sqlOperand := by
  rw [textOf, operandPieces, written_enclosed e.written_pieces, String.ofList_toList, sqlOperand]

/-- An operand is cut into its words, -/
theorem cuts_operandPieces {e : Expr} (h : ∀ name ∈ e.names, Unbroken name) :
    Cuts e.operandPieces e.operandWords := by
  by_cases htest : e.isTest = false
  · rw [operandWords_eq_singleton_iff.2 htest, ← textOf_operandPieces]
    exact .solid (solid_operandPieces h htest)
  · cases e with
    | test c t =>
      have hc : Cuts (bares c.sql) [c.sql] :=
        .word (.column (h _ (by simp [names])) (h _ (by simp [names])))
      cases t with
      | isFalse => exact (Cuts.word (s := "NOT") (by decide)).join hc
      | _ => exact hc.join (TruthTest.cuts_sql _)
    | _ => exact absurd rfl htest

theorem words?_sqlOperand {e : Expr} (h : ∀ name ∈ e.names, Unbroken name) :
    words? e.sqlOperand = some e.operandWords := by
  rw [words?, scan_sqlOperand fun name hname => (h name hname).unquoted, Option.bind_some]
  exact (cuts_operandPieces h).whole

/-- and an operator into its own words and those of its operands. -/
theorem cuts_pieces {e : Expr} (h : ∀ name ∈ e.names, Unbroken name) (hne : e.operands ≠ []) :
    Cuts e.pieces e.words := by
  have hparts : ∀ part ∈ e.parts, Cuts part.operandPieces part.operandWords := fun part hpart =>
    cuts_operandPieces fun name hname => h name (names_subset_of_mem_parts hpart hname)
  cases e with
  | unary op operand =>
    have hoperand := hparts operand (by simp [parts])
    cases op with
    | not => exact (Cuts.word (s := "NOT") (by decide)).join hoperand
    | neg =>
      -- No space follows the dash, so the first word of the operand goes on with it.
      have hdash : Unbroken "-" := by decide
      have hglued := hoperand.glue hdash.solid operand.operandWords_ne_nil
      rwa [Text.textOf_bares] at hglued
  | binary op left right =>
    have hleft := hparts left (by simp [parts])
    have hright := hparts right (by simp [parts])
    by_cases hsearch : op = .contains
    · subst hsearch
      have hwildcard : Cuts [.literal "%"] ["'%'"] := .solid (.literal "%")
      have hlike : Cuts (bares "LIKE") ["LIKE"] := .word (by decide)
      have hbars : Cuts (bares "||") ["||"] := .word (by decide)
      have hjoined :=
        (((((hleft.join hlike).join hwildcard).join hbars).join hright).join hbars).join hwildcard
      have hspaced (s : String) : bares (" " ++ s ++ " ") = bares " " ++ bares s ++ bares " " := by
        rw [Text.bares_append, Text.bares_append]
      rw [pieces, words, show " LIKE " = " " ++ "LIKE" ++ " " from rfl,
        show " || " = " " ++ "||" ++ " " from rfl, hspaced, hspaced]
      simpa only [List.append_assoc, operandPieces] using hjoined
    · have hop : Cuts (bares op.sql) op.words :=
        BinaryOp.cuts_sql fun name hname => h name (by simp [names, hname])
      rw [pieces, words]
      · exact (hleft.join hop).join hright
      · exact hsearch
      · exact hsearch
  | _ => exact absurd rfl hne

theorem words?_sql {e : Expr} (h : ∀ name ∈ e.names, Unbroken name) (hne : e.operands ≠ []) :
    words? e.sql = some e.words := by
  rw [words?, scan_sql fun name hname => (h name hname).unquoted, Option.bind_some]
  exact (cuts_pieces h hne).whole

/-- If no name holds a space, a quote or a parenthesis, an operand anywhere in a tree is one word,
without a space outside of literals and parentheses, exactly if it is no test of a column; a test is
cut into the words it is written by. So the SQL of an operator is cut into the words of the operator
and its operands, one each if none of them is a test. -/
theorem words_sql {d e : Expr} (h : ∀ name ∈ e.names, Unbroken name) (hd : d.StandsIn e) :
    (∀ x ∈ d.operands, words? x.sqlOperand = some x.operandWords ∧
      (words? x.sqlOperand = some [x.sqlOperand] ↔ x.isTest = false)) ∧
    (d.operands ≠ [] → words? d.sql = some d.words) := by
  have hnames : ∀ name ∈ d.names, Unbroken name := fun name hname =>
    h name (names_subset_of_standsIn hd hname)
  refine ⟨fun x hx => ?_, words?_sql hnames⟩
  have hwords : words? x.sqlOperand = some x.operandWords := words?_sqlOperand fun name hname =>
    hnames name (names_subset_of_mem_parts (mem_parts_of_mem_operands hx) hname)
  rw [hwords]
  refine ⟨rfl, ?_⟩
  rw [Option.some.injEq]
  exact operandWords_eq_singleton_iff

/-- The test that a column is false. -/
def sampleUnset : Expr := .test ⟨⟨1⟩, 0, "t", "flag", .boolean⟩ .isFalse

/-- The test compared with a text, which stands in parentheses and holds quotes, spaces and
parentheses of its own. -/
def sampleCompound : Expr :=
  .binary .eq sampleUnset
    (.binary .concat (.literal (.string "it's (")) (.call "lower" [.literal (.string "A B")]))

/-- The comparison is cut into the words of the test, the sign and one word for the operator. -/
theorem words_sql_sampleCompound :
    words? sampleUnset.sqlOperand = some ["NOT", "t.flag"] ∧
      words? sampleCompound.sql =
        some ["NOT", "t.flag", "=", "('it''s (' || lower('A B'))"] := by
  obtain ⟨hoperands, hwhole⟩ := words_sql (d := sampleCompound) (by decide) .root
  refine ⟨?_, (hwhole (by decide)).trans (by decide +kernel)⟩
  exact (hoperands sampleUnset List.mem_cons_self).1

/-- An operand can hold a space outside of literals and parentheses: beside the test that a column
is false, equality takes the column alone for its operand. -/
theorem sampleUnset_falls_apart :
    (binary .eq sampleUnset (.literal (.boolean true))).sql = "NOT t.flag = true" ∧
      ¬ ∀ d e : Expr, (∀ name ∈ e.names, Unbroken name) → d.StandsIn e → ∀ x ∈ d.operands,
        words? x.sqlOperand = some [x.sqlOperand] := by
  refine ⟨by decide +kernel, fun h => ?_⟩
  have hone := h (binary .eq sampleUnset (.literal (.boolean true))) _ (by decide) .root
    sampleUnset List.mem_cons_self
  revert hone
  decide +kernel

end Expr

end RowFlags
