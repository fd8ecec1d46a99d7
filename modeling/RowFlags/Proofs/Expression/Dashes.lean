import RowFlags.Proofs.Expression.Pieces

/-!
# Dashes in the SQL of an expression

Two dashes outside of literals open a comment in SQL. Dashes are written before negative numbers,
between the operands of a subtraction and before an opposite. What is subtracted follows a space,
and an opposite as an operand stands in parentheses. But a negative number does not, although it
begins with a dash; so two dashes touch exactly where the opposite of a negative number is written
(`Expr.dashes_touch_iff`).
-/

set_option autoImplicit false

namespace RowFlags

open Text (Piece Apart Without bares written)

namespace Text

/-- A dash outside of literals. -/
def dash : Piece := .bare '-'

theorem dashesAtMost_dash : DashesAtMost (· = dash) := by
  rintro c hc heq
  exact hc (Piece.bare.inj heq)

theorem without_dash {text : String} (h : '-' ∉ text.toList) : Without (· = dash) (bares text) :=
  dashesAtMost_dash.without h

/-- Dashes that stand apart do not touch. -/
theorem Apart.not_infix {pieces : List Piece} (h : Apart (· = dash) pieces) :
    ¬ [dash, dash] <:+: pieces := by
  intro hinfix
  have hpair := List.IsChain.infix h hinfix
  exact (List.isChain_cons_cons.1 hpair).1 ⟨rfl, rfl⟩

end Text

open Text (dash without_dash)

namespace Expr

/-- What is written of a part is written in the whole. -/
theorem pieces_infix_of_mem_parts {part e : Expr} (h : part ∈ e.parts) :
    part.pieces <:+: e.pieces := by
  cases e with
  | column c => cases h
  | literal v => cases h
  | null => cases h
  | test c t => cases h
  | group items =>
    rw [pieces, piecesOfAll_eq_map]
    exact Text.infix_listed (List.mem_map_of_mem h)
  | unary op operand =>
    cases List.mem_singleton.1 h
    refine (Text.infix_enclosed part.pieces part.isCompound).trans ?_
    cases op <;> exact (List.suffix_append _ _).isInfix
  | binary op left right =>
    simp only [parts, List.mem_cons, List.not_mem_nil, or_false] at h
    refine (Text.infix_enclosed part.pieces part.isCompound).trans ?_
    by_cases hsearch : op = .contains
    · subst hsearch
      rw [pieces]
      rcases h with rfl | rfl
      · simp only [List.append_assoc]
        exact (List.prefix_append _ _).isInfix
      · rw [List.append_assoc]
        exact List.infix_append _ _ _
    · rw [pieces]
      · rcases h with rfl | rfl
        · simp only [List.append_assoc]
          exact (List.prefix_append _ _).isInfix
        · exact (List.suffix_append _ _).isInfix
      · exact hsearch
  | clauses op items =>
    cases items with
    | nil => cases h
    | cons first rest =>
      rw [pieces, piecesOfClauses_eq_map]
      · refine (Text.infix_enclosed part.pieces part.isClauses).trans (Text.infix_intercalate ?_)
        exact List.mem_map.2 ⟨part, h, rfl⟩
      · simp
  | call function arguments =>
    rw [pieces, piecesOfAll_eq_map]
    exact (Text.infix_listed (List.mem_map_of_mem h)).trans (List.suffix_append _ _).isInfix

theorem pieces_infix_of_standsIn {d e : Expr} (h : d.StandsIn e) : d.pieces <:+: e.pieces := by
  induction h with
  | root => exact List.infix_rfl
  | within hpart _ ih => exact ih.trans (pieces_infix_of_mem_parts hpart)

end Expr

/-! ## What begins with a dash -/

/-- The pieces begin with a text that holds no dash. -/
def Text.BeginsDashless (pieces : List Piece) : Prop :=
  ∃ text back, pieces = bares text ++ back ∧ text ≠ "" ∧ '-' ∉ text.toList

open Text (BeginsDashless)

namespace Text.BeginsDashless

variable {pieces : List Piece}

theorem not_head (h : BeginsDashless pieces) : dash ∉ pieces.head? := by
  obtain ⟨text, back, rfl, hne, hdashless⟩ := h
  intro hmem
  refine (without_dash hdashless).of_head ?_ back dash hmem rfl
  simpa [bares] using hne

theorem parenthesized (pieces : List Piece) : BeginsDashless (parenthesized pieces) :=
  ⟨"(", pieces ++ bares ")", List.append_assoc _ _ _, by decide, by decide⟩

theorem column {c : Column} (htable : '-' ∉ c.tableName.toList) (hname : '-' ∉ c.name.toList)
    (back : List Piece) : BeginsDashless (bares c.sql ++ back) := by
  refine ⟨c.sql, back, rfl, fun hempty => ?_, by simp [Column.sql, htable, hname]⟩
  have hlength := congrArg String.length hempty
  simp [Column.sql] at hlength

end Text.BeginsDashless

/-- Of all values only a negative number begins with a dash. -/
theorem Value.exists_of_head_pieces {v : Value} (h : dash ∈ v.pieces.head?) :
    ∃ n : Int32, n.toInt < 0 ∧ v = .int32 n := by
  cases v with
  | null => cases h
  | boolean b => cases b <;> cases h
  | int32 n =>
    rw [pieces, bares_repr] at h
    split at h
    · next hneg => exact ⟨n, hneg, rfl⟩
    · obtain ⟨c, hc, heq⟩ := List.mem_map.1 (List.mem_of_mem_head? h)
      exact absurd (Piece.bare.inj heq) (ne_of_mem_repr hc (by decide))
  | string s => cases h
  | timestamp t => cases h
  | list items => exact absurd h (BeginsDashless.parenthesized _).not_head

namespace Expr

/-- Of all operands only a negative number begins with a dash. -/
theorem exists_of_head_operandPieces {e : Expr} (hnames : ∀ name ∈ e.names, '-' ∉ name.toList)
    (h : dash ∈ e.operandPieces.head?) : ∃ n : Int32, n.toInt < 0 ∧ e = .literal (.int32 n) := by
  cases e with
  | column c =>
    have hbegins := BeginsDashless.column (hnames c.tableName (by simp [names]))
      (hnames c.name (by simp [names])) []
    rw [List.append_nil] at hbegins
    exact absurd h hbegins.not_head
  | literal v =>
    obtain ⟨n, hneg, rfl⟩ := Value.exists_of_head_pieces h
    exact ⟨n, hneg, rfl⟩
  | null => cases h
  | group items => exact absurd h (BeginsDashless.parenthesized _).not_head
  | unary op operand => exact absurd h (BeginsDashless.parenthesized _).not_head
  | binary op left right => exact absurd h (BeginsDashless.parenthesized _).not_head
  | clauses op items => exact absurd h (BeginsDashless.parenthesized _).not_head
  | test c t =>
    have hbegins (back : List Piece) : BeginsDashless (bares c.sql ++ back) :=
      .column (hnames c.tableName (by simp [names])) (hnames c.name (by simp [names])) back
    cases t with
    | isFalse => cases h
    | _ => exact absurd h (List.append_assoc .. ▸ hbegins _).not_head
  | call function arguments =>
    have hbegins : BeginsDashless (call function arguments).operandPieces := by
      refine ⟨function ++ "(", (bares ", ").intercalate (piecesOfAll arguments) ++ bares ")", ?_,
        by simp, by simp [hnames function (by simp [names])]⟩
      show bares function ++ (bares "(" ++ _ ++ bares ")") = _
      rw [Text.bares_append, List.append_assoc, List.append_assoc]
    exact absurd h hbegins.not_head

/-- Two dashes touch outside of the literals of a tree exactly where the opposite of a negative
number is written, if no name holds a dash. -/
theorem dashes_touch_iff {e : Expr} (h : ∀ name ∈ e.names, '-' ∉ name.toList) :
    [dash, dash] <:+: e.pieces ↔
      ∃ n : Int32, n.toInt < 0 ∧ (unary .neg (.literal (.int32 n))).StandsIn e := by
  constructor
  · intro hinfix
    by_contra hnone
    refine Apart.not_infix ((Text.pieceLaw_apart Text.dashesAtMost_dash).expr ?_ ?_) hinfix
    · exact fun name hname => without_dash (h name hname)
    · intro operand hoperand hapart
      refine .append_of_head (.singleton _) hapart ?_
      rintro p hp rfl
      have hnames : ∀ name ∈ operand.names, '-' ∉ name.toList := fun name hname =>
        h name (names_subset_of_standsIn hoperand hname)
      obtain ⟨n, hneg, rfl⟩ := exists_of_head_operandPieces hnames hp
      exact hnone ⟨n, hneg, hoperand⟩
  · rintro ⟨n, hneg, hn⟩
    refine List.IsInfix.trans ?_ (pieces_infix_of_standsIn hn)
    have hpieces : (unary .neg (.literal (.int32 n))).pieces =
        [dash, dash] ++ bares n.toInt.natAbs.repr := by
      show bares "-" ++ bares n.toInt.repr = _
      rw [Value.bares_repr, if_pos hneg]
      rfl
    rw [hpieces]
    exact (List.prefix_append _ _).isInfix

/-- The SQL of an expression is written from its pieces, and by the quoting rule it is read as them
if no name holds a quote. If no name holds a dash, two dashes touch outside of the literals exactly
where the opposite of a negative number is written, however deep it stands. -/
theorem dashes_sql {e : Expr} (h : ∀ name ∈ e.names, '-' ∉ name.toList) :
    written e.pieces = e.sql.toList ∧
      ((∀ name ∈ e.names, '\'' ∉ name.toList) → Text.scan none e.sql.toList = some e.pieces) ∧
      ([dash, dash] <:+: e.pieces ↔
        ∃ n : Int32, n.toInt < 0 ∧ (unary .neg (.literal (.int32 n))).StandsIn e) :=
  ⟨e.written_pieces, scan_sql, dashes_touch_iff h⟩

/-- A negative number subtracted from an opposite, beside a text of dashes. -/
def sampleDifference : Expr :=
  .binary .concat
    (.binary (.arithmetic .sub) (.unary .neg (.column ⟨⟨1⟩, 0, "t", "num", .int32⟩))
      (.literal (.int32 (-2))))
    (.literal (.string "--"))

theorem dashes_sql_sampleDifference :
    sampleDifference.sql = "((-t.num) - -2) || '--'" ∧
      Text.scan none sampleDifference.sql.toList = some sampleDifference.pieces ∧
      ¬ [dash, dash] <:+: sampleDifference.pieces := by
  obtain ⟨-, hscan, htouch⟩ := dashes_sql (e := sampleDifference) (by decide)
  refine ⟨by decide +kernel, hscan (by decide), fun hinfix => ?_⟩
  obtain ⟨n, -, hn⟩ := htouch.1 hinfix
  have hvisited := (mem_visited_iff (by decide)).2 hn
  simp [sampleDifference, visited] at hvisited

/-- The opposite of a negative number. -/
def sampleOpposite : Expr := .unary .neg (.literal (.int32 (-5)))

/-- The SQL of an expression can hold two dashes next to each other outside of literals. -/
theorem sampleOpposite_opens_comment :
    sampleOpposite.sql = "--5" ∧
      ¬ ∀ e : Expr, (∀ name ∈ e.names, '-' ∉ name.toList) →
        ∀ pieces, Text.scan none e.sql.toList = some pieces → ¬ [dash, dash] <:+: pieces := by
  refine ⟨by decide +kernel, fun h => ?_⟩
  refine h sampleOpposite (by decide) [dash, dash, .bare '5'] (by decide +kernel) ?_
  exact (List.prefix_append [dash, dash] _).isInfix

end Expr

end RowFlags
