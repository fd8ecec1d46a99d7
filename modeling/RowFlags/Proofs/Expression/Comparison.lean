import RowFlags.Proofs.Expression.Membership
import RowFlags.Proofs.Value.Order

/-!
# Comparing expressions

Equality is that of the values, NULL included, and the four comparisons by order go by how the
values compare. On values of one type the two fit together: what is neither before nor after another
value equals it. So the comparisons of two expressions that have values of one type are those of a
total order (`Expr.comparison_laws`). Values of two types are not equal and are refused by every
comparison by order; NULL makes it NULL, and nothing else does.
-/

set_option autoImplicit false

namespace RowFlags

namespace BinaryFunction

variable {relation : Relation} {v w : Value}

theorem apply_compare_of_null (h : v = .null ∨ w = .null) :
    (compare relation).apply v w = .ok .null := by
  rcases h with rfl | rfl
  · rfl
  · cases v <;> rfl

/-- Values that compare are judged by how they do. -/
theorem apply_compare_of_order? {o : Ordering} (h : v.order? w = some o) :
    (compare relation).apply v w = .ok (.boolean (relation.holds o)) := by
  cases v <;> cases w <;> cases h <;> rfl

/-- Values that do not compare are refused by their types, unless one is NULL. -/
theorem apply_compare_of_order?_eq_none (hv : v ≠ .null) (hw : w ≠ .null)
    (h : v.order? w = none) :
    (compare relation).apply v w = .error ((compare relation).refuse v w) := by
  have hpresent : ¬ (v.isNull || w.isNull) = true := by simp [hv, hw]
  have happly : (compare relation).apply v w =
      if v.isNull || w.isNull then .ok .null else (compare relation).applyPresent v w := rfl
  rw [happly, if_neg hpresent]
  simp only [applyPresent, h]

/-- A comparison of any two values is NULL, true or false, or refused. -/
theorem apply_compare_cases (relation : Relation) (v w : Value) :
    ((v = .null ∨ w = .null) ∧ (compare relation).apply v w = .ok .null) ∨
    (∃ o, v.order? w = some o ∧
      (compare relation).apply v w = .ok (.boolean (relation.holds o))) ∨
    (compare relation).apply v w = .error ((compare relation).refuse v w) := by
  by_cases hnull : v = .null ∨ w = .null
  · exact .inl ⟨hnull, apply_compare_of_null hnull⟩
  · obtain ⟨hv, hw⟩ := not_or.1 hnull
    cases horder : v.order? w with
    | some o => exact .inr (.inl ⟨o, rfl, apply_compare_of_order? horder⟩)
    | none => exact .inr (.inr (apply_compare_of_order?_eq_none hv hw horder))

theorem apply_compare_eq_null_iff :
    (compare relation).apply v w = .ok .null ↔ v = .null ∨ w = .null := by
  refine ⟨fun h => ?_, apply_compare_of_null⟩
  rcases apply_compare_cases relation v w with ⟨hnull, -⟩ | ⟨o, -, happly⟩ | happly
  · exact hnull
  · cases happly.symm.trans h
  · cases happly.symm.trans h

/-- One value is less than another exactly if it precedes it. -/
theorem apply_lt_eq_true_iff :
    (compare .lt).apply v w = .ok (.boolean true) ↔ v.Precedes w := by
  rw [← Value.order?_eq_lt_iff]
  refine ⟨fun h => ?_, apply_compare_of_order?⟩
  rcases apply_compare_cases .lt v w with ⟨-, happly⟩ | ⟨o, ho, happly⟩ | happly
  · cases happly.symm.trans h
  · have hless := Value.boolean.inj (Except.ok.inj (happly.symm.trans h))
    rw [ho, Ordering.isLT_iff_eq_lt.1 hless]
  · cases happly.symm.trans h

end BinaryFunction

namespace Expr

section Laws

variable {ε : Type} (raise : EvalError → ε) (lookup : Column → Except ε Value)

/-- The operator between the expressions gives true. -/
def Holds (op : BinaryOp) (left right : Expr) : Prop :=
  Gives raise lookup (.binary op left right) (.boolean true)

/-- The expression compiles, and its evaluation fails for this cause. -/
def FailsFor (e : Expr) (cause : EvalError) : Prop :=
  ∃ p, Program.ofExpr e = .ok p ∧ p.evaluate raise lookup = .error (raise cause)

/-- The comparisons of two expressions are those of a total order. -/
structure Ordered (x y : Expr) : Prop where
  /-- Each comparison by order is true or false, -/
  answers (relation : Relation) : ∃ truth,
    Gives raise lookup (.binary (.compare relation) x y) (.boolean truth)
  /-- and so is equality; inequality is its opposite. -/
  equates : ∃ truth, Gives raise lookup (.binary .eq x y) (.boolean truth) ∧
    Gives raise lookup (.binary .ne x y) (.boolean !truth)
  /-- One is less than the other or they are equal, and only one of these. -/
  trichotomy :
    Holds raise lookup (.compare .lt) x y ∧ ¬ Holds raise lookup .eq x y ∧
      ¬ Holds raise lookup (.compare .lt) y x ∨
    ¬ Holds raise lookup (.compare .lt) x y ∧ Holds raise lookup .eq x y ∧
      ¬ Holds raise lookup (.compare .lt) y x ∨
    ¬ Holds raise lookup (.compare .lt) x y ∧ ¬ Holds raise lookup .eq x y ∧
      Holds raise lookup (.compare .lt) y x
  le_iff : Holds raise lookup (.compare .le) x y ↔ ¬ Holds raise lookup (.compare .lt) y x
  gt_iff : Holds raise lookup (.compare .gt) x y ↔ Holds raise lookup (.compare .lt) y x
  ge_iff : Holds raise lookup (.compare .ge) x y ↔ Holds raise lookup (.compare .le) y x

variable {raise lookup} {x y z : Expr} {a b c : Value}

/-- What an operator gives for operands that have values is what it computes of these. -/
theorem gives_binary_iff {op : BinaryOp} {f : BinaryFunction} (hf : functionOf op = .ok f)
    (hx : Gives raise lookup x a) (hy : Gives raise lookup y b) {v : Value} :
    Gives raise lookup (.binary op x y) v ↔ f.apply a b = .ok v := by
  rw [← apply_of_functionOf hf]
  refine ⟨fun h => ?_, hx.binary hf hy⟩
  obtain ⟨p, hp, hvalue⟩ := h
  obtain ⟨q, hq, hevaluate⟩ := exists_evaluate_binary hf hx hy
  cases hp.symm.trans hq
  exact Outcome.mapError_eq_ok_iff.1 (hevaluate.symm.trans hvalue)

theorem failsFor_binary {op : BinaryOp} {f : BinaryFunction} (hf : functionOf op = .ok f)
    (hx : Gives raise lookup x a) (hy : Gives raise lookup y b) {cause : EvalError}
    (h : f.apply a b = .error cause) : FailsFor raise lookup (.binary op x y) cause := by
  obtain ⟨p, hp, hevaluate⟩ := exists_evaluate_binary hf hx hy
  rw [apply_of_functionOf hf, h] at hevaluate
  exact ⟨p, hp, hevaluate⟩

theorem holds_lt_iff (hx : Gives raise lookup x a) (hy : Gives raise lookup y b) :
    Holds raise lookup (.compare .lt) x y ↔ a.Precedes b :=
  (gives_binary_iff rfl hx hy).trans BinaryFunction.apply_lt_eq_true_iff

/-- Of values that compare, a comparison is true if it holds of how they do. -/
theorem holds_compare_iff (hx : Gives raise lookup x a) (hy : Gives raise lookup y b)
    {o : Ordering} (h : a.order? b = some o) (relation : Relation) :
    Holds raise lookup (.compare relation) x y ↔ relation.holds o = true := by
  rw [Holds, gives_binary_iff rfl hx hy, BinaryFunction.apply_compare_of_order? h,
    Except.ok.injEq, Value.boolean.injEq]

/-- Of values of one type, all comparisons are read off how they compare. -/
theorem ordered_of_order? (hx : Gives raise lookup x a) (hy : Gives raise lookup y b)
    {o : Ordering} (h : a.order? b = some o) : Ordered raise lookup x y := by
  have hswap : b.order? a = some o.swap := by rw [Value.order?_swap a b, h]; rfl
  have hforth := holds_compare_iff hx hy h
  have hback := holds_compare_iff hy hx hswap
  have heq : Holds raise lookup .eq x y ↔ o = .eq :=
    (gives_eq_iff hx hy).trans (Value.eq_iff_of_order? h).symm
  constructor
  case answers =>
    intro relation
    exact ⟨_, hx.binary rfl hy (BinaryFunction.apply_compare_of_order? h)⟩
  case equates =>
    obtain ⟨hequal, hunequal⟩ := gives_eq hx hy
    rw [decide_not] at hunequal
    exact ⟨_, hequal, hunequal⟩
  -- the other laws hold of any ordering and its opposite
  all_goals
    simp only [hforth, hback, heq]
    cases o <;> decide

/-- Values of two types are refused by every comparison by order, and are not equal. -/
theorem apart_of_types (hx : Gives raise lookup x a) (hy : Gives raise lookup y b)
    (ha : a ≠ .null) (hb : b ≠ .null) (htypes : a.columnType? ≠ b.columnType?) :
    (∀ relation, FailsFor raise lookup (.binary (.compare relation) x y)
      (.operandTypes (.binary (.compare relation)) a.columnType? b.columnType?)) ∧
    Gives raise lookup (.binary .eq x y) (.boolean false) ∧
    Gives raise lookup (.binary .ne x y) (.boolean true) := by
  have hnone : a.order? b = none := by
    rw [Option.eq_none_iff_forall_ne_some]
    intro o ho
    obtain ⟨t, hat, hbt⟩ := Value.exists_order?_iff.1 ⟨o, ho⟩
    exact htypes (hat.trans hbt.symm)
  have hne : a ≠ b := fun heq => htypes (congrArg Value.columnType? heq)
  obtain ⟨hequal, hunequal⟩ := gives_eq hx hy
  rw [decide_eq_false hne] at hequal
  rw [decide_eq_true hne] at hunequal
  refine ⟨fun relation => ?_, hequal, hunequal⟩
  exact failsFor_binary rfl hx hy (BinaryFunction.apply_compare_of_order?_eq_none ha hb hnone)

/-- Comparing expressions compares their values. Those of one type are in a total order, and the six
comparisons agree on it: nothing is refused, and exactly one of less, equal and greater is true. One
is less than another as its type has it, texts by their bytes and instants by their seconds and
nanoseconds, and that is transitive. Values of two types, neither of them NULL, are refused by the
comparisons by order and are not equal; and these comparisons are NULL exactly if an operand is. -/
theorem comparison_laws (hx : Gives raise lookup x a) (hy : Gives raise lookup y b)
    (hz : Gives raise lookup z c) :
    (∀ t, a.columnType? = some t → b.columnType? = some t → Ordered raise lookup x y) ∧
    (Holds raise lookup (.compare .lt) x y ↔ a.Precedes b) ∧
    (Holds raise lookup .eq x y ↔ a = b) ∧
    (Holds raise lookup (.compare .lt) x y → Holds raise lookup (.compare .lt) y z →
      Holds raise lookup (.compare .lt) x z) ∧
    (a ≠ .null → b ≠ .null → a.columnType? ≠ b.columnType? →
      (∀ relation, FailsFor raise lookup (.binary (.compare relation) x y)
        (.operandTypes (.binary (.compare relation)) a.columnType? b.columnType?)) ∧
      Gives raise lookup (.binary .eq x y) (.boolean false) ∧
      Gives raise lookup (.binary .ne x y) (.boolean true)) ∧
    ∀ relation, Gives raise lookup (.binary (.compare relation) x y) .null ↔
      a = .null ∨ b = .null := by
  refine ⟨?_, holds_lt_iff hx hy, gives_eq_iff hx hy, ?_, apart_of_types hx hy, ?_⟩
  · intro t ha hb
    obtain ⟨o, ho⟩ := Value.exists_order?_iff.2 ⟨t, ha, hb⟩
    exact ordered_of_order? hx hy ho
  · rw [holds_lt_iff hx hy, holds_lt_iff hy hz, holds_lt_iff hx hz]
    exact Value.Precedes.trans
  · intro relation
    exact (gives_binary_iff rfl hx hy).trans BinaryFunction.apply_compare_eq_null_iff

end Laws

/-- Half a second into a leap second after second 7 of 1970. -/
def sampleLeap : Instant := ⟨7, 1500000000, by decide⟩

/-- The start of the next second. -/
def sampleNext : Instant := ⟨8, 0, by decide⟩

/-- A leap second comes before the second that follows, whose nanosecond count is the smaller one,
and so before every later time. The byte order of texts is that of their characters, also beyond the
first 65536. A number is not compared with its digits, though it is found not to equal them; and
beside NULL the comparison is NULL, even that of a list. -/
theorem comparison_laws_sampleLeap :
    (sampleNext.nanoseconds < sampleLeap.nanoseconds ∧
      Holds id (Program.sampleRow 0) (.compare .lt) (.literal (.timestamp sampleLeap))
        (.literal (.timestamp sampleNext)) ∧
      ¬ Holds id (Program.sampleRow 0) (.compare .le) (.literal (.timestamp sampleNext))
        (.literal (.timestamp sampleLeap))) ∧
    Holds id (Program.sampleRow 0) (.compare .lt) (.literal (.timestamp sampleLeap))
      (.literal (.timestamp ⟨8, 1, by decide⟩)) ∧
    Holds id (Program.sampleRow 0) (.compare .lt) (.literal (.string "\uFFFD"))
      (.literal (.string "𐀀")) ∧
    FailsFor id (Program.sampleRow 0)
      (.binary (.compare .le) (.column (Program.sampleColumn 0 .int32)) (.literal (.string "7")))
      (.operandTypes (.binary (.compare .le)) (some .int32) (some .varchar)) ∧
    Gives id (Program.sampleRow 0)
      (.binary .ne (.column (Program.sampleColumn 0 .int32)) (.literal (.string "7")))
      (.boolean true) ∧
    Gives id (Program.sampleRow 0) (.binary (.compare .gt) (.literal (.list [.int32 7])) .null)
      .null := by
  have hgives (v : Value) : Gives id (Program.sampleRow 0) (.literal v) v := gives_literal v
  have hnumber : Gives id (Program.sampleRow 0) (.column (Program.sampleColumn 0 .int32))
      (.int32 7) := ⟨_, rfl, rfl⟩
  have hnull : Gives id (Program.sampleRow 0) .null .null := ⟨_, rfl, rfl⟩
  obtain ⟨-, hleap, -, htrans, -⟩ := comparison_laws (hgives (.timestamp sampleLeap))
    (hgives (.timestamp sampleNext)) (hgives (.timestamp ⟨8, 1, by decide⟩))
  obtain ⟨hordered, -⟩ := comparison_laws (hgives (.timestamp sampleNext))
    (hgives (.timestamp sampleLeap)) hnull
  obtain ⟨-, hlater, -⟩ := comparison_laws (hgives (.timestamp sampleNext))
    (hgives (.timestamp ⟨8, 1, by decide⟩)) hnull
  obtain ⟨-, htext, -⟩ := comparison_laws (hgives (.string "\uFFFD")) (hgives (.string "𐀀")) hnull
  obtain ⟨-, -, -, -, happart, -⟩ := comparison_laws hnumber (hgives (.string "7")) hnull
  obtain ⟨-, -, -, -, -, hunknown⟩ := comparison_laws (hgives (.list [.int32 7])) hnull hnull
  have hless := hleap.2 (.timestamp (by decide))
  obtain ⟨hrefused, -, hunequal⟩ := happart (by decide) (by decide) (by decide)
  refine ⟨⟨by decide, hless, ?_⟩, ?_, ?_, hrefused .le, hunequal, (hunknown .gt).2 (.inr rfl)⟩
  · rw [(hordered .timestamp rfl rfl).le_iff]
    exact fun hnot => hnot hless
  · exact htrans hless (hlater.2 (.timestamp (by decide)))
  · exact htext.2 (.string (by decide))

end Expr

end RowFlags
