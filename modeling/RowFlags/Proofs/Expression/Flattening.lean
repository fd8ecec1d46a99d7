import RowFlags.Proofs.Expression.Conjoining
import RowFlags.Proofs.Expression.Truths

/-!
# Dissolved lists keep their truth

How expressions are grouped under a conjunction decides how their list is computed: two clauses by
the three-valued function, any other number by what they count as, none at all as true. So the same
clauses may come to NULL in one grouping and to false in another. What they count as is the same
(`conjoin_keeps_truth`), except that a disjunction without clauses, which is true, is lost when it
is dissolved.
-/

set_option autoImplicit false

namespace RowFlags.Expr

variable {ε : Type} (raise : EvalError → ε) (lookup : Column → Except ε Value)

/-- The expression compiles, and its program gives the value, which is a truth. -/
def GivesTruth (e : Expr) (v : Value) : Prop :=
  ∃ p, Program.ofExpr e = .ok p ∧ p.evaluate raise lookup = .ok v ∧
    (v = .null ∨ ∃ b, v = .boolean b)

variable {raise lookup}

theorem tells_iff {e : Expr} {truth : Bool} :
    Tells raise lookup e truth ↔ ∃ v, GivesTruth raise lookup e v ∧ v.truthy = truth := by
  constructor
  · rintro ⟨hcompile, v, hv, htruth, htruthy⟩
    obtain ⟨p, hp, hvalue⟩ := Program.exists_evaluate_iff.2 ⟨hcompile, hv⟩
    exact ⟨v, ⟨p, hp, hvalue, htruth⟩, htruthy⟩
  · rintro ⟨v, ⟨p, hp, hvalue, htruth⟩, htruthy⟩
    obtain ⟨hcompile, hv⟩ := Program.exists_evaluate_iff.1 ⟨p, hp, hvalue⟩
    exact ⟨hcompile, v, hv, htruth, htruthy⟩

/-- What goes with a list in two parts is in two parts. -/
theorem exists_of_forall₂_append {α β : Type} {R : α → β → Prop} {front back : List α}
    {all : List β} (h : List.Forall₂ R (front ++ back) all) :
    ∃ first last, all = first ++ last ∧ List.Forall₂ R front first ∧ List.Forall₂ R back last :=
  ⟨_, _, (List.take_append_drop front.length all).symm,
    (List.forall₂_take_append all front back h.flip).flip,
    (List.forall₂_drop_append all front back h.flip).flip⟩

section Members

variable {op : Conjunction}

/-- An expression tells what its clauses come to. -/
theorem HasClauses.tells {e : Expr} {clauses : List Expr} {truths : List Bool}
    (h : HasClauses op e clauses) (hclauses : List.Forall₂ (Tells raise lookup) clauses truths)
    (hne : op = .or → clauses ≠ []) : Tells raise lookup e (op.holds truths) := by
  cases h with
  | list => exact tells_clauses hclauses hne
  | single =>
    cases hclauses with
    | cons hself hrest =>
      cases hrest
      rwa [op.holds_singleton]

/-- Only the empty list has no clauses. -/
theorem HasClauses.ne_nil {e : Expr} {clauses : List Expr} (h : HasClauses op e clauses)
    (hne : e ≠ .clauses op []) : clauses ≠ [] := by
  cases h with
  | list =>
    rintro rfl
    exact hne rfl
  | single => exact List.cons_ne_nil _ _

/-- What the clauses of all expressions come to is what the expressions come to, each of them in the
place of its own clauses. -/
theorem exists_truths_of_members {items : List Expr} {truths : List Bool}
    (h : List.Forall₂ (Tells raise lookup) (items.flatMap (clausesUnder op)) truths)
    (hne : op = .or → ∀ item ∈ items, item ≠ .clauses .or []) :
    ∃ members, List.Forall₂ (Tells raise lookup) items members ∧
      op.holds members = op.holds truths := by
  induction items generalizing truths with
  | nil =>
    cases h
    exact ⟨[], .nil, rfl⟩
  | cons item rest ih =>
    rw [List.flatMap_cons] at h
    obtain ⟨front, back, rfl, hfront, hback⟩ := exists_of_forall₂_append h
    have hitem : Tells raise lookup item (op.holds front) := by
      refine (hasClauses_clausesUnder op item).tells hfront fun hor => ?_
      subst hor
      exact (hasClauses_clausesUnder .or item).ne_nil (hne rfl item List.mem_cons_self)
    obtain ⟨members, hmembers, hholds⟩ :=
      ih hback fun hor other hother => hne hor other (List.mem_cons_of_mem item hother)
    refine ⟨op.holds front :: members, .cons hitem hmembers, ?_⟩
    rw [op.holds_cons, hholds, op.holds_append]

end Members

/-- Expressions whose dissolved clauses have truths for values make a list that has a truth for its
value, whether lists among them are dissolved or not, and the same one in what it counts as: that
all, or any, of the clauses count as true. A disjunction without clauses must not be among them. -/
theorem conjoin_keeps_truth (op : Conjunction) (items : List Expr) {values : List Value}
    (hvalues : List.Forall₂ (GivesTruth raise lookup) (items.flatMap (clausesUnder op)) values)
    (hne : op = .or → Expr.clauses .or [] ∉ items) :
    ∃ dissolved nested, GivesTruth raise lookup (conjoin op items) dissolved ∧
      GivesTruth raise lookup (.clauses op items) nested ∧
      dissolved.truthy = nested.truthy ∧
      (values ≠ [] → dissolved.truthy = op.holds (values.map Value.truthy)) := by
  have htells : List.Forall₂ (Tells raise lookup) (items.flatMap (clausesUnder op))
      (values.map Value.truthy) :=
    List.forall₂_map_right_iff.2 (hvalues.imp fun _ v hv => tells_iff.2 ⟨v, hv, rfl⟩)
  cases items with
  | nil =>
    cases hvalues
    obtain ⟨v, hv, -⟩ := tells_iff.1 (tells_noClauses op)
    exact ⟨v, v, hv, hv, rfl, absurd rfl⟩
  | cons item rest =>
    have hmember : op = .or → ∀ member ∈ item :: rest, member ≠ .clauses .or [] := by
      rintro hor member hmember rfl
      exact hne hor hmember
    -- a disjunction stays one of at least one clause, which is not true for want of any
    have hclauses : op = .or → (item :: rest).flatMap (clausesUnder op) ≠ [] := by
      rintro rfl hnil
      exact (hasClauses_clausesUnder .or item).ne_nil (hmember rfl item List.mem_cons_self)
        (List.flatMap_eq_nil_iff.1 hnil item List.mem_cons_self)
    obtain ⟨members, hmembers, hholds⟩ := exists_truths_of_members htells hmember
    obtain ⟨dissolved, hdissolved, htruthy⟩ := tells_iff.1 (tells_clauses htells hclauses)
    obtain ⟨nested, hnested, hsame⟩ :=
      tells_iff.1 (tells_clauses hmembers fun _ => List.cons_ne_nil _ _)
    refine ⟨dissolved, nested, hdissolved, hnested, ?_, fun _ => htruthy⟩
    rw [htruthy, hsame, hholds]

/-- Two columns are grouped before the second one stands alone. -/
def sampleGrouped : List Expr :=
  [.clauses .or [.column (Program.sampleColumn 0 .boolean),
    .column (Program.sampleColumn 1 .boolean)], .column (Program.sampleColumn 1 .boolean)]

/-- The first column is NULL, the second one false. -/
def sampleUnknown (c : Column) : Except EvalError Value :=
  .ok (if c.position = 0 then .null else .boolean false)

/-- Dissolved, three clauses come to false; as they are grouped, two clauses come to NULL. -/
theorem conjoin_keeps_truth_sampleGrouped :
    GivesTruth id sampleUnknown (conjoin .or sampleGrouped) (.boolean false) ∧
      GivesTruth id sampleUnknown (.clauses .or sampleGrouped) .null ∧
      ∃ dissolved nested, GivesTruth id sampleUnknown (conjoin .or sampleGrouped) dissolved ∧
        GivesTruth id sampleUnknown (.clauses .or sampleGrouped) nested ∧
        dissolved.truthy = nested.truthy ∧ dissolved.truthy = false := by
  have hvalues : List.Forall₂ (GivesTruth id sampleUnknown)
      (sampleGrouped.flatMap (clausesUnder .or)) [.null, .boolean false, .boolean false] :=
    .cons ⟨_, rfl, rfl, .inl rfl⟩ (.cons ⟨_, rfl, rfl, .inr ⟨_, rfl⟩⟩
      (.cons ⟨_, rfl, rfl, .inr ⟨_, rfl⟩⟩ .nil))
  obtain ⟨dissolved, nested, hdissolved, hnested, hsame, htruthy⟩ :=
    conjoin_keeps_truth .or sampleGrouped hvalues (by decide)
  exact ⟨⟨_, rfl, rfl, .inr ⟨_, rfl⟩⟩, ⟨_, rfl, rfl, .inl rfl⟩, dissolved, nested, hdissolved,
    hnested, hsame, htruthy (List.cons_ne_nil _ _)⟩

/-- A disjunction without clauses is true where it stands, and gone where it is dissolved. -/
example :
    GivesTruth id sampleUnknown (.clauses .or [.clauses .or [], .null]) (.boolean true) ∧
      GivesTruth id sampleUnknown (conjoin .or [.clauses .or [], .null]) (.boolean false) :=
  ⟨⟨_, rfl, rfl, .inr ⟨_, rfl⟩⟩, ⟨_, rfl, rfl, .inr ⟨_, rfl⟩⟩⟩

end RowFlags.Expr
