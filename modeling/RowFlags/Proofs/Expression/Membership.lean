import Mathlib.Data.List.Forall2
import RowFlags.Proofs.Expression.Compilation

/-!
# Lists of items

A list that an expression is looked for in is computed in one of two ways. If its items are
constants by their form they are folded into one when the expression is compiled; otherwise each of
them is computed on the row and the values are collected from the stack. Neither shows: what comes
out depends on the values of the items alone (`Expr.isIn_by_values`), and it is true as soon as the
expression equals one of the items.
-/

set_option autoImplicit false

namespace RowFlags.Expr

variable {ε : Type} (raise : EvalError → ε) (lookup : Column → Except ε Value)

/-- The expression compiles, and its program evaluates to the value. -/
def Gives (e : Expr) (v : Value) : Prop :=
  ∃ p, Program.ofExpr e = .ok p ∧ p.evaluate raise lookup = .ok v

variable {raise lookup}

theorem gives_iff {e : Expr} {v : Value} :
    Gives raise lookup e v ↔
      (∃ code, e.compile = .ok code) ∧ e.interpret (m := Id) raise lookup = pure v :=
  Program.exists_evaluate_iff

/-- An expression gives one value at most. -/
theorem Gives.unique {e : Expr} {v w : Value} (hv : Gives raise lookup e v)
    (hw : Gives raise lookup e w) : v = w := by
  obtain ⟨-, hv⟩ := gives_iff.1 hv
  obtain ⟨-, hw⟩ := gives_iff.1 hw
  exact Except.ok.inj (hv.symm.trans hw)

theorem gives_literal (v : Value) : Gives raise lookup (.literal v) v :=
  gives_iff.2 ⟨⟨_, rfl⟩, rfl⟩

/-- Operands that have values leave it to their operator how the evaluation ends. -/
theorem exists_evaluate_binary {op : BinaryOp} {f : BinaryFunction} (hf : functionOf op = .ok f)
    {left right : Expr} {v w : Value} (hleft : Gives raise lookup left v)
    (hright : Gives raise lookup right w) :
    ∃ p, Program.ofExpr (.binary op left right) = .ok p ∧
      p.evaluate raise lookup = (op.apply v w).mapError raise := by
  obtain ⟨⟨leftCode, hleftCode⟩, hv⟩ := gives_iff.1 hleft
  obtain ⟨⟨rightCode, hrightCode⟩, hw⟩ := gives_iff.1 hright
  refine Program.exists_evaluate_iff.2 ⟨⟨rightCode ++ leftCode ++ [.operate (.binary f)], ?_⟩, ?_⟩
  · rw [compile, hf, hrightCode, hleftCode]
    rfl
  · rw [interpret, hw, hv, pure_bind, pure_bind]
    cases op.apply v w <;> rfl

/-- Operands that have values give an operator its own. -/
theorem Gives.binary {op : BinaryOp} {f : BinaryFunction} (hf : functionOf op = .ok f)
    {left right : Expr} {v w u : Value} (hleft : Gives raise lookup left v)
    (hright : Gives raise lookup right w) (hu : op.apply v w = .ok u) :
    Gives raise lookup (.binary op left right) u := by
  obtain ⟨p, hp, hevaluate⟩ := exists_evaluate_binary hf hleft hright
  rw [hu] at hevaluate
  exact ⟨p, hp, hevaluate⟩

/-- Items that have values are compiled and interpreted all together. -/
theorem exists_compileAll {items : List Expr} {values : List Value}
    (h : List.Forall₂ (Gives raise lookup) items values) :
    (∃ code, compileAll items = .ok code) ∧
      interpretAll (m := Id) raise lookup items = pure values := by
  induction h with
  | nil => exact ⟨⟨[], rfl⟩, rfl⟩
  | cons hitem _ ih =>
    obtain ⟨⟨front, hfront⟩, hv⟩ := gives_iff.1 hitem
    obtain ⟨⟨back, hback⟩, hvalues⟩ := ih
    refine ⟨⟨front ++ back, ?_⟩, ?_⟩
    · rw [compileAll, hfront, hback]
      rfl
    · rw [interpretAll, hv, hvalues]
      rfl

/-- A group gives the list of the values of its items, whether it is folded or collected. -/
theorem gives_group {items : List Expr} {values : List Value}
    (h : List.Forall₂ (Gives raise lookup) items values) :
    Gives raise lookup (.group items) (.list values) := by
  obtain ⟨⟨code, hcode⟩, hvalues⟩ := exists_compileAll h
  refine gives_iff.2 ⟨?_, by rw [interpret, hvalues]; rfl⟩
  rw [compile]
  cases hfold : items.mapM literal? with
  | some constants => exact ⟨_, rfl⟩
  | none =>
    cases items with
    | nil => cases hfold
    | cons item rest =>
      rw [hcode, Outcome.ok_bind, List.length_cons, Operator.make_reducer]
      exact ⟨_, rfl⟩

/-- Whether a value is among the items of a list. -/
theorem gives_isIn {x : Expr} {v : Value} {items : List Expr} {values : List Value}
    (hx : Gives raise lookup x v) (hitems : List.Forall₂ (Gives raise lookup) items values) :
    Gives raise lookup (x.isIn items) (.boolean (v ∈ values)) ∧
      Gives raise lookup (x.isNotIn items) (.boolean (v ∉ values)) := by
  refine ⟨hx.binary rfl (gives_group hitems) rfl, hx.binary rfl (gives_group hitems) ?_⟩
  rw [decide_not]
  rfl

theorem gives_eq {x y : Expr} {v w : Value} (hx : Gives raise lookup x v)
    (hy : Gives raise lookup y w) :
    Gives raise lookup (.binary .eq x y) (.boolean (v = w)) ∧
      Gives raise lookup (.binary .ne x y) (.boolean (v ≠ w)) :=
  ⟨hx.binary rfl hy rfl, hx.binary rfl hy rfl⟩

/-- An expression equals an item that has its value, and no other. -/
theorem gives_eq_iff {x item : Expr} {v w : Value} (hx : Gives raise lookup x v)
    (hitem : Gives raise lookup item w) :
    Gives raise lookup (.binary .eq x item) (.boolean true) ↔ v = w := by
  have heq := (gives_eq hx hitem).1
  constructor
  · intro h
    exact of_decide_eq_true (Value.boolean.inj (heq.unique h))
  · rintro rfl
    rwa [decide_eq_true rfl] at heq

/-- The value of an expression is among those of the items if the expression equals one of them. -/
theorem mem_values_iff {x : Expr} {v : Value} {items : List Expr} {values : List Value}
    (hx : Gives raise lookup x v) (h : List.Forall₂ (Gives raise lookup) items values) :
    v ∈ values ↔ ∃ item ∈ items, Gives raise lookup (.binary .eq x item) (.boolean true) := by
  induction h with
  | nil => simp
  | @cons item w rest values hitem _ ih =>
    rw [List.mem_cons, ih, ← gives_eq_iff hx hitem]
    simp

theorem mapM_literal? (values : List Value) :
    (values.map literal).mapM literal? = some values := by
  induction values with
  | nil => rfl
  | cons v rest ih =>
    rw [List.map_cons, List.mapM_cons, ih]
    rfl

/-- What an expression is looked for in counts by the values of its items. Membership and its
negation are Booleans, whatever the value looked for is; other items of the same values make no
difference, constants among them, which are folded into one; and the expression is a member exactly
if it equals one of the items. -/
theorem isIn_by_values {x : Expr} {v : Value} {items : List Expr} {values : List Value}
    (hx : Gives raise lookup x v) (hitems : List.Forall₂ (Gives raise lookup) items values) :
    Gives raise lookup (x.isIn items) (.boolean (v ∈ values)) ∧
      Gives raise lookup (x.isNotIn items) (.boolean (v ∉ values)) ∧
      (∀ others, List.Forall₂ (Gives raise lookup) others values → ∀ w,
        (Gives raise lookup (x.isIn others) w ↔ Gives raise lookup (x.isIn items) w) ∧
          (Gives raise lookup (x.isNotIn others) w ↔ Gives raise lookup (x.isNotIn items) w)) ∧
      (∀ code, x.compile = .ok code → (x.isIn (values.map literal)).compile =
        .ok (.push (.list values) :: code ++ [.operate (.binary .member)])) ∧
      (Gives raise lookup (x.isIn items) (.boolean true) ↔
        ∃ item ∈ items, Gives raise lookup (.binary .eq x item) (.boolean true)) := by
  obtain ⟨hmember, hnot⟩ := gives_isIn hx hitems
  refine ⟨hmember, hnot, ?_, ?_, ?_⟩
  · intro others hothers w
    obtain ⟨hmember', hnot'⟩ := gives_isIn hx hothers
    exact ⟨⟨fun h => hmember'.unique h ▸ hmember, fun h => hmember.unique h ▸ hmember'⟩,
      ⟨fun h => hnot'.unique h ▸ hnot, fun h => hnot.unique h ▸ hnot'⟩⟩
  · intro code hcode
    rw [isIn, compile, compile, mapM_literal?, hcode]
    rfl
  · rw [← mem_values_iff hx hitems]
    constructor
    · intro h
      exact of_decide_eq_true (Value.boolean.inj (hmember.unique h))
    · intro h
      rwa [decide_eq_true h] at hmember

/-- A list of two numbers, the first from a column. -/
def sampleList : Expr :=
  .group [.column (Program.sampleColumn 0 .int32), .literal (.int32 2)]

/-- The list is among items of which one is computed on the row, and among the constants of the same
values. It is in no empty list, and it is not in itself. -/
theorem isIn_by_values_sampleList :
    Gives id (Program.sampleRow 0) sampleList (.list [.int32 7, .int32 2]) ∧
      Gives id (Program.sampleRow 0) (sampleList.isIn [.null, sampleList]) (.boolean true) ∧
      Gives id (Program.sampleRow 0)
        (sampleList.isNotIn [.literal .null, .literal (.list [.int32 7, .int32 2])])
        (.boolean false) ∧
      Gives id (Program.sampleRow 0) (sampleList.isIn []) (.boolean false) ∧
      Gives id (Program.sampleRow 0)
        (sampleList.isNotIn [.column (Program.sampleColumn 0 .int32), .literal (.int32 2)])
        (.boolean true) := by
  have hnumber : Gives id (Program.sampleRow 0) (.column (Program.sampleColumn 0 .int32))
      (.int32 7) := ⟨_, rfl, rfl⟩
  have hlist : Gives id (Program.sampleRow 0) sampleList (.list [.int32 7, .int32 2]) :=
    ⟨_, rfl, rfl⟩
  have hnull : Gives id (Program.sampleRow 0) .null .null := ⟨_, rfl, rfl⟩
  have hconstants : List.Forall₂ (Gives id (Program.sampleRow 0))
      [.literal .null, .literal (.list [.int32 7, .int32 2])]
      [.null, .list [.int32 7, .int32 2]] :=
    .cons (gives_literal .null) (.cons (gives_literal _) .nil)
  obtain ⟨hmember, hnone, hothers, -⟩ := isIn_by_values hlist (.cons hnull (.cons hlist .nil))
  obtain ⟨hempty, -⟩ := isIn_by_values hlist .nil
  obtain ⟨-, hnot, -⟩ :=
    isIn_by_values hlist (.cons hnumber (.cons (gives_literal (.int32 2)) .nil))
  exact ⟨hlist, hmember, ((hothers _ hconstants _).2).2 hnone, hempty, hnot⟩

end RowFlags.Expr
