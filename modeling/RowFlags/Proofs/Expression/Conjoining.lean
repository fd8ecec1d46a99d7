import RowFlags.Proofs.Expression.Nodes

/-!
# Putting expressions under a conjunction

The builders dissolve a list that is conjoined under its own conjunction once more
(`conjoin_dissolve`), so it does not matter how expressions are grouped while they are put together:
`and` and `or` are associative, and the empty list adds nothing (`joins_and_or`). One level is
dissolved, not more, and only under the same conjunction; trees that hold no list to dissolve make a
tree that holds none (`Flat.conjoin`).
-/

set_option autoImplicit false

namespace RowFlags.Expr

/-- The clauses of an expression under `op`: those of a list under `op`, and for any other
expression the expression itself. -/
inductive HasClauses (op : Conjunction) : Expr → List Expr → Prop
  | list (items : List Expr) : HasClauses op (.clauses op items) items
  | single {e : Expr} (h : ∀ items, e ≠ .clauses op items) : HasClauses op e [e]

theorem hasClauses_clausesUnder (op : Conjunction) (e : Expr) :
    HasClauses op e (e.clausesUnder op) := by
  cases e with
  | clauses inner items =>
    rw [clausesUnder]
    split
    · next hsame =>
      subst hsame
      exact .list items
    · next hother => exact .single fun _ heq => hother (clauses.inj heq).1
  | _ => exact .single fun _ heq => by cases heq

theorem HasClauses.eq {op : Conjunction} {e : Expr} {items : List Expr}
    (h : HasClauses op e items) : e.clausesUnder op = items := by
  cases h with
  | list => exact if_pos rfl
  | single hsingle =>
    have hown := hasClauses_clausesUnder op e
    generalize e.clausesUnder op = own at hown ⊢
    cases hown with
    | list => exact absurd rfl (hsingle own)
    | single => rfl

/-! ## Dissolving -/

@[simp] theorem clausesUnder_conjoin (op : Conjunction) (items : List Expr) :
    (conjoin op items).clausesUnder op = items.flatMap (clausesUnder op) :=
  (HasClauses.list _).eq

/-- A conjunction conjoined once more leaves its members in its place. -/
theorem conjoin_dissolve (op : Conjunction) (front items back : List Expr) :
    conjoin op (front ++ conjoin op items :: back) = conjoin op (front ++ items ++ back) := by
  have hclauses : (front ++ conjoin op items :: back).flatMap (clausesUnder op) =
      (front ++ items ++ back).flatMap (clausesUnder op) := by
    simp only [List.flatMap_append, List.flatMap_cons, clausesUnder_conjoin, List.append_assoc]
  rw [conjoin, hclauses]
  rfl

/-! ## Flat trees -/

/-- No list of clauses, at any depth, has a clause that is a list under the same conjunction. -/
def Flat (e : Expr) : Prop :=
  ∀ op items, (clauses op items).StandsIn e → ∀ item ∈ items, ∀ inner, item ≠ .clauses op inner

theorem flat_clauses_iff {op : Conjunction} {items : List Expr} :
    (clauses op items).Flat ↔
      ∀ item ∈ items, (∀ inner, item ≠ .clauses op inner) ∧ item.Flat := by
  constructor
  · intro h item hitem
    exact ⟨h op items .root item hitem, fun op' items' hd => h op' items' (.within hitem hd)⟩
  · intro h op' items' hd
    rcases standsIn_iff.1 hd with heq | ⟨item, hitem, hd⟩
    · cases heq
      exact fun item hitem => (h item hitem).1
    · exact (h item hitem).2 op' items' hd

/-- Flat expressions have flat clauses, and none of them is a list under the conjunction. -/
theorem Flat.of_hasClauses {op : Conjunction} {e : Expr} {items : List Expr} (h : e.Flat)
    (hclauses : HasClauses op e items) :
    ∀ item ∈ items, (∀ inner, item ≠ .clauses op inner) ∧ item.Flat := by
  cases hclauses with
  | list => exact flat_clauses_iff.1 h
  | single hsingle => exact List.forall_mem_singleton.2 ⟨hsingle, h⟩

/-- Flat expressions put together are flat. -/
theorem Flat.conjoin (op : Conjunction) {items : List Expr} (h : ∀ item ∈ items, item.Flat) :
    (Expr.conjoin op items).Flat := by
  refine flat_clauses_iff.2 fun clause hclause => ?_
  obtain ⟨item, hitem, hclause⟩ := List.mem_flatMap.1 hclause
  exact (h item hitem).of_hasClauses (hasClauses_clausesUnder op item) clause hclause

/-! ## Joining two expressions -/

/-- `join` puts two expressions under `op`, however they are built themselves. -/
structure Joins (op : Conjunction) (join : Expr → Expr → Expr) : Prop where
  assoc (a b c : Expr) : join (join a b) c = join a (join b c)
  /-- The empty list adds nothing but the list around a single expression, -/
  empty_join (a : Expr) : join (conjoin op []) a = conjoin op [a]
  /-- on either side. -/
  join_empty (a : Expr) : join a (conjoin op []) = conjoin op [a]
  /-- The clauses of the two come one after the other. -/
  clauses {a b : Expr} {front back : List Expr} (ha : HasClauses op a front)
    (hb : HasClauses op b back) : join a b = .clauses op (front ++ back)
  flat {a b : Expr} (ha : a.Flat) (hb : b.Flat) : (join a b).Flat
  /-- So it is with any number of expressions. -/
  flat_conjoin {items : List Expr} (h : ∀ item ∈ items, item.Flat) : (conjoin op items).Flat

theorem joins_conjoin (op : Conjunction) : Joins op fun a b => conjoin op [a, b] where
  assoc a b c :=
    calc conjoin op [conjoin op [a, b], c]
      _ = conjoin op [a, b, c] := conjoin_dissolve op [] [a, b] [c]
      _ = conjoin op [a, conjoin op [b, c]] := (conjoin_dissolve op [a] [b, c] []).symm
  empty_join a := conjoin_dissolve op [] [] [a]
  join_empty a := conjoin_dissolve op [a] [] []
  clauses ha hb := by simp [conjoin, ha.eq, hb.eq]
  flat ha hb := .conjoin op (List.forall_mem_cons.2 ⟨ha, List.forall_mem_singleton.2 hb⟩)
  flat_conjoin h := .conjoin op h

/-- Both expressions, and either expression: expressions under a conjunction form a monoid up to the
list around a single one, in which clauses are put in a row and flat trees stay flat. -/
theorem joins_and_or : Joins .and Expr.and ∧ Joins .or Expr.or :=
  ⟨joins_conjoin .and, joins_conjoin .or⟩

/-- A list that is nested twice in its own conjunction is dissolved once. -/
example :
    and (.clauses .and [.clauses .and [.null], .null]) (.clauses .or [.null]) =
      .clauses .and [.clauses .and [.null], .null, .clauses .or [.null]] := by decide

end RowFlags.Expr
