import RowFlags.Expr.Presence
import RowFlags.Proofs.Expression.Conjoining
import RowFlags.Proofs.Expression.Lookups

/-!
# Rephrasing as a condition

Clauses stand where truths are asked for: at the root, and in a list that stands at such a place
itself. Rephrasing goes to these places and no further (`clauseAt_asCondition`). It changes the
expressions that speak of a column's presence, and leaves none of them (`settled_asCondition`), so a
tree without them is its own rephrasing, and rephrasing again changes nothing. What is put in their
place asks for the same column, so the rephrased tree compiles as the tree does, or is refused as it
is, and its program asks for the same columns in the same order (`both_compile_asCondition`).
-/

set_option autoImplicit false

namespace RowFlags

open Outcome (Both)

namespace Program

/-- A run that does not fail asks for the columns that the code loads, one after the other. -/
theorem asked_of_evaluateTraced_eq_ok {lookup : Column → Except EvalError Value}
    {code : List Instruction} {v : Value} {asked : List Column}
    (h : evaluateTraced lookup code = (.ok v, asked)) :
    asked = code.filterMap Instruction.column? := by
  obtain ⟨noted, hrun, hasks⟩ := evaluateCode_noting_asks id lookup code
  obtain ⟨hvalue, rfl⟩ := Prod.mk.inj (hrun.symm.trans h)
  exact hasks.all v hvalue

/-- The programs report the same columns and ask for them in the same order. -/
structure AsksLike (p q : Program) : Prop where
  columns : p.columns = q.columns
  loads : p.code.filterMap Instruction.column? = q.code.filterMap Instruction.column?
  /-- So do their runs that do not fail. -/
  asked : ∀ (lookup : Column → Except EvalError Value) (v w : Value) (asked asked' : List Column),
    evaluateTraced lookup p.code = (.ok v, asked) →
    evaluateTraced lookup q.code = (.ok w, asked') → asked = asked'

theorem asksLike_of_loads {p q : Program}
    (h : p.code.filterMap Instruction.column? = q.code.filterMap Instruction.column?) :
    p.AsksLike q where
  columns := by rw [columns, columns, h]
  loads := h
  asked _ _ _ _ _ hp hq := by
    rw [asked_of_evaluateTraced_eq_ok hp, h, asked_of_evaluateTraced_eq_ok hq]

end Program

namespace Expr

/-- The expression at a place where a truth is asked for: the path leads from list to list. -/
def clauseAt : Expr → List Nat → Option Expr
  | e, [] => some e
  | .clauses _ items, i :: path => items[i]?.bind (clauseAt · path)
  | _, _ :: _ => none

/-- A bare column that is not Boolean, or the negation around one: it speaks of the column's
presence. -/
inductive IsPresence : Expr → Prop
  | column {c : Column} (h : c.isBoolean = false) : IsPresence (.column c)
  | notColumn {c : Column} (h : c.isBoolean = false) : IsPresence (.unary .not (.column c))

/-- Nothing that speaks of presence stands where a truth is asked for. -/
def Settled (e : Expr) : Prop := ∀ path d, e.clauseAt path = some d → ¬ d.IsPresence

/-! ## What is changed -/

/-- Only lists and what speaks of presence are changed. -/
theorem asCondition_eq_self {e : Expr} (hpresence : ¬ e.IsPresence)
    (hlist : ∀ op items, e ≠ .clauses op items) : e.asCondition = e := by
  unfold asCondition
  split
  · next c =>
    split
    · rfl
    · next hother => exact absurd (.column (by simpa using hother)) hpresence
  · next c =>
    split
    · rfl
    · next hother => exact absurd (.notColumn (by simpa using hother)) hpresence
  · next op items => exact absurd rfl (hlist op items)
  · rfl

theorem asCondition_clauses (op : Conjunction) (items : List Expr) :
    (clauses op items).asCondition = .clauses op (items.map asCondition) := by
  rw [asCondition, asConditions_eq_map]

/-- An expression is a list, speaks of presence, or is neither and is left as it is. -/
theorem asCondition_cases (e : Expr) :
    (∃ op items, e = .clauses op items) ∨ e.IsPresence ∨
      ¬ e.IsPresence ∧ (∀ op items, e ≠ .clauses op items) ∧ e.asCondition = e := by
  by_cases hlist : ∃ op items, e = .clauses op items
  · exact .inl hlist
  · have hlist : ∀ op items, e ≠ .clauses op items := fun op items h => hlist ⟨op, items, h⟩
    by_cases hpresence : e.IsPresence
    · exact .inr (.inl hpresence)
    · exact .inr (.inr ⟨hpresence, hlist, asCondition_eq_self hpresence hlist⟩)

theorem asCondition_column {c : Column} (h : c.isBoolean = false) :
    (column c).asCondition = isNotNull (.column c) := by
  simp [asCondition, h]

theorem asCondition_not_column {c : Column} (h : c.isBoolean = false) :
    (unary .not (.column c)).asCondition = isNull (.column c) := by
  simp [asCondition, h]

/-- What speaks of presence becomes a comparison with NULL. -/
theorem IsPresence.exists_asCondition_eq {e : Expr} (h : e.IsPresence) :
    ∃ op left, e.asCondition = .binary op left .null := by
  cases h with
  | column h => exact ⟨_, _, asCondition_column h⟩
  | notColumn h => exact ⟨_, _, asCondition_not_column h⟩

theorem asCondition_ne_clauses {e : Expr} (h : ∀ op items, e ≠ .clauses op items)
    (op : Conjunction) (items : List Expr) : e.asCondition ≠ .clauses op items := by
  rcases e.asCondition_cases with ⟨inner, own, rfl⟩ | hpresence | ⟨-, -, hsame⟩
  · exact absurd rfl (h inner own)
  · obtain ⟨op, left, heq⟩ := hpresence.exists_asCondition_eq
    rw [heq]
    rintro ⟨⟩
  · rw [hsame]
    exact h op items

theorem not_isPresence_asCondition (e : Expr) : ¬ e.asCondition.IsPresence := by
  rcases e.asCondition_cases with ⟨op, items, rfl⟩ | hpresence | ⟨hother, -, hsame⟩
  · rw [asCondition_clauses]
    rintro ⟨⟩
  · obtain ⟨op, left, heq⟩ := hpresence.exists_asCondition_eq
    rw [heq]
    rintro ⟨⟩
  · rwa [hsame]

/-! ## Where it is changed -/

theorem clauseAt_cons_of_ne {e : Expr} (h : ∀ op items, e ≠ .clauses op items) (i : Nat)
    (path : List Nat) : e.clauseAt (i :: path) = none := by
  cases e with
  | clauses op items => exact absurd rfl (h op items)
  | _ => rfl

/-- At every place stands the rephrasing of what stood there. -/
theorem clauseAt_asCondition (e : Expr) (path : List Nat) :
    e.asCondition.clauseAt path = (e.clauseAt path).map asCondition := by
  induction path generalizing e with
  | nil => rfl
  | cons i path ih =>
    by_cases hlist : ∃ op items, e = .clauses op items
    · obtain ⟨op, items, rfl⟩ := hlist
      rw [asCondition_clauses, clauseAt, clauseAt, List.getElem?_map, Option.bind_map,
        Option.map_bind]
      exact congrArg (Option.bind items[i]?) (funext ih)
    · have hlist : ∀ op items, e ≠ .clauses op items := fun op items h => hlist ⟨op, items, h⟩
      rw [clauseAt_cons_of_ne hlist, clauseAt_cons_of_ne (asCondition_ne_clauses hlist)]
      rfl

theorem settled_asCondition (e : Expr) : e.asCondition.Settled := by
  intro path d hd
  rw [clauseAt_asCondition] at hd
  obtain ⟨before, -, rfl⟩ := Option.map_eq_some_iff.1 hd
  exact not_isPresence_asCondition before

/-- A settled tree is its own rephrasing, and no other is. -/
theorem asCondition_eq_self_iff {e : Expr} : e.asCondition = e ↔ e.Settled := by
  constructor
  · intro h
    rw [← h]
    exact settled_asCondition e
  · intro h
    induction e using induction_parts with
    | h e ih =>
      rcases e.asCondition_cases with ⟨op, items, rfl⟩ | hpresence | ⟨-, -, hsame⟩
      · have hitems : ∀ item ∈ items, item.asCondition = id item := by
          intro item hitem
          obtain ⟨i, hi⟩ := List.getElem?_of_mem hitem
          refine ih item hitem fun path d hd => h (i :: path) d ?_
          rw [clauseAt, hi, Option.bind_some, hd]
        rw [asCondition_clauses, List.map_congr_left hitems, List.map_id]
      · exact absurd hpresence (h [] e rfl)
      · exact hsame

/-! ## Rephrasing and building -/

/-- An expression that is rephrased has its clauses rephrased. -/
theorem HasClauses.asCondition {op : Conjunction} {e : Expr} {items : List Expr}
    (h : HasClauses op e items) : HasClauses op e.asCondition (items.map Expr.asCondition) := by
  cases h with
  | list =>
    rw [asCondition_clauses]
    exact .list _
  | single hsingle =>
    refine .single ?_
    rcases e.asCondition_cases with ⟨inner, own, rfl⟩ | hpresence | ⟨-, -, hsame⟩
    · rw [asCondition_clauses]
      intro items heq
      cases heq
      exact hsingle own rfl
    · obtain ⟨function, left, heq⟩ := hpresence.exists_asCondition_eq
      rw [heq]
      rintro items ⟨⟩
    · rw [hsame]
      exact hsingle

theorem asCondition_conjoin (op : Conjunction) (items : List Expr) :
    (conjoin op items).asCondition = conjoin op (items.map asCondition) := by
  rw [conjoin, conjoin, asCondition_clauses, List.map_flatMap, List.flatMap_map]
  congr 1
  refine congrArg (items.flatMap ·) (funext fun item => ?_)
  exact ((hasClauses_clausesUnder op item).asCondition.eq).symm

/-! ## Rephrasing and compiling -/

/-- The code loads the same columns in the same order. -/
def LoadsLike (code code' : List Instruction) : Prop :=
  code.filterMap Instruction.column? = code'.filterMap Instruction.column?

theorem LoadsLike.append {front front' back back' : List Instruction}
    (hfront : LoadsLike front front') (hback : LoadsLike back back') :
    LoadsLike (front ++ back) (front' ++ back') := by
  unfold LoadsLike at *
  rw [List.filterMap_append, List.filterMap_append, hfront, hback]

theorem both_compileAll_map {items : List Expr} {f : Expr → Expr}
    (h : ∀ item ∈ items, Both Eq LoadsLike (f item).compile item.compile) :
    Both Eq LoadsLike (compileAll (items.map f)) (compileAll items) := by
  induction items with
  | nil => exact .ok rfl
  | cons item rest ih =>
    obtain ⟨hitem, hrest⟩ := List.forall_mem_cons.1 h
    rw [List.map_cons, compileAll, compileAll]
    refine hitem.bind fun _ _ hfront => ?_
    exact (ih hrest).bind fun _ _ hback => .ok (hfront.append hback)

theorem compile_clauses_of_ne_nil {op : Conjunction} {items : List Expr} (h : items ≠ []) :
    (clauses op items).compile = do
      let code ← compileAll items
      let operator ← clauseOperator op items.length
      return code ++ [.operate operator] := by
  cases items with
  | nil => exact absurd rfl h
  | cons item rest =>
    rw [compile]
    exact h

/-- A tree and its rephrasing compile to code that loads alike, or are refused alike. -/
theorem both_compile_asCondition (e : Expr) :
    Both Eq LoadsLike e.asCondition.compile e.compile := by
  induction e using induction_parts with
  | h e ih =>
    rcases e.asCondition_cases with ⟨op, items, rfl⟩ | hpresence | ⟨-, -, hkept⟩
    · have hitems : Both Eq LoadsLike (compileAll (items.map asCondition)) (compileAll items) :=
        both_compileAll_map ih
      rw [asCondition_clauses]
      by_cases hnil : items = []
      · subst hnil
        exact .ok rfl
      · rw [compile_clauses_of_ne_nil hnil, compile_clauses_of_ne_nil (by simpa using hnil),
          List.length_map]
        refine hitems.bind fun code code' hcode => ?_
        refine Both.bind_same (fun _ => rfl) _ fun operator => ?_
        exact .ok (hcode.append rfl)
    · cases hpresence with
      | column h =>
        rw [asCondition_column h]
        exact .ok rfl
      | notColumn h =>
        rw [asCondition_not_column h]
        exact .ok rfl
    · rw [hkept]
      cases e.compile with
      | ok code => exact .ok rfl
      | error cause => exact .error rfl

/-! ## What rephrasing amounts to -/

/-- `f` says as a condition what `e` says. -/
structure RephrasedAs (e f : Expr) : Prop where
  /-- It compiles if the expression does, -/
  compiles : (∃ p, Program.ofExpr f = .ok p) ↔ ∃ q, Program.ofExpr e = .ok q
  /-- or is refused for the same cause, -/
  refused : ∀ cause, Program.ofExpr f = .error cause ↔ Program.ofExpr e = .error cause
  /-- and asks for the same columns in the same order. -/
  asks : ∀ p q, Program.ofExpr f = .ok p → Program.ofExpr e = .ok q → p.AsksLike q
  /-- No bare column that is not Boolean, and no negation around one, stands where a truth is asked
  for. -/
  settled : ∀ path d, f.clauseAt path = some d →
    ∀ c, c.isBoolean = false → d ≠ .column c ∧ d ≠ .unary .not (.column c)
  /-- What is neither of these nor a list of clauses stands where it stood. -/
  kept : ∀ path d, e.clauseAt path = some d →
    (∀ c, c.isBoolean = false → d ≠ .column c ∧ d ≠ .unary .not (.column c)) →
    (∀ op items, d ≠ .clauses op items) → f.clauseAt path = some d

theorem isPresence_iff {e : Expr} :
    ¬ e.IsPresence ↔
      ∀ c, c.isBoolean = false → e ≠ .column c ∧ e ≠ .unary .not (.column c) := by
  constructor
  · intro h c hc
    exact ⟨fun heq => h (heq ▸ .column hc), fun heq => h (heq ▸ .notColumn hc)⟩
  · intro h hpresence
    cases hpresence with
    | column hc => exact (h _ hc).1 rfl
    | notColumn hc => exact (h _ hc).2 rfl

theorem both_ofExpr_asCondition (e : Expr) :
    Both Eq Program.AsksLike (Program.ofExpr e.asCondition) (Program.ofExpr e) :=
  (both_compile_asCondition e).map fun _ _ hloads => Program.asksLike_of_loads hloads

theorem rephrasedAs_asCondition (e : Expr) : e.RephrasedAs e.asCondition := by
  have hboth := both_ofExpr_asCondition e
  refine ⟨hboth.exists_ok_iff, hboth.eq_error_iff, fun p q hp hq => hboth.related hp hq, ?_, ?_⟩
  · intro path d hd
    exact isPresence_iff.1 (settled_asCondition e path d hd)
  · intro path d hd hpresence hlist
    rw [clauseAt_asCondition, hd, Option.map_some,
      asCondition_eq_self (isPresence_iff.2 hpresence) hlist]

/-- Rephrasing goes through building. Done once it is done for good, and it changes nothing in what
is compiled, asked for or said elsewhere than where the presence of a column was meant. -/
theorem asCondition_laws (e : Expr) (op : Conjunction) (items : List Expr) :
    e.asCondition.asCondition = e.asCondition ∧
      (conjoin op items).asCondition = conjoin op (items.map asCondition) ∧
      e.RephrasedAs e.asCondition :=
  ⟨asCondition_eq_self_iff.2 (settled_asCondition e), asCondition_conjoin op items,
    rephrasedAs_asCondition e⟩

/-- Lists are gone through whatever their conjunction, a negation around one is not. -/
example (c : Column) (h : c.isBoolean = false) :
    (clauses .and [.clauses .or [.column c], .unary .not (.clauses .or [.column c])]).asCondition =
      .clauses .and [.clauses .or [isNotNull (.column c)],
        .unary .not (.clauses .or [.column c])] := by
  simp [asCondition, asConditions, h]

end Expr

end RowFlags
