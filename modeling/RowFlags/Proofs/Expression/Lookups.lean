import RowFlags.Proofs.Expression.Compilation
import RowFlags.Proofs.Expression.Refusals
import RowFlags.Proofs.Expression.Renaming

/-!
# What programs ask for

A compiled expression asks for the columns of its tree's nodes: for each node that names a column
once, in the order in which compiling comes to the nodes (`Expr.loads_compile`). A run that does
not fail asks for all of them and for nothing else, one that fails asks for the first of them
(`Program.run_watched`). So the columns that a program reports are all that its value can depend on,
and it reports none exactly if its tree is constant (`Program.readsOnly_of_ofExpr`).
-/

set_option autoImplicit false

namespace RowFlags

namespace Expr

/-- The column that a node names. -/
def asked? : Expr → Option Column
  | .column c => some c
  | .test c _ => some c
  | _ => none

/-- A node of the tree, at any depth, names the column. -/
def Names (e : Expr) (c : Column) : Prop := ∃ d : Expr, d.StandsIn e ∧ d.asked? = some c

/-- The columns that nodes name, in the order in which compiling comes to the nodes. -/
def lookups (e : Expr) : List Column := e.visited.filterMap asked?

theorem asked?_of_literal? {e : Expr} {v : Value} (h : e.literal? = some v) : e.asked? = none := by
  unfold literal? at h
  split at h <;> cases h <;> rfl

/-- The code loads the columns that the nodes name. -/
def Loads (nodes : List Expr) (code : List Instruction) : Prop :=
  code.filterMap Instruction.column? = nodes.filterMap asked?

theorem Loads.append {nodes nodes' : List Expr} {front back : List Instruction}
    (hfront : Loads nodes front) (hback : Loads nodes' back) :
    Loads (nodes ++ nodes') (front ++ back) := by
  unfold Loads at *
  rw [List.filterMap_append, List.filterMap_append, hfront, hback]

/-- An operator loads nothing. -/
theorem Loads.operate {nodes : List Expr} {code : List Instruction} (h : Loads nodes code)
    (op : Operator) : Loads nodes (code ++ [.operate op]) := by
  have hop : Loads [] [.operate op] := rfl
  simpa using h.append hop

/-- Code loads the columns of the nodes in the order in which compiling comes to them. -/
theorem codeLaw_loads : CodeLaw (fun e code => Loads e.visited code)
    (fun items code => Loads (visitedAll items) code) where
  column _ := rfl
  literal _ := rfl
  null := rfl
  folded hvalues := by
    obtain ⟨hvisited, hliterals⟩ := visitedAll_of_literals hvalues
    unfold Loads
    rw [visited, hvisited]
    refine (List.filterMap_eq_nil_iff.2 fun node hnode => ?_).symm
    rcases List.mem_cons.1 hnode with rfl | hnode
    · rfl
    · obtain ⟨v, hv⟩ := hliterals node hnode
      exact asked?_of_literal? hv
  group _ _ hitems := hitems.operate _
  unary hoperand := hoperand.operate _
  binary _ hright hleft := (hright.append hleft).operate _
  test _ t := by cases t <;> rfl
  noClauses _ := rfl
  clauses _ hitems := hitems.operate _
  nil := rfl
  cons hitem hrest := hitem.append hrest

theorem loads_compile {e : Expr} {code : List Instruction} (h : e.compile = .ok code) :
    Loads e.visited code :=
  codeLaw_loads.of_compile e code h

/-- A tree is constant if its root names no column and its parts are constant. -/
theorem isConstant_iff_parts (e : Expr) :
    e.isConstant = true ↔ e.asked? = none ∧ ∀ part ∈ e.parts, part.isConstant = true := by
  cases e <;> simp [isConstant, asked?, parts, areConstant_eq_all]

/-- A tree is constant exactly if no node names a column. -/
theorem isConstant_iff {e : Expr} :
    e.isConstant = true ↔ ∀ d : Expr, d.StandsIn e → d.asked? = none := by
  induction e using induction_parts with
  | h e ih =>
    rw [isConstant_iff_parts]
    constructor
    · rintro ⟨hroot, hparts⟩ d hd
      rcases standsIn_iff.1 hd with rfl | ⟨part, hpart, hd⟩
      · exact hroot
      · exact (ih part hpart).1 (hparts part hpart) d hd
    · intro h
      exact ⟨h e .root, fun part hpart => (ih part hpart).2 fun d hd => h d (.within hpart hd)⟩

/-- An expression names the column of its root, and what its parts name. -/
theorem names_iff {e : Expr} {c : Column} :
    e.Names c ↔ e.asked? = some c ∨ ∃ part ∈ e.parts, part.Names c := by
  constructor
  · rintro ⟨d, hd, hc⟩
    rcases standsIn_iff.1 hd with rfl | ⟨part, hpart, hd⟩
    · exact .inl hc
    · exact .inr ⟨part, hpart, d, hd, hc⟩
  · rintro (hroot | ⟨part, hpart, d, hd, hc⟩)
    · exact ⟨e, .root, hroot⟩
    · exact ⟨d, .within hpart hd, hc⟩

@[simp] theorem names_column {c d : Column} : (column c).Names d ↔ c = d := by
  rw [names_iff]
  simp [asked?, parts]

@[simp] theorem names_null {c : Column} : ¬ null.Names c := by
  rw [names_iff]
  simp [asked?, parts]

@[simp] theorem names_test {c d : Column} {t : TruthTest} : (test c t).Names d ↔ c = d := by
  rw [names_iff]
  simp [asked?, parts]

@[simp] theorem names_unary {op : UnaryOp} {e : Expr} {c : Column} :
    (unary op e).Names c ↔ e.Names c := by
  rw [names_iff]
  simp [asked?, parts]

@[simp] theorem names_binary {op : BinaryOp} {left right : Expr} {c : Column} :
    (binary op left right).Names c ↔ left.Names c ∨ right.Names c := by
  rw [names_iff]
  simp [asked?, parts]

@[simp] theorem names_clauses {op : Conjunction} {items : List Expr} {c : Column} :
    (clauses op items).Names c ↔ ∃ item ∈ items, item.Names c := by
  rw [names_iff]
  simp [asked?, parts]

/-- A negation names what it negates names. -/
@[simp] theorem names_not {e : Expr} {c : Column} : e.not.Names c ↔ e.Names c := by
  unfold Expr.not
  split
  · split <;> simp
  · simp

end Expr

namespace Program

section Watched

variable {σ ε : Type} (raise : EvalError → ε) (lookup : Column → ExceptT ε (StateM σ) Value)

/-- The lookup under watch: what it is asked for is noted beside its state. -/
def watched (c : Column) : ExceptT ε (StateM (σ × List Column)) Value :=
  ExceptT.mk fun s =>
    let (answer, after) := (lookup c).run.run s.1
    (answer, after, s.2 ++ [c])

/-- Watching a run changes nothing. Noted are the first columns that the code loads, and all of them
if the run does not fail. -/
theorem run_watched (code : List Instruction) (stack : List Value) (s : σ) (asked : List Column) :
    ∃ front, front <+: code.filterMap Instruction.column? ∧
      (run raise (watched lookup) code stack).run.run (s, asked) =
        (((run raise lookup code stack).run.run s).1,
          ((run raise lookup code stack).run.run s).2, asked ++ front) ∧
      ∀ out, ((run raise lookup code stack).run.run s).1 = .ok out →
        front = code.filterMap Instruction.column? := by
  induction code generalizing stack s asked with
  | nil =>
    refine ⟨[], List.nil_prefix, ?_, fun _ _ => rfl⟩
    rw [List.append_nil]
    rfl
  | cons i code ih =>
    cases i with
    | load c =>
      have hasked : (Instruction.load c :: code).filterMap Instruction.column? =
          c :: code.filterMap Instruction.column? := rfl
      have hwatched : (watched lookup c).run.run (s, asked) =
          (((lookup c).run.run s).1, ((lookup c).run.run s).2, asked ++ [c]) := rfl
      simp only [run, Outcome.run_run_bind, hwatched, hasked]
      rcases (lookup c).run.run s with ⟨e | v, after⟩
      · refine ⟨[c], by simp, rfl, ?_⟩
        rintro out ⟨⟩
      · obtain ⟨front, hfront, hrun, hall⟩ := ih (v :: stack) after (asked ++ [c])
        refine ⟨c :: front, List.cons_prefix_cons.2 ⟨rfl, hfront⟩, ?_, ?_⟩
        · refine hrun.trans ?_
          rw [List.append_assoc]
          rfl
        · intro out hout
          rw [hall out hout]
    | push v => exact ih (v :: stack) s asked
    | operate op =>
      simp only [run]
      cases op.step stack with
      | ok next => exact ih next s asked
      | error e =>
        refine ⟨[], List.nil_prefix, by rw [List.append_nil]; rfl, ?_⟩
        rintro out ⟨⟩

/-- So it is with the value that the code reduces to. -/
theorem evaluateCode_watched (code : List Instruction) (s : σ) :
    ∃ front, front <+: code.filterMap Instruction.column? ∧
      (evaluateCode raise (watched lookup) code).run.run (s, []) =
        (((evaluateCode raise lookup code).run.run s).1,
          ((evaluateCode raise lookup code).run.run s).2, front) ∧
      ∀ v, ((evaluateCode raise lookup code).run.run s).1 = .ok v →
        front = code.filterMap Instruction.column? := by
  obtain ⟨front, hfront, hrun, hall⟩ := run_watched raise lookup code [] s []
  simp only [evaluateCode, Outcome.run_run_bind, hrun, List.nil_append]
  rcases hcode : (run raise lookup code []).run.run s with ⟨e | stack, after⟩
  · refine ⟨front, hfront, rfl, ?_⟩
    rintro v ⟨⟩
  · rw [hcode] at hall
    refine ⟨front, hfront, ?_, fun _ _ => hall stack rfl⟩
    simp only [run_single]

end Watched

section Noted

variable {ε α : Type} (raise : EvalError → ε) (lookup : Column → Except ε Value)

/-- The columns that a run asks for, of those that its code loads, and what they have to do with its
result. -/
structure Asks (loads asked : List Column) (result : Except ε α) : Prop where
  first : asked <+: loads
  /-- A run that does not fail asks for all of them. -/
  all : ∀ a, result = .ok a → asked = loads
  /-- A run fails with the first of them that has no value, -/
  stops : ∀ c ∈ asked, ∀ e, lookup c = .error e → result = .error e
  /-- or by an operator. -/
  fails : ∀ e, result = .error e → (∃ cause, e = raise cause) ∨ ∃ c ∈ asked, lookup c = .error e

variable {raise lookup}

theorem asks_nothing {loads : List Column} (cause : EvalError) :
    Asks raise lookup loads [] (.error (raise cause) : Except ε α) where
  first := List.nil_prefix
  all _ h := by cases h
  stops _ hc := by cases hc
  fails e h := by
    cases h
    exact .inl ⟨cause, rfl⟩

theorem Asks.load {loads asked : List Column} {result : Except ε α} {c : Column} {v : Value}
    (h : Asks raise lookup loads asked result) (hc : lookup c = .ok v) :
    Asks raise lookup (c :: loads) (c :: asked) result where
  first := List.cons_prefix_cons.2 ⟨rfl, h.first⟩
  all a ha := by rw [h.all a ha]
  stops := by
    refine List.forall_mem_cons.2 ⟨fun e he => ?_, h.stops⟩
    rw [hc] at he
    cases he
  fails e he := (h.fails e he).imp_right fun ⟨d, hd, hanswer⟩ =>
    ⟨d, List.mem_cons_of_mem _ hd, hanswer⟩

/-- What follows a run asks for nothing more. -/
theorem Asks.bind {β : Type} {loads asked : List Column} {result : Except ε α}
    (h : Asks raise lookup loads asked result) {f : α → Except ε β}
    (hf : ∀ a e, f a = .error e → ∃ cause, e = raise cause) :
    Asks raise lookup loads asked (result >>= f) where
  first := h.first
  all b hb := by
    obtain ⟨a, ha, -⟩ := Outcome.bind_eq_ok_iff.1 hb
    exact h.all a ha
  stops c hc e he := by
    rw [h.stops c hc e he]
    rfl
  fails e he := by
    rcases Outcome.bind_eq_error_iff.1 he with he | ⟨a, -, he⟩
    · exact h.fails e he
    · exact .inl (hf a e he)

variable (raise lookup)

/-- A run that notes what it asks for has the result of one that does not. -/
theorem run_noting_asks (code : List Instruction) (stack : List Value) (asked : List Column) :
    ∃ more, (run raise (noting lookup) code stack).run.run asked =
        ((run (m := Id) raise lookup code stack).run, asked ++ more) ∧
      Asks raise lookup (code.filterMap Instruction.column?) more
        (run (m := Id) raise lookup code stack).run := by
  induction code generalizing stack asked with
  | nil =>
    refine ⟨[], by rw [List.append_nil]; rfl, List.nil_prefix, fun _ _ => rfl, ?_, ?_⟩
    · intro c hc
      cases hc
    · rintro e ⟨⟩
  | cons i code ih =>
    cases i with
    | load c =>
      have hloads : (Instruction.load c :: code).filterMap Instruction.column? =
          c :: code.filterMap Instruction.column? := rfl
      rw [hloads, run, run, Outcome.run_run_bind, run_noting]
      cases hanswer : lookup c with
      | error e =>
        refine ⟨[c], rfl, by simp, ?_, ?_, ?_⟩
        · rintro out ⟨⟩
        · intro d hd e' he'
          obtain rfl := List.mem_singleton.1 hd
          rw [hanswer] at he'
          cases he'
          rfl
        · rintro e' ⟨⟩
          exact .inr ⟨c, List.mem_singleton_self c, hanswer⟩
      | ok v =>
        obtain ⟨more, hrun, hasks⟩ := ih (v :: stack) (asked ++ [c])
        refine ⟨c :: more, hrun.trans ?_, hasks.load hanswer⟩
        rw [List.append_assoc]
        rfl
    | push v => exact ih (v :: stack) asked
    | operate op =>
      simp only [run]
      cases op.step stack with
      | ok next => exact ih next asked
      | error e => exact ⟨[], by rw [List.append_nil]; rfl, asks_nothing e⟩

/-- So it is with the value that the code reduces to. -/
theorem evaluateCode_noting_asks (code : List Instruction) :
    ∃ asked, (evaluateCode raise (noting lookup) code).run.run [] =
        ((evaluateCode (m := Id) raise lookup code).run, asked) ∧
      Asks raise lookup (code.filterMap Instruction.column?) asked
        (evaluateCode (m := Id) raise lookup code).run := by
  obtain ⟨asked, hrun, hasks⟩ := run_noting_asks raise lookup code [] []
  have hvalue : (evaluateCode (m := Id) raise lookup code).run =
      bind (m := Except ε) (run (m := Id) raise lookup code []).run fun stack =>
        (single (m := Id) raise stack).run := Outcome.run_bind_id _ _
  refine ⟨asked, ?_, ?_⟩
  · rw [hvalue, evaluateCode, Outcome.run_run_bind, hrun, List.nil_append]
    cases (run (m := Id) raise lookup code []).run with
    | error e => rfl
    | ok stack => exact run_single raise stack asked
  · rw [hvalue]
    refine hasks.bind fun stack e he => ?_
    rcases stack with _ | ⟨v, _ | ⟨w, rest⟩⟩
    · exact ⟨_, (Except.error.inj he).symm⟩
    · cases he
    · exact ⟨_, (Except.error.inj he).symm⟩

end Noted

theorem load_mem_iff {code : List Instruction} {c : Column} :
    .load c ∈ code ↔ c ∈ code.filterMap Instruction.column? := by
  rw [List.mem_filterMap]
  constructor
  · intro h
    exact ⟨.load c, h, rfl⟩
  · rintro ⟨i, hi, hcolumn⟩
    cases i <;> cases hcolumn
    exact hi

/-- The code of a tree loads exactly the columns that the tree names. -/
theorem load_mem_iff_names {e : Expr} {code : List Instruction} (h : e.compile = .ok code)
    {c : Column} : .load c ∈ code ↔ e.Names c := by
  rw [load_mem_iff, Expr.loads_compile h, List.mem_filterMap]
  simp only [Expr.mem_visited_iff (Expr.isCall_of_compile h), Expr.Names]

/-- No two reported columns are of one identity. -/
theorem nodup_identity_columns (p : Program) : (p.columns.map Column.identity).Nodup := by
  have hrising := pairwise_distinct Column.order (p.code.filterMap Instruction.column?)
  refine List.pairwise_map.2 (hrising.imp fun hlt hsame => ?_)
  rw [Column.order_eq_iff.2 hsame] at hlt
  cases hlt

theorem columns_eq_nil_iff {p : Program} : p.columns = [] ↔ ∀ c, .load c ∉ p.code := by
  constructor
  · intro h c hc
    obtain ⟨b, hb, -⟩ := exists_mem_columns hc
    rw [h] at hb
    cases hb
  · intro h
    exact List.eq_nil_iff_forall_not_mem.2 fun c hc => h c (load_mem_of_mem_columns hc)

/-- Code does the same under lookups that agree on the columns that it loads. -/
theorem run_congr {m : Type → Type} [Monad m] {ε : Type} (raise : EvalError → ε)
    {lookup lookup' : Column → ExceptT ε m Value} {code : List Instruction}
    (h : ∀ c, .load c ∈ code → lookup c = lookup' c) (stack : List Value) :
    run raise lookup code stack = run raise lookup' code stack := by
  have hsame : Instruction.rename id = id := by
    funext i
    cases i <;> rfl
  simpa [hsame] using (run_rename raise (f := id) (fun c hc => (h c hc).symm) stack).symm

/-- Code that loads nothing has one result, which no lookup takes part in. -/
theorem run_of_no_load {code : List Instruction} (h : ∀ c, .load c ∉ code) (stack : List Value) :
    ∃ result : Except EvalError (List Value), ∀ (m : Type → Type) [Monad m] {ε : Type}
      (raise : EvalError → ε) (lookup : Column → ExceptT ε m Value),
      run raise lookup code stack = EvalError.raising raise result := by
  induction code generalizing stack with
  | nil => exact ⟨.ok stack, fun _ _ _ _ _ => rfl⟩
  | cons i code ih =>
    have hrest := ih fun c hc => h c (List.mem_cons_of_mem i hc)
    cases i with
    | load c => exact absurd List.mem_cons_self (h c)
    | push v => exact hrest (v :: stack)
    | operate op =>
      simp only [run]
      cases op.step stack with
      | ok next => exact hrest next
      | error e => exact ⟨.error e, fun _ _ _ _ _ => rfl⟩

theorem evaluateCode_of_no_load {code : List Instruction} (h : ∀ c, .load c ∉ code) :
    ∃ result : Except EvalError Value, ∀ (m : Type → Type) [Monad m] [LawfulMonad m] {ε : Type}
      (raise : EvalError → ε) (lookup : Column → ExceptT ε m Value),
      evaluateCode raise lookup code = EvalError.raising raise result := by
  obtain ⟨result, hresult⟩ := run_of_no_load h []
  refine ⟨result >>= fun stack => (single (m := Id) id stack).run, ?_⟩
  intro m _ _ ε raise lookup
  simp only [evaluateCode, hresult, EvalError.raising_bind, ← single_eq_raising]

/-- What a program reports is all that it reads. -/
structure ReadsOnly (p : Program) (e : Expr) : Prop where
  /-- Only columns that the tree names are reported, -/
  named : ∀ c ∈ p.columns, e.Names c
  /-- all of them, for columns are known by their identity, -/
  reported : ∀ c, e.Names c → ∃ b ∈ p.columns, b.identity = c.identity
  /-- and each once. -/
  once : (p.columns.map Column.identity).Nodup
  /-- A run asks for the columns of the nodes, node by node, until it fails. -/
  asks : ∀ {σ ε : Type} (raise : EvalError → ε) (lookup : Column → ExceptT ε (StateM σ) Value)
    (s : σ), ∃ front, front <+: e.lookups ∧
      (evaluateCode raise (watched lookup) p.code).run.run (s, []) =
        (((evaluateCode raise lookup p.code).run.run s).1,
          ((evaluateCode raise lookup p.code).run.run s).2, front) ∧
      ∀ v, ((evaluateCode raise lookup p.code).run.run s).1 = .ok v → front = e.lookups
  /-- Lookups that agree on what is reported lead to the same value or failure. -/
  congr : ∀ (m : Type → Type) [Monad m] {ε : Type} (raise : EvalError → ε)
    (lookup lookup' : Column → ExceptT ε m Value),
    (∀ b ∈ p.columns, ∀ c, c.identity = b.identity → lookup c = lookup' c) →
    evaluateCode raise lookup p.code = evaluateCode raise lookup' p.code
  /-- Nothing is reported exactly if the tree is constant, -/
  constant : e.isConstant = true ↔ p.columns = []
  /-- and then no lookup takes part in the result. -/
  fixed : p.columns = [] → ∃ result : Except EvalError Value, ∀ (m : Type → Type) [Monad m]
    [LawfulMonad m] {ε : Type} (raise : EvalError → ε) (lookup : Column → ExceptT ε m Value),
    evaluateCode raise lookup p.code = EvalError.raising raise result

/-- A compiled expression reports the columns of its tree, and reads nothing else. -/
theorem readsOnly_of_ofExpr {e : Expr} {p : Program} (h : Program.ofExpr e = .ok p) :
    p.ReadsOnly e := by
  obtain ⟨code, hcode, hp⟩ := Outcome.bind_eq_ok_iff.1 h
  cases hp
  have hloads : code.filterMap Instruction.column? = e.lookups := Expr.loads_compile hcode
  have hload (c : Column) : .load c ∈ code ↔ e.Names c := load_mem_iff_names hcode
  refine ⟨?_, ?_, nodup_identity_columns _, ?_, ?_, ?_, ?_⟩
  · exact fun c hc => (hload c).1 (load_mem_of_mem_columns hc)
  · exact fun c hc => exists_mem_columns ((hload c).2 hc)
  · intro σ ε raise lookup s
    rw [← hloads]
    exact evaluateCode_watched raise lookup code s
  · intro m _ ε raise lookup lookup' hagree
    have hsame : ∀ c, .load c ∈ code → lookup c = lookup' c := by
      intro c hc
      obtain ⟨b, hb, hidentity⟩ := (⟨e, code⟩ : Program).exists_mem_columns hc
      exact hagree b hb c hidentity.symm
    simp only [evaluateCode, run_congr raise hsame]
  · rw [columns_eq_nil_iff, Expr.isConstant_iff]
    simp only [hload]
    constructor
    · rintro hnone c ⟨d, hd, hc⟩
      rw [hnone d hd] at hc
      cases hc
    · intro hnone d hd
      exact Option.eq_none_iff_forall_ne_some.2 fun c hc => hnone c ⟨d, hd, hc⟩
  · exact fun hnil => evaluateCode_of_no_load (columns_eq_nil_iff.1 hnil)

/-- The dividend's column stands before the divisor's and is looked up after it. -/
theorem readsOnly_sampleClauses :
    ∃ p, Program.ofExpr sampleClauses = .ok p ∧
      p.columns = [sampleColumn 0 .int32, sampleColumn 1 .int32, sampleColumn 2 .boolean] ∧
      sampleClauses.lookups =
        [sampleColumn 1 .int32, sampleColumn 0 .int32, sampleColumn 2 .boolean] ∧
      p.ReadsOnly sampleClauses :=
  ⟨_, rfl, by decide, by decide, readsOnly_of_ofExpr rfl⟩

end Program

end RowFlags
