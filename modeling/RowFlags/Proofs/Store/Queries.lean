import RowFlags.Proofs.Expression.Depth
import RowFlags.Proofs.Expression.Lookups
import RowFlags.Proofs.Store.Damage
import RowFlags.Proofs.Store.Isolation

/-!
# What queries answer

A query says of each row what its condition is on the row's values (`Store.answer`). It refuses
conditions that do not compile or name columns of other tables, and classes of other tables. Every
other query goes through the rows that it concerns, in rising order: it fails as the first row on
which the condition fails, and otherwise finds, or counts, the rows on which the condition is truthy
(`Store.query_answers`). This holds of every store that objects were written to, whatever was
deleted and restored in between, for such a store has a value for every column of every live row
(`Store.Reached.sound`).
-/

set_option autoImplicit false

namespace RowFlags.Store

/-! ## Stores of a session -/

/-- A store for one of the tables that began empty. Objects with short texts were written to it,
rows were deleted, and in between it may have been restored from its own snapshot. -/
inductive Reached (tables : List Table) : Store → Prop
  | empty {t : Table} (ht : t ∈ tables) : Reached tables (empty t)
  | perform {s : Store} (h : Reached tables s) {command : Command} (hshort : command.Short) :
    Reached tables (s.perform command)
  | restore {s next : Store} (h : Reached tables s) (hfits : s.Fits) {t : Table} (ht : t ∈ tables)
    (hrestore : restore t s.snapshot = .ok next) : Reached tables next

theorem Reached.run {tables : List Table} {s : Store} (h : Reached tables s)
    {commands : List Command} (hshort : ∀ command ∈ commands, command.Short) :
    Reached tables (s.run commands) := by
  induction commands generalizing s with
  | nil => exact h
  | cons command rest ih =>
    exact ih (h.perform (hshort command List.mem_cons_self)) fun other hother =>
      hshort other (List.mem_cons_of_mem _ hother)

theorem Reached.sound {tables : List Table} {s : Store} (h : Reached tables s) :
    s.Sound ∧ s.table ∈ tables := by
  induction h with
  | @empty t ht => exact ⟨sound_empty t, ht⟩
  | @perform s h command hshort ih =>
    obtain ⟨hsound, htable⟩ := ih.1.perform hshort
    exact ⟨hsound, htable ▸ ih.2⟩
  | @restore s next h hfits t ht hrestore ih =>
    have htable : next.table = t := by
      obtain ⟨_, -, -, -, rfl⟩ := restore_eq_ok_iff.1 hrestore
      rfl
    rw [← List.append_nil s.snapshot] at hrestore
    exact ⟨(ih.1.of_restore hfits hrestore).2, htable ▸ ht⟩

/-! ## Answers of rows -/

/-- The value that a row has in a column. -/
def valueAt (s : Store) (row : RowId) (c : Column) : Value :=
  ((s.values row).toOption.bind (·[c.position]?)).getD .null

/-- What a condition is on a row. -/
def answer (s : Store) (condition : Expr) (row : RowId) : Except EvalError Value :=
  (condition.interpret (m := Id) id fun c => pure (s.valueAt row c)).run

/-- The rows on which a condition is truthy. -/
def truthyRows (s : Store) (condition : Expr) (rows : List RowId) : List RowId :=
  rows.filter fun row => Value.truthy <$> s.answer condition row = .ok true

/-- The condition fails on one of the rows and has a value on all rows before it. -/
def FirstFailure (s : Store) (condition : Expr) (rows : List RowId) (cause : EvalError) : Prop :=
  ∃ front row back, rows = front ++ row :: back ∧ s.answer condition row = .error cause ∧
    ∀ earlier ∈ front, ∃ v, s.answer condition earlier = .ok v

/-- The condition compiles and names columns of the store's table only. -/
structure Accepts (s : Store) (condition : Expr) : Prop where
  compiles : ∃ p, Program.ofExpr condition = .ok p
  own : ∀ c, condition.Names c → s.table.contains c = true

/-- How a store refuses a condition that it does not accept. -/
inductive Refuses (s : Store) (condition : Expr) : StoreError → Prop
  | uncompiled {cause : EvalError} (h : Program.ofExpr condition = .error cause) :
    Refuses s condition (.eval cause)
  | foreign {p : Program} (h : Program.ofExpr condition = .ok p) {c : Column}
    (hnamed : condition.Names c) (hforeign : s.table.contains c = false) :
    Refuses s condition (.foreignColumn c s.table.name)

/-- A query gives `a` if the condition has a value on each of the rows, and otherwise fails as the
first row does on which it has none. The rows' values are what it can fail by, and nothing else. -/
structure GoesBy {α : Type} (s : Store) (condition : Expr) (rows : List RowId)
    (query : Except StoreError α) (a : α) : Prop where
  gives : ∀ b, query = .ok b ↔ b = a ∧ ∀ row ∈ rows, ∃ v, s.answer condition row = .ok v
  fails : ∀ e, query = .error e ↔ ∃ cause, e = .eval cause ∧ s.FirstFailure condition rows cause
  faults : ∀ e, query = .error e → ∃ cause, e = .eval cause ∧ cause.OfOperands

section Answers

variable {s : Store} {condition : Expr} {rows : List RowId}

theorem firstFailure_iff {cause : EvalError} :
    s.FirstFailure condition rows cause ↔
      rows.findSome? (fun row => Outcome.failure? (s.answer condition row)) = some cause := by
  simp only [FirstFailure, List.findSome?_eq_some_iff, Outcome.failure?_eq_some_iff,
    Outcome.failure?_eq_none_iff]

theorem FirstFailure.unique {cause other : EvalError}
    (h : s.FirstFailure condition rows cause) (k : s.FirstFailure condition rows other) :
    cause = other :=
  Option.some.inj ((firstFailure_iff.1 h).symm.trans (firstFailure_iff.1 k))

theorem FirstFailure.not_all {cause : EvalError} (h : s.FirstFailure condition rows cause) :
    ¬ ∀ row ∈ rows, ∃ v, s.answer condition row = .ok v := by
  obtain ⟨front, row, back, rfl, hrow, -⟩ := h
  intro hall
  obtain ⟨v, hv⟩ := hall row (by simp)
  rw [hrow] at hv
  cases hv

/-- A live row of a sound store has a value in every column of the table. -/
theorem Sound.getElem?_eq_valueAt (h : s.Sound) {row : RowId} (hrow : row ∈ s.liveRows) :
    ∃ values, s.values row = .ok values ∧
      ∀ c, s.table.contains c = true → values[c.position]? = some (s.valueAt row c) := by
  obtain ⟨values, hvalues, hlength⟩ := h.exists_values hrow
  refine ⟨values, hvalues, fun c hc => ?_⟩
  have hplace : c.position < values.length := by
    rw [hlength]
    simpa using (Bool.and_eq_true_iff.1 hc).2
  have hvalue : values[c.position]? = some values[c.position] := List.getElem?_eq_getElem hplace
  simp [valueAt, hvalues, Except.toOption, hvalue]

/-- An accepted condition compiles for the store. -/
theorem Accepts.exists_compile (h : s.Accepts condition) :
    ∃ code, condition.compile = .ok code ∧ s.compile condition = .ok ⟨condition, code⟩ := by
  obtain ⟨p, hp⟩ := h.compiles
  obtain ⟨code, hcode, rfl⟩ := Program.ofExpr_eq_ok_iff.1 hp
  exact ⟨code, hcode, compile_eq_ok hp fun c hc =>
    h.own c ((Program.load_mem_iff_names hcode).1 (Program.load_mem_of_mem_columns hc))⟩

/-- The compiled condition evaluates to the answer of the row. -/
theorem Accepts.evaluateRow_eq (h : s.Accepts condition) {code : List Instruction}
    (hcode : condition.compile = .ok code) {row : RowId} {values : List Value}
    (hvalues : ∀ c, s.table.contains c = true → values[c.position]? = some (s.valueAt row c)) :
    evaluateRow ⟨condition, code⟩ values = s.answer condition row := by
  have hrow : (⟨condition, code⟩ : Program).evaluate id (fun c => .ok (s.valueAt row c)) =
      (evaluateRow ⟨condition, code⟩ values).mapError id :=
    evaluate_eq_evaluateRow id fun c hc =>
      ⟨_, hvalues c (h.own c ((Program.load_mem_iff_names hcode).1 hc)), rfl⟩
  rw [Outcome.mapError_id] at hrow
  exact hrow.symm.trans (Program.evaluate_of_compile id _ hcode)

/-- An accepted condition fails by the operands of an operator at most. -/
theorem Accepts.ofOperands (h : s.Accepts condition) {row : RowId} {cause : EvalError}
    (hanswer : s.answer condition row = .error cause) : cause.OfOperands := by
  obtain ⟨code, hcode, -⟩ := h.exists_compile
  exact Expr.ofOperands_of_interpret hcode hanswer

/-- With a mapping through which every row decodes, counting is choosing among all rows. -/
theorem tally_eq_choose (program : Program) {m : Mapping} (rows : List (RowId × List Value))
    (hdecode : ∀ values, ∃ r, decode m values = .ok r) :
    tally program rows = List.length <$> choose program (fun _ => true) m rows := by
  induction rows with
  | nil => rfl
  | cons first rest ih =>
    obtain ⟨r, hr⟩ := hdecode first.2
    simp only [tally, choose, if_true, hr, ih, Outcome.ok_bind]
    cases evaluateRow program first.2 with
    | error cause => rfl
    | ok v =>
      simp only [Outcome.mapError_ok, Outcome.ok_bind]
      cases v.truthy <;> cases choose program (fun _ => true) m rest <;> rfl

/-- A condition that is not accepted does not get past compiling. -/
theorem exists_refuses (h : ¬ s.Accepts condition) :
    ∃ e, s.Refuses condition e ∧ s.compile condition = .error e := by
  cases hp : Program.ofExpr condition with
  | error cause =>
    refine ⟨_, .uncompiled hp, ?_⟩
    rw [Store.compile, hp]
    rfl
  | ok p =>
    obtain ⟨code, hcode, rfl⟩ := Program.ofExpr_eq_ok_iff.1 hp
    cases hfind : (⟨condition, code⟩ : Program).columns.find? (fun c => !s.table.contains c) with
    | none =>
      refine absurd ⟨⟨_, hp⟩, fun c hc => ?_⟩ h
      exact find?_foreign_eq_none_iff.1 hfind c ((Program.load_mem_iff_names hcode).2 hc)
    | some c =>
      have hforeign : s.table.contains c = false := by simpa using List.find?_some hfind
      have hload := Program.load_mem_of_mem_columns (List.mem_of_find?_eq_some hfind)
      refine ⟨_, .foreign hp ((Program.load_mem_iff_names hcode).1 hload) hforeign, ?_⟩
      rw [Store.compile, hp, Outcome.mapError_ok, Outcome.ok_bind]
      simp only [hfind]

theorem goesBy_of_cases {α : Type} (haccepts : s.Accepts condition) {query : Except StoreError α}
    {a : α}
    (h : (∀ row ∈ rows, ∃ v, s.answer condition row = .ok v) ∧ query = .ok a ∨
      ∃ cause, s.FirstFailure condition rows cause ∧ query = .error (.eval cause)) :
    s.GoesBy condition rows query a := by
  rcases h with ⟨hall, rfl⟩ | ⟨cause, hfirst, rfl⟩
  · refine ⟨?_, ?_, ?_⟩
    · intro b
      rw [and_iff_left hall, Except.ok.injEq, eq_comm]
    · intro e
      refine iff_of_false (fun h => nomatch h) ?_
      rintro ⟨cause, -, hfirst⟩
      exact hfirst.not_all hall
    · rintro e ⟨⟩
  · refine ⟨?_, ?_, ?_⟩
    · intro b
      exact iff_of_false (fun h => nomatch h) fun h => hfirst.not_all h.2
    · intro e
      constructor
      · rintro ⟨⟩
        exact ⟨cause, rfl, hfirst⟩
      · rintro ⟨other, rfl, hother⟩
        rw [hfirst.unique hother]
    · rintro e ⟨⟩
      obtain ⟨front, row, back, -, hrow, -⟩ := hfirst
      exact ⟨cause, rfl, haccepts.ofOperands hrow⟩

theorem GoesBy.map {α β : Type} {query : Except StoreError α} {a : α}
    (h : s.GoesBy condition rows query a) (f : α → β) :
    s.GoesBy condition rows (f <$> query) (f a) where
  gives b := by
    simp only [Outcome.map_eq_ok_iff, h.gives]
    constructor
    · rintro ⟨_, ⟨rfl, hall⟩, rfl⟩
      exact ⟨rfl, hall⟩
    · rintro ⟨rfl, hall⟩
      exact ⟨a, ⟨rfl, hall⟩, rfl⟩
  fails e := by rw [Outcome.map_eq_error_iff, h.fails]
  faults e := by
    rw [Outcome.map_eq_error_iff]
    exact h.faults e

/-- What goes by the same rows and gives the same is the same. -/
theorem GoesBy.eq {α : Type} {query other : Except StoreError α} {a : α}
    (h : s.GoesBy condition rows query a) (k : s.GoesBy condition rows other a) :
    query = other := by
  cases hquery : query with
  | ok b => exact ((k.gives b).2 ((h.gives b).1 hquery)).symm
  | error e => exact ((k.fails e).2 ((h.fails e).1 hquery)).symm

variable {m : Mapping}

/-- Choosing by an accepted condition goes by the rows that are let through. -/
theorem choose_goesBy (sees : List Value → Bool) (shown : RowId → Bool)
    (haccepts : s.Accepts condition) {code : List Instruction}
    (hcode : condition.compile = .ok code) {valuesAt : RowId → List Value} {object : RowId → Record}
    (hvalues : ∀ row ∈ rows, ∀ c, s.table.contains c = true →
      (valuesAt row)[c.position]? = some (s.valueAt row c))
    (hshown : ∀ row ∈ rows, sees (valuesAt row) = shown row)
    (hobject : ∀ row ∈ rows, decode m (valuesAt row) = .ok (object row)) :
    s.GoesBy condition (rows.filter shown)
      (choose ⟨condition, code⟩ sees m (rows.map fun row => (row, valuesAt row)))
      ((s.truthyRows condition (rows.filter shown)).map fun row => (row, object row)) := by
  have hanswer : ∀ row ∈ rows, Value.truthy <$> s.answer condition row =
      (Value.truthy <$> evaluateRow ⟨condition, code⟩ (valuesAt row)).mapError id := by
    intro row hrow
    rw [Outcome.mapError_id, haccepts.evaluateRow_eq hcode (hvalues row hrow)]
  have hok (row : RowId) : (∃ on, Value.truthy <$> s.answer condition row = .ok on) →
      ∃ v, s.answer condition row = .ok v := by
    rintro ⟨on, hon⟩
    obtain ⟨v, hv, -⟩ := Outcome.map_eq_ok_iff.1 hon
    exact ⟨v, hv⟩
  refine goesBy_of_cases haccepts ?_
  rcases choose_cases hshown hobject hanswer with
    ⟨hall, hchoose⟩ | ⟨cause, front, row, back, hsplit, hfront, hrow, hchoose⟩
  · exact .inl ⟨fun row hrow => hok row (hall row hrow), hchoose⟩
  · refine .inr ⟨cause, ⟨front, row, back, hsplit, Outcome.map_eq_error_iff.1 hrow, ?_⟩, hchoose⟩
    exact fun earlier hearlier => hok earlier (hfront earlier hearlier)

/-- An accepted query for objects goes by the rows that the class sees. -/
theorem exists_filter_goesBy (hwell : m.WellFormed) (htable : m.table = s.table)
    (hsound : s.Sound) (haccepts : s.Accepts condition) : ∃ object : RowId → Record,
    (∀ row ∈ s.liveRows, s.load m row = .ok (object row)) ∧
      s.GoesBy condition (s.visibleRows m) (s.filter m condition)
        ((s.truthyRows condition (s.visibleRows m)).map fun row => (row, object row)) := by
  obtain ⟨code, hcode, hcompile⟩ := haccepts.exists_compile
  obtain ⟨sees, hsees, hshown⟩ := s.exists_visible hwell
  obtain ⟨valuesAt, hvalues⟩ := exists_valuesAt fun row hrow => hsound.getElem?_eq_valueAt hrow
  obtain ⟨object, hobject⟩ := Classical.skolem.1 fun row =>
    (decode_eq_ok hwell (valuesAt row)).imp fun _ => And.left
  refine ⟨object, ?_, ?_⟩
  · intro row hrow
    rw [load_eq_bind htable, (hvalues row hrow).1]
    exact hobject row
  · rw [filter_eq_choose htable hcompile hsees fun row hrow => (hvalues row hrow).1]
    exact choose_goesBy sees (s.shows m) haccepts hcode (fun row hrow => (hvalues row hrow).2)
      (fun row hrow => hshown row _ (hvalues row hrow).1) fun row _ => hobject row

/-- An accepted count goes by all rows. -/
theorem count_goesBy (hsound : s.Sound) (haccepts : s.Accepts condition) :
    s.GoesBy condition s.liveRows (s.count condition)
      (s.truthyRows condition s.liveRows).length := by
  obtain ⟨code, hcode, hcompile⟩ := haccepts.exists_compile
  obtain ⟨valuesAt, hvalues⟩ := exists_valuesAt fun row hrow => hsound.getElem?_eq_valueAt hrow
  -- a class without attributes decodes whatever a row holds
  let m : Mapping := ⟨⟨0⟩, "", s.table, [], none, none⟩
  have hdecode (values : List Value) : decode m values = .ok m.newRecord := rfl
  have hcount : s.count condition = List.length <$>
      choose ⟨condition, code⟩ (fun _ => true) m
        (s.liveRows.map fun row => (row, valuesAt row)) := by
    unfold count
    rw [hcompile, Outcome.ok_bind, scan_eq fun row hrow => (hvalues row hrow).1, Outcome.ok_bind]
    exact tally_eq_choose _ _ fun values => ⟨_, hdecode values⟩
  have hchoose := choose_goesBy (fun _ => true) (fun _ => true) haccepts hcode
    (fun row hrow => (hvalues row hrow).2) (fun _ _ => rfl) fun row _ => hdecode (valuesAt row)
  have hall : s.liveRows.filter (fun _ => true) = s.liveRows := by simp
  rw [hall] at hchoose
  simpa [hcount] using hchoose.map List.length

theorem visibleRows_of_unrestricted (h : m.parent = none ∨ m.discriminator = none) :
    s.visibleRows m = s.liveRows := by
  rw [visibleRows, List.filter_eq_self]
  intro row _
  unfold shows
  rcases h with h | h
  · rw [h]
  · rw [h]
    cases m.parent <;> rfl

/-- A class with a parent and a discriminator sees the rows that hold its identity. -/
theorem exists_visibleRows_eq (hwell : m.WellFormed) (htable : m.table = s.table)
    (hsound : s.Sound) {parent : ClassId} {d : Discriminator} (hparent : m.parent = some parent)
    (hd : m.discriminator = some d) : ∃ p, m.property? d.key = some p ∧
      s.visibleRows m = s.liveRows.filter fun row => s.valueAt row p.column = d.identity := by
  obtain ⟨p, hp⟩ := Option.isSome_iff_exists.1 (hwell.identified d hd)
  refine ⟨p, hp, List.filter_congr fun row hrow => ?_⟩
  have hown : p.column ∈ s.table.columns := by
    rw [← htable]
    exact hwell.binds.own p (List.mem_of_find?_eq_some hp)
  obtain ⟨values, hvalues, hbound⟩ := hsound.getElem?_eq_valueAt hrow
  have hvalue := hbound p.column (Table.contains_of_mem hown)
  simp only [shows, hparent, hd, hp, hvalues, hvalue, Option.some.injEq]

/-- A class finds its own of all rows that are found without a parent, if nothing fails there. -/
theorem filter_eq_of_whole (hwell : m.WellFormed) (htable : m.table = s.table) (hsound : s.Sound)
    (haccepts : s.Accepts condition) {mine : RowId → Bool}
    (hvisible : s.visibleRows m = s.liveRows.filter mine) {all : List (RowId × Record)}
    (hall : s.filter { m with parent := none } condition = .ok all) :
    s.filter m condition = .ok (all.filter fun entry => mine entry.1) := by
  obtain ⟨object, hload, hfilter⟩ := exists_filter_goesBy hwell htable hsound haccepts
  let whole : Mapping := { m with parent := none }
  have hwhole : whole.WellFormed := ⟨hwell.binds, hwell.identified⟩
  obtain ⟨object', hload', hfilter'⟩ := exists_filter_goesBy hwhole htable hsound haccepts
  rw [visibleRows_of_unrestricted (.inl rfl)] at hfilter'
  obtain ⟨rfl, hanswers⟩ := (hfilter'.gives all).1 hall
  rw [hvisible] at hfilter
  refine (hfilter.gives _).2 ⟨?_, fun row hrow => hanswers row (List.mem_filter.1 hrow).1⟩
  rw [List.filter_map]
  have hrows : (s.truthyRows condition s.liveRows).filter mine =
      s.truthyRows condition (s.liveRows.filter mine) := List.filter_comm _ _ _
  rw [← hrows]
  -- the same object is made with and without the parent
  refine List.map_congr_left fun row hrow => ?_
  have hlive : row ∈ s.liveRows := (List.mem_filter.1 (List.mem_filter.1 hrow).1).1
  have hobject : object' row = object row :=
    Except.ok.inj ((hload' row hlive).symm.trans (hload row hlive))
  rw [hobject]

/-- What a query for the objects of a class answers. -/
structure Finds (s : Store) (m : Mapping) (condition : Expr) : Prop where
  /-- It finds the rows that the class sees and on which the condition is truthy, as they load, -/
  objects : ∃ object : RowId → Record,
    (∀ row ∈ s.liveRows, s.load m row = .ok (object row)) ∧
      s.GoesBy condition (s.visibleRows m) (s.filter m condition)
        ((s.truthyRows condition (s.visibleRows m)).map fun row => (row, object row))
  /-- in rising order and none twice. -/
  rising : ∀ found, s.filter m condition = .ok found →
    found.Pairwise fun a b => a.1.number < b.1.number
  /-- A class without parent or discriminator sees all rows, and as many are counted as found. -/
  whole : m.parent = none ∨ m.discriminator = none →
    s.visibleRows m = s.liveRows ∧ s.count condition = List.length <$> s.filter m condition
  /-- Another class sees the rows that hold its identity, and these it finds of all that would be
  found without a parent, if nothing fails there. -/
  part : ∀ parent d, m.parent = some parent → m.discriminator = some d →
    ∃ p, m.property? d.key = some p ∧
      (∀ row, row ∈ s.visibleRows m ↔ row ∈ s.liveRows ∧ s.valueAt row p.column = d.identity) ∧
      ∀ all, s.filter { m with parent := none } condition = .ok all →
        s.filter m condition =
          .ok (all.filter fun entry => s.valueAt entry.1 p.column = d.identity)

theorem finds_of_accepts (hwell : m.WellFormed) (htable : m.table = s.table) (hsound : s.Sound)
    (haccepts : s.Accepts condition) : s.Finds m condition := by
  obtain ⟨object, hload, hfilter⟩ := exists_filter_goesBy hwell htable hsound haccepts
  refine ⟨⟨object, hload, hfilter⟩, ?_, ?_, ?_⟩
  · intro found hfound
    obtain ⟨rfl, -⟩ := (hfilter.gives found).1 hfound
    exact List.pairwise_map.2 ((s.pairwise_liveRows.filter _).filter _)
  · intro hunrestricted
    have hvisible := visibleRows_of_unrestricted (s := s) hunrestricted
    refine ⟨hvisible, (count_goesBy hsound haccepts).eq ?_⟩
    rw [hvisible] at hfilter
    simpa using hfilter.map List.length
  · intro parent d hparent hd
    obtain ⟨p, hp, hvisible⟩ := exists_visibleRows_eq hwell htable hsound hparent hd
    refine ⟨p, hp, fun row => ?_, fun all hall => ?_⟩
    · rw [hvisible, List.mem_filter, decide_eq_true_eq]
    · exact filter_eq_of_whole hwell htable hsound haccepts hvisible hall

end Answers

/-- What the queries by a condition answer, through the classes that a session holds. -/
structure Answers (session : Session) (s : Store) (condition : Expr) : Prop where
  /-- The live rows are listed in rising order, and each has a value in every column. -/
  rising : s.liveRows.Pairwise fun a b => a.number < b.number
  bound : ∀ row ∈ s.liveRows, ∃ values, s.values row = .ok values ∧
    ∀ c, s.table.contains c = true → values[c.position]? = some (s.valueAt row c)
  /-- The columns of other tables are the foreign ones. -/
  foreign : ∀ t ∈ session.tables, ∀ c ∈ t.columns,
    s.table.contains c = true ↔ c ∈ s.table.columns
  /-- A condition that is not accepted is refused by both queries alike. -/
  refuses : ¬ s.Accepts condition → ∃ e, s.Refuses condition e ∧ s.count condition = .error e ∧
    ∀ name m, session.Holds name m → m.table = s.table → s.filter m condition = .error e
  /-- So is a class of another table, whatever the condition. -/
  elsewhere : ∀ name m, session.Holds name m → m.table ≠ s.table →
    s.filter m condition = .error (.otherTable m.className m.table.name s.table.name)
  /-- Every other count is that of the rows on which the condition is truthy, -/
  counts : s.Accepts condition → s.GoesBy condition s.liveRows (s.count condition)
    (s.truthyRows condition s.liveRows).length
  /-- and every other query finds them. -/
  finds : s.Accepts condition → ∀ name m, session.Holds name m → m.table = s.table →
    s.Finds m condition

/-- In every store for a session's tables, queries go by their conditions on the rows. -/
theorem query_answers {session : Session} (hsession : session.Reached) {s : Store}
    (hs : Reached session.tables s) (condition : Expr) : s.Answers session condition := by
  obtain ⟨hsound, htable⟩ := hs.sound
  have hheld := hsession.sound
  refine ⟨s.pairwise_liveRows, fun row hrow => hsound.getElem?_eq_valueAt hrow, ?_, ?_, ?_,
    count_goesBy hsound, ?_⟩
  · intro t ht c hc
    exact Table.contains_iff hc fun hid => hheld.table_eq ht htable hid
  · intro hnot
    obtain ⟨e, hrefuses, hcompile⟩ := exists_refuses hnot
    refine ⟨e, hrefuses, ?_, fun name m hm hmapped => ?_⟩
    · rw [count, hcompile]
      rfl
    · rw [filter, checkClass_of_table hmapped, Outcome.ok_bind, hcompile]
      rfl
  · intro name m hm hother
    have hid : m.table.id ≠ s.table.id := fun hid =>
      hother (hheld.table_eq (hheld.mapping name m hm).1 htable hid)
    rw [filter, checkClass, if_neg hid]
    rfl
  · intro haccepts name m hm hmapped
    exact finds_of_accepts (hheld.mapping name m hm).2 hmapped hsound haccepts

/-- The sample's objects are added, and the heavy box is taken away. -/
def sampleWithdrawal : List Command :=
  sampleObjects.map (Command.insert sampleItem) ++ [.delete ⟨2⟩]

theorem short_sampleWithdrawal : ∀ command ∈ sampleWithdrawal, command.Short := by
  intro command hcommand
  rcases List.mem_append.1 hcommand with hcommand | hcommand
  · exact short_sampleObjects command hcommand
  · obtain rfl := List.mem_singleton.1 hcommand
    trivial

/-- In the store that is restored afterwards, the box is found, though the item without weight fails
the count. -/
theorem query_answers_sampleWithdrawal : ∃ s,
    restore sampleTable ((empty sampleTable).run sampleWithdrawal).snapshot = .ok s ∧
      s.Answers sampleSession sampleFlag.predicate ∧ s.Finds sampleBox sampleFlag.predicate ∧
      s.liveRows = [⟨0⟩, ⟨1⟩] ∧
      List.map Prod.fst <$> s.filter sampleBox sampleFlag.predicate = .ok [⟨0⟩] ∧
      s.count sampleFlag.predicate = .error (.eval .divisionByZero) := by
  have htables : sampleTable ∈ sampleSession.tables := by decide
  have hreached := (Reached.empty htables).run short_sampleWithdrawal
  have hfits := fits_run sampleTable short_sampleWithdrawal (by decide +kernel) (by decide)
  have hrestore : restore sampleTable ((empty sampleTable).run sampleWithdrawal).snapshot =
      .ok ⟨sampleTable, ((empty sampleTable).run sampleWithdrawal).slots⟩ := by
    have hall := restore_of_lasting (hfits.decodeSnapshot_snapshot []) sampleTable
    rwa [List.append_nil, if_neg (by decide +kernel), if_pos (by decide +kernel)] at hall
  have hanswers := query_answers reached_sampleSession (hreached.restore hfits htables hrestore)
    sampleFlag.predicate
  have haccepts : Accepts ⟨sampleTable, ((empty sampleTable).run sampleWithdrawal).slots⟩
      sampleFlag.predicate := by
    refine ⟨⟨_, rfl⟩, fun c hc => ?_⟩
    have hload : .load c ∈ sampleFlag.program.code := (Program.load_mem_iff_names rfl).2 hc
    obtain rfl : c = ⟨⟨1⟩, 1, "item", "weight", .int32⟩ := by simpa [sampleFlag] using hload
    decide
  refine ⟨_, hrestore, hanswers, ?_, ?_, ?_, ?_⟩
  · exact hanswers.finds haccepts "main" sampleBox (by show sampleBox ∈ _; decide) rfl
  · decide +kernel
  · decide +kernel
  · decide +kernel

end RowFlags.Store
