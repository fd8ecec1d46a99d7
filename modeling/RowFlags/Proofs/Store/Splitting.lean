import RowFlags.Proofs.Expression.Booleans
import RowFlags.Proofs.Store.Queries

/-!
# Conditions and their negations

A condition divides a store if it is true or false on every row (`Store.Divides`). Its negation then
has the opposite value on every row, in both forms that a negation takes, and divides the store too.
So a class finds each row that it sees by exactly one of the two, and their counts add up to the
number of rows (`Store.splits_rows`). The conditions of flags over the presence of columns that are
not Boolean are such conditions.
-/

set_option autoImplicit false

namespace RowFlags.Store

/-- The condition compiles for the store, and is true or false on every row. -/
def Divides (s : Store) (condition : Expr) : Prop :=
  ∃ program, s.compile condition = .ok program ∧ ∀ row ∈ s.liveRows, ∃ values b,
    s.values row = .ok values ∧ evaluateRow program values = .ok (.boolean b)

/-- Two lists of found rows split the rows that a class sees. -/
structure Splits (s : Store) (m : Mapping) (on off : List (RowId × Record)) : Prop where
  /-- No row is in both, -/
  apart : ∀ row ∈ on.map Prod.fst, row ∉ off.map Prod.fst
  /-- and each row that the class sees is in one of them, as it loads. -/
  together : ∀ row r, (row, r) ∈ on ++ off ↔ row ∈ s.visibleRows m ∧ s.load m row = .ok r

/-- How the conditions that divide a store split its rows. -/
structure SplitsRows (session : Session) (s : Store) : Prop where
  /-- A class finds by the condition what it does not find by the negation. -/
  found : ∀ condition, s.Divides condition →
    ∀ name m, session.Holds name m → m.table = s.table → ∃ on off,
      s.filter m condition = .ok on ∧ s.filter m condition.not = .ok off ∧ s.Splits m on off
  /-- What is not counted by the condition is counted by the negation. -/
  counted : ∀ condition, s.Divides condition → ∃ yes no,
    s.count condition = .ok yes ∧ s.count condition.not = .ok no ∧ yes + no = s.size
  /-- The flags over the presence of the table's columns that are not Boolean have conditions that
  divide the store. -/
  presence : ∀ f : Formula, (∀ c ∈ f.columns, c ∈ s.table.columns ∧ c.isBoolean = false) →
    ∀ id spec flag, spec.condition = f.toExpr → Flag.build id spec = .ok flag →
      s.Divides flag.predicate

section Negation

variable {s : Store} {condition : Expr} {row : RowId} {rows : List RowId}

theorem accepts_not (h : s.Accepts condition) : s.Accepts condition.not where
  compiles := by
    obtain ⟨code, hcode, -⟩ := h.exists_compile
    unfold Expr.not
    split
    · split <;> exact ⟨_, rfl⟩
    · rw [Program.ofExpr, Expr.compile, hcode]
      exact ⟨_, rfl⟩
  own c hc := h.own c (Expr.names_not.1 hc)

/-- What is a Boolean is negated to the other one, by a test as by the operator. -/
theorem answer_not {b : Bool} (h : s.answer condition row = .ok (.boolean b)) :
    s.answer condition.not row = .ok (.boolean !b) := by
  have hunary : s.answer (.unary .not condition) row = .ok (.boolean !b) :=
    Outcome.run_bind_eq_ok_iff.2 ⟨_, h, rfl⟩
  unfold Expr.not
  split
  · split
    · exact Outcome.run_bind_eq_ok_iff.2 ⟨_, h, rfl⟩
    · exact hunary
  · exact hunary

theorem accepts_of_compile {program : Program} (h : s.compile condition = .ok program) :
    s.Accepts condition := by
  by_contra hnot
  obtain ⟨e, -, hrefused⟩ := exists_refuses hnot
  rw [h] at hrefused
  cases hrefused

/-- A condition divides a sound store if it is accepted and its answers are Booleans. -/
theorem divides_iff (hsound : s.Sound) : s.Divides condition ↔
    s.Accepts condition ∧ ∀ row ∈ s.liveRows, ∃ b, s.answer condition row = .ok (.boolean b) := by
  constructor
  · rintro ⟨program, hcompile, hrows⟩
    have haccepts := accepts_of_compile hcompile
    obtain ⟨code, hcode, hcompiled⟩ := haccepts.exists_compile
    cases hcompile.symm.trans hcompiled
    refine ⟨haccepts, fun row hrow => ?_⟩
    obtain ⟨values, b, hvalues, hvalue⟩ := hrows row hrow
    obtain ⟨_, hread, hplaces⟩ := hsound.getElem?_eq_valueAt hrow
    cases hread.symm.trans hvalues
    exact ⟨b, (haccepts.evaluateRow_eq hcode hplaces).symm.trans hvalue⟩
  · rintro ⟨haccepts, hanswers⟩
    obtain ⟨code, hcode, hcompile⟩ := haccepts.exists_compile
    refine ⟨_, hcompile, fun row hrow => ?_⟩
    obtain ⟨b, hb⟩ := hanswers row hrow
    obtain ⟨values, hvalues, hplaces⟩ := hsound.getElem?_eq_valueAt hrow
    exact ⟨values, b, hvalues, (haccepts.evaluateRow_eq hcode hplaces).trans hb⟩

theorem Divides.not (hsound : s.Sound) (h : s.Divides condition) : s.Divides condition.not := by
  obtain ⟨haccepts, hanswers⟩ := (divides_iff hsound).1 h
  refine (divides_iff hsound).2 ⟨accepts_not haccepts, fun row hrow => ?_⟩
  obtain ⟨b, hb⟩ := hanswers row hrow
  exact ⟨!b, answer_not hb⟩

/-- Where a condition is true or false, its negation is truthy on the rows that it leaves. -/
theorem truthyRows_not
    (h : ∀ row ∈ rows, ∃ b, s.answer condition row = .ok (.boolean b)) :
    s.truthyRows condition.not rows =
      rows.filter fun row => !decide (Value.truthy <$> s.answer condition row = .ok true) := by
  refine List.filter_congr fun row hrow => ?_
  obtain ⟨b, hb⟩ := h row hrow
  rw [hb, answer_not hb]
  cases b <;> rfl

/-- A condition that is true or false by its form, and fails on no row, divides the store. -/
theorem divides_of_isBoolean (hsound : s.Sound) (haccepts : s.Accepts condition)
    (hform : condition.IsBoolean)
    (hanswers : ∀ row ∈ s.liveRows, ∃ v, s.answer condition row = .ok v) :
    s.Divides condition := by
  refine (divides_iff hsound).2 ⟨haccepts, fun row hrow => ?_⟩
  obtain ⟨v, hv⟩ := hanswers row hrow
  obtain ⟨b, rfl⟩ := hform.of_interpret hv
  exact ⟨b, hv⟩

/-- Formulas over the table's columns that are not Boolean divide the store as conditions. -/
theorem divides_asCondition (hsound : s.Sound) {f : Formula}
    (h : ∀ c ∈ f.columns, c ∈ s.table.columns ∧ c.isBoolean = false) :
    s.Divides f.toExpr.asCondition := by
  have hgiven (row : RowId) :
      Formula.Given (fun c => (.ok (s.valueAt row c) : Except EvalError Value)) (s.valueAt row)
        f.columns := by
    intro c hc
    refine ⟨rfl, fun hboolean => ?_⟩
    rw [(h c hc).2] at hboolean
    cases hboolean
  refine divides_of_isBoolean hsound ⟨?_, ?_⟩ (f.isBoolean_asCondition fun c hc => (h c hc).2) ?_
  · obtain ⟨⟨code, hcode⟩, -⟩ := Formula.decides_toExpr id (hgiven ⟨0⟩)
    exact ⟨_, Program.ofExpr_eq_ok_iff.2 ⟨code, hcode, rfl⟩⟩
  · intro c hc
    exact Table.contains_of_mem (h c (Formula.names_asCondition_iff.1 hc)).1
  · intro row _
    obtain ⟨-, v, hv, -⟩ := Formula.decides_toExpr id (hgiven row)
    exact ⟨v, hv⟩

/-- There are as many rows as live ones. -/
theorem size_eq_length_liveRows (s : Store) : s.size = s.liveRows.length := by
  have hslots : s.slots.toList = (List.range s.slots.size).map fun i => (s.slots[i]?).join := by
    refine List.ext_getElem (by simp) fun i hi _ => ?_
    rw [Array.length_toList] at hi
    simp [hi]
  rw [size, liveRows, ← List.countP_eq_length_filter, List.countP_map, hslots, List.countP_map]
  rfl

/-- By a condition that divides the store a class finds the rows on which it is truthy. -/
theorem Divides.exists_found {m : Mapping} (hwell : m.WellFormed) (htable : m.table = s.table)
    (hsound : s.Sound) (h : s.Divides condition) : ∃ found, s.filter m condition = .ok found ∧
      ∀ row r, (row, r) ∈ found ↔
        row ∈ s.truthyRows condition (s.visibleRows m) ∧ s.load m row = .ok r := by
  obtain ⟨haccepts, hanswers⟩ := (divides_iff hsound).1 h
  obtain ⟨object, hload, hfilter⟩ := exists_filter_goesBy hwell htable hsound haccepts
  refine ⟨_, (hfilter.gives _).2 ⟨rfl, fun row hrow => ?_⟩, fun row r => ?_⟩
  · obtain ⟨b, hb⟩ := hanswers row (List.mem_of_mem_filter hrow)
    exact ⟨_, hb⟩
  · rw [List.mem_map]
    constructor
    · rintro ⟨_, hrow, ⟨⟩⟩
      exact ⟨hrow, hload row (List.mem_of_mem_filter (List.mem_of_mem_filter hrow))⟩
    · rintro ⟨hrow, hr⟩
      have hlive := List.mem_of_mem_filter (List.mem_of_mem_filter hrow)
      obtain rfl : object row = r := Except.ok.inj ((hload row hlive).symm.trans hr)
      exact ⟨row, hrow, rfl⟩

theorem Divides.count_eq (hsound : s.Sound) (h : s.Divides condition) :
    s.count condition = .ok (s.truthyRows condition s.liveRows).length := by
  obtain ⟨haccepts, hanswers⟩ := (divides_iff hsound).1 h
  refine ((count_goesBy hsound haccepts).gives _).2 ⟨rfl, fun row hrow => ?_⟩
  obtain ⟨b, hb⟩ := hanswers row hrow
  exact ⟨_, hb⟩

/-- A class finds by the negation what it does not find by the condition. -/
theorem Divides.exists_splits {m : Mapping} (hwell : m.WellFormed) (htable : m.table = s.table)
    (hsound : s.Sound) (h : s.Divides condition) : ∃ on off,
    s.filter m condition = .ok on ∧ s.filter m condition.not = .ok off ∧ s.Splits m on off := by
  obtain ⟨on, hon, hmemOn⟩ := h.exists_found hwell htable hsound
  obtain ⟨off, hoff, hmemOff⟩ := (h.not hsound).exists_found hwell htable hsound
  obtain ⟨-, hanswers⟩ := (divides_iff hsound).1 h
  have hvisible : ∀ row ∈ s.visibleRows m, ∃ b, s.answer condition row = .ok (.boolean b) :=
    fun row hrow => hanswers row (List.mem_of_mem_filter hrow)
  rw [truthyRows_not hvisible] at hmemOff
  refine ⟨on, off, hon, hoff, ?_, ?_⟩
  · intro row hrow hother
    obtain ⟨⟨_, r⟩, hentry, rfl⟩ := List.mem_map.1 hrow
    obtain ⟨⟨_, r'⟩, hentry', rfl⟩ := List.mem_map.1 hother
    have htrue := (List.mem_filter.1 ((hmemOn _ r).1 hentry).1).2
    have hfalse := (List.mem_filter.1 ((hmemOff _ r').1 hentry').1).2
    rw [htrue] at hfalse
    cases hfalse
  · intro row r
    rw [List.mem_append, hmemOn, hmemOff, ← or_and_right, truthyRows, List.mem_filter,
      List.mem_filter, ← and_or_left, Bool.not_eq_true',
      and_iff_left (Bool.eq_false_or_eq_true _)]

/-- What is not counted by the condition is counted by the negation. -/
theorem Divides.exists_counts (hsound : s.Sound) (h : s.Divides condition) : ∃ yes no,
    s.count condition = .ok yes ∧ s.count condition.not = .ok no ∧ yes + no = s.size := by
  obtain ⟨-, hanswers⟩ := (divides_iff hsound).1 h
  refine ⟨_, _, h.count_eq hsound, (h.not hsound).count_eq hsound, ?_⟩
  rw [truthyRows_not hanswers, size_eq_length_liveRows]
  exact (List.length_eq_length_filter_add _).symm

end Negation

/-- In every store for a session's tables, what is true or false on every row splits the rows. -/
theorem splits_rows {session : Session} (hsession : session.Reached) {s : Store}
    (hs : Reached session.tables s) : s.SplitsRows session := by
  obtain ⟨hsound, -⟩ := hs.sound
  refine ⟨fun condition h name m hm htable => ?_, fun condition h => h.exists_counts hsound, ?_⟩
  · exact h.exists_splits (hsession.sound.mapping name m hm).2 htable hsound
  · intro f hf id spec flag hspec hflag
    obtain ⟨code, -, hprogram⟩ := Flag.program_of_build hflag
    rw [Flag.predicate, hprogram, hspec]
    exact divides_asCondition hsound hf

/-- Two boxes, of which the second has not been weighed, and an item. -/
def sampleParcels : List Record :=
  [sampleObject "box" 10, ⟨⟨1⟩, NameMap.empty.insert "kind" (.string "box")⟩, sampleObject "item" 0]

/-- The table with the parcels as its rows. -/
def sampleScales : Store := (empty sampleTable).run (sampleParcels.map (.insert sampleItem))

/-- There is a weight. -/
def sampleWeight : Formula := .column ⟨⟨1⟩, 1, "item", "weight", .int32⟩

/-- The flag of what is weighed finds the first box, its negation the second. The item counts as
weighed, although its weight is zero. -/
theorem splits_rows_sampleScales : ∃ flag,
    Flag.build ⟨2⟩ { condition := sampleWeight.toExpr } = .ok flag ∧
      sampleScales.SplitsRows sampleSession ∧ sampleScales.Divides flag.predicate ∧
      List.map Prod.fst <$> sampleScales.filter sampleBox flag.predicate = .ok [⟨0⟩] ∧
      List.map Prod.fst <$> sampleScales.filter sampleBox flag.predicate.not = .ok [⟨1⟩] ∧
      sampleScales.count flag.predicate = .ok 2 ∧
      sampleScales.count flag.predicate.not = .ok 1 := by
  have hreached : Reached sampleSession.tables sampleScales :=
    (Reached.empty (by decide)).run (short_of_entries (by decide))
  have hsplits := splits_rows reached_sampleSession hreached
  have hcolumns : ∀ c ∈ sampleWeight.columns,
      c ∈ sampleScales.table.columns ∧ c.isBoolean = false := by
    decide +kernel
  have hdivides :=
    hsplits.presence sampleWeight hcolumns ⟨2⟩ { condition := sampleWeight.toExpr } _ rfl rfl
  refine ⟨_, rfl, hsplits, hdivides, ?_, ?_, ?_, ?_⟩
  · decide +kernel
  · decide +kernel
  · decide +kernel
  · decide +kernel

end RowFlags.Store
