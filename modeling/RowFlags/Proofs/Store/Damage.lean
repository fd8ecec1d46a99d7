import RowFlags.Proofs.Store.Restore
import RowFlags.Proofs.Store.Revision

/-!
# Damaged rows

Restoring looks at the frame of a snapshot, its name and its column types, and takes the rows as
they are. So a restored store may have rows that are none of the schema. They are found out by
reading: the row itself fails and others do not, and every query that gets as far as the rows fails
with the fault of the first damaged one (`Store.FirstFault`). Bytes that a store saved hold no such
rows (`Store.restore_rows`).
-/

set_option autoImplicit false

namespace RowFlags.Store

/-! ## Restored slots -/

/-- What a store is restored to: the slots that the bytes hold, for a table of their name and
types. -/
theorem restore_eq_ok_iff {t : Table} {data : List UInt8} {s : Store} :
    restore t data = .ok s ↔
      ∃ snapshot, Stored.decodeSnapshot data = some snapshot ∧ snapshot.tableName = t.name ∧
        readTypes snapshot.typeCodes = .ok t.schema ∧ s = ⟨t, snapshot.slots.toArray⟩ := by
  unfold restore
  cases Stored.decodeSnapshot data with
  | none => simp
  | some snapshot =>
    simp only [Option.some.injEq, exists_eq_left']
    by_cases hname : snapshot.tableName = t.name
    · cases htypes : readTypes snapshot.typeCodes with
      | error e => simp [hname]
      | ok types =>
        by_cases hschema : types = t.schema
        · simp [hname, hschema, pure, Except.pure, eq_comm]
        · simp [hname, hschema]
    · simp [hname]

/-! ## Faults of rows -/

/-- The computation does not fail at the bytes of a row. -/
def SparesRows {α : Type} (x : Except StoreError α) : Prop := ∀ e, x ≠ .error (.row e)

namespace SparesRows

variable {α β : Type} {x : Except StoreError α} {f : α → Except StoreError β} {e : RowError}

theorem ok (a : α) : SparesRows (.ok a) := fun _ h => nomatch h

theorem bind (h : SparesRows x) (hf : ∀ a, SparesRows (f a)) : SparesRows (x >>= f) := by
  intro e he
  rcases Outcome.bind_eq_error_iff.1 he with hx | ⟨a, -, ha⟩
  · exact h e hx
  · exact hf a e ha

theorem bind_eq_row_iff (h : SparesRows x) :
    (x >>= f) = .error (.row e) ↔ ∃ a, x = .ok a ∧ f a = .error (.row e) := by
  rw [Outcome.bind_eq_error_iff, or_iff_right (h e)]

theorem bind_eq_row_iff_left (hf : ∀ a, SparesRows (f a)) :
    (x >>= f) = .error (.row e) ↔ x = .error (.row e) := by
  rw [Outcome.bind_eq_error_iff, or_iff_left]
  rintro ⟨a, -, ha⟩
  exact hf a e ha

theorem eval (x : Except EvalError α) : SparesRows (x.mapError StoreError.eval) := by
  cases x <;> exact fun _ h => nomatch h

theorem flag (x : Except FlagError α) : SparesRows (x.mapError StoreError.flag) := by
  cases x <;> exact fun _ h => nomatch h

end SparesRows

theorem sparesRows_checkClass (s : Store) (m : Mapping) : SparesRows (s.checkClass m) := by
  unfold checkClass
  split <;> exact fun _ h => nomatch h

theorem sparesRows_decode (m : Mapping) (values : List Value) : SparesRows (decode m values) :=
  .flag _

theorem sparesRows_compile (s : Store) (condition : Expr) : SparesRows (s.compile condition) := by
  refine (SparesRows.eval _).bind fun program => ?_
  split <;> exact fun _ h => nomatch h

theorem sparesRows_visible (m : Mapping) : SparesRows (visible m) := by
  unfold visible
  split
  · split <;> exact fun _ h => nomatch h
  · exact .ok _

theorem sparesRows_choose (program : Program) (sees : List Value → Bool) (m : Mapping)
    (rows : List (RowId × List Value)) : SparesRows (choose program sees m rows) := by
  induction rows with
  | nil => exact .ok _
  | cons first rest ih =>
    unfold choose
    split
    · refine (SparesRows.eval _).bind fun v => ?_
      split
      · exact (sparesRows_decode m _).bind fun r => ih.bind fun chosen => .ok _
      · exact ih
    · exact ih

theorem sparesRows_tally (program : Program) (rows : List (RowId × List Value)) :
    SparesRows (tally program rows) := by
  induction rows with
  | nil => exact .ok _
  | cons first rest ih =>
    unfold tally
    exact (SparesRows.eval _).bind fun v => ih.bind fun count => .ok _

variable {s : Store} {m : Mapping} {row : RowId} {e : RowError}

/-- Reading a row fails at its bytes if there is the row and its bytes are none of the schema. -/
theorem values_eq_row_iff :
    s.values row = .error (.row e) ↔
      ∃ data, s.row? row = some data ∧ Stored.decodeRow s.table.schema data = .error e := by
  unfold Store.values noRow
  cases s.row? row with
  | none => simp
  | some data => simp [Outcome.mapError_eq_error_iff]

/-- Through a class on the table, a row fails at its bytes as it does without. -/
theorem load_eq_row_iff (hclass : m.table.id = s.table.id) :
    s.load m row = .error (.row e) ↔ s.values row = .error (.row e) := by
  have hchecked : s.checkClass m = .ok () := if_pos hclass
  rw [load, hchecked, Outcome.ok_bind, SparesRows.bind_eq_row_iff_left (sparesRows_decode m)]

/-! ## The first fault -/

/-- The row fails at its bytes, and no row before it does. -/
structure FirstFault (s : Store) (row : RowId) (e : RowError) : Prop where
  fault : s.values row = .error (.row e)
  first : ∀ earlier ∈ s.liveRows, earlier.number < row.number →
    ∃ values, s.values earlier = .ok values

/-- A scan fails at the first filled slot that does not decode. -/
theorem scanFrom_eq_error_iff {schema : List ColumnType} {next : Nat}
    {slots : List (Option (List UInt8))} {x : StoreError} :
    scanFrom schema next slots = .error x ↔
      ∃ front data e back, slots = front ++ some data :: back ∧
        (∀ earlier, some earlier ∈ front → ∃ values, Stored.decodeRow schema earlier = .ok values) ∧
        Stored.decodeRow schema data = .error e ∧ x = .row e := by
  induction slots generalizing next with
  | nil => simp [scanFrom]
  | cons slot rest ih =>
    constructor
    · intro h
      cases slot with
      | none =>
        obtain ⟨front, data, e, back, rfl, hfront, hfault⟩ := ih.1 h
        exact ⟨none :: front, data, e, back, rfl, by simpa using hfront, hfault⟩
      | some first =>
        rcases Outcome.bind_eq_error_iff.1 h with hfirst | ⟨values, hvalues, h⟩
        · obtain ⟨e, he, rfl⟩ := Outcome.mapError_eq_error_iff.1 hfirst
          exact ⟨[], first, e, rest, rfl, by simp, he, rfl⟩
        · have hread : ∃ values, Stored.decodeRow schema first = .ok values :=
            ⟨values, Outcome.mapError_eq_ok_iff.1 hvalues⟩
          rcases Outcome.bind_eq_error_iff.1 h with hrest | ⟨rows, -, h⟩
          · obtain ⟨front, data, e, back, rfl, hfront, hfault⟩ := ih.1 hrest
            exact ⟨some first :: front, data, e, back, rfl, by simpa [hread] using hfront, hfault⟩
          · cases h
    · rintro ⟨front, data, e, back, hsplit, hfront, hfault⟩
      cases front with
      | nil =>
        obtain ⟨rfl, rfl⟩ := List.cons.inj hsplit
        rw [scanFrom, hfault.1, hfault.2]
        rfl
      | cons earlier front =>
        rw [List.cons_append] at hsplit
        obtain ⟨rfl, rfl⟩ := List.cons.inj hsplit
        have hrest : scanFrom schema (next + 1) (front ++ some data :: back) = .error x :=
          ih.2 ⟨front, data, e, back, rfl,
            fun earlier hearlier => hfront earlier (List.mem_cons_of_mem _ hearlier), hfault⟩
        cases slot with
        | none => exact hrest
        | some first =>
          obtain ⟨values, hvalues⟩ := hfront first List.mem_cons_self
          rw [scanFrom, hvalues, hrest]
          rfl

/-- A scan fails at the first fault, and only there. -/
theorem scan_eq_error_iff {x : StoreError} :
    s.scan = .error x ↔ ∃ row e, s.FirstFault row e ∧ x = .row e := by
  rw [scan, scanFrom_eq_error_iff]
  constructor
  · rintro ⟨front, data, e, back, hslots, hfront, hfault, rfl⟩
    refine ⟨⟨front.length⟩, e, ⟨values_eq_row_iff.2 ⟨data, ?_, hfault⟩, ?_⟩, rfl⟩
    · simp [row?_eq_some_iff, hslots]
    · intro earlier hlive hless
      obtain ⟨other, hother⟩ := mem_liveRows_iff.1 hlive
      have hslot := row?_eq_some_iff.1 hother
      rw [hslots, List.getElem?_append_left hless] at hslot
      obtain ⟨values, hvalues⟩ := hfront other (List.mem_of_getElem? hslot)
      exact ⟨values, values_eq_ok_iff.2 ⟨other, hother, hvalues⟩⟩
  · -- the slots before the first fault are filled with rows that read, or not at all
    rintro ⟨row, e, ⟨hfault, hfirst⟩, rfl⟩
    obtain ⟨data, hdata, hfault⟩ := values_eq_row_iff.1 hfault
    obtain ⟨hplace, hslot⟩ := List.getElem?_eq_some_iff.1 (row?_eq_some_iff.1 hdata)
    refine ⟨s.slots.toList.take row.number, data, e, s.slots.toList.drop (row.number + 1), ?_, ?_,
      hfault, rfl⟩
    · rw [← hslot, List.getElem_cons_drop, List.take_append_drop]
    · intro earlier hearlier
      obtain ⟨i, hi⟩ := List.mem_iff_getElem?.1 hearlier
      have hless : i < row.number := by
        have hbound := (List.getElem?_eq_some_iff.1 hi).1
        rw [List.length_take] at hbound
        omega
      rw [List.getElem?_take_of_lt hless] at hi
      have hrow : s.row? ⟨i⟩ = some earlier := row?_eq_some_iff.2 hi
      obtain ⟨values, hvalues⟩ := hfirst ⟨i⟩ (mem_liveRows_iff.2 ⟨earlier, hrow⟩) hless
      obtain ⟨_, hread, hdecode⟩ := values_eq_ok_iff.1 hvalues
      obtain rfl := Option.some.inj (hrow.symm.trans hread)
      exact ⟨values, hdecode⟩

theorem scan_eq_row_iff : s.scan = .error (.row e) ↔ ∃ row, s.FirstFault row e := by
  simp [scan_eq_error_iff]

/-- A query that is right in itself fails at the first fault. -/
theorem filter_eq_row_iff {condition : Expr} :
    s.filter m condition = .error (.row e) ↔
      m.table.id = s.table.id ∧ (∃ program, s.compile condition = .ok program) ∧
        (∃ sees, visible m = .ok sees) ∧ ∃ row, s.FirstFault row e := by
  have hclass : (∃ u, s.checkClass m = .ok u) ↔ m.table.id = s.table.id := by
    unfold checkClass
    split <;> simp [*]
  rw [← hclass, ← scan_eq_row_iff]
  unfold filter
  simp only [(sparesRows_checkClass s m).bind_eq_row_iff,
    (sparesRows_compile s condition).bind_eq_row_iff, (sparesRows_visible m).bind_eq_row_iff,
    SparesRows.bind_eq_row_iff_left (sparesRows_choose _ _ m)]
  simp only [exists_and_right]

theorem count_eq_row_iff {condition : Expr} :
    s.count condition = .error (.row e) ↔
      (∃ program, s.compile condition = .ok program) ∧ ∃ row, s.FirstFault row e := by
  rw [← scan_eq_row_iff]
  unfold count
  simp only [(sparesRows_compile s condition).bind_eq_row_iff,
    SparesRows.bind_eq_row_iff_left (sparesRows_tally _), exists_and_right]

/-- A sound store does not fail at the bytes of a row. -/
theorem Sound.not_firstFault (h : s.Sound) : ¬ s.FirstFault row e := by
  rintro ⟨hfault, -⟩
  obtain ⟨data, hdata, -⟩ := values_eq_row_iff.1 hfault
  obtain ⟨values, hvalues, -⟩ := h.exists_values (mem_liveRows_iff.2 ⟨data, hdata⟩)
  cases hvalues.symm.trans hfault

/-- The slots of a snapshot come back, and sound ones stay so. -/
theorem Sound.of_restore {source : Store} (h : source.Sound) (hfits : source.Fits) {t : Table}
    {more : List UInt8} (hrestore : restore t (source.snapshot ++ more) = .ok s) :
    s.slots = source.slots ∧ s.Sound := by
  rw [restore_of_lasting (hfits.decodeSnapshot_snapshot more)] at hrestore
  split at hrestore
  · cases hrestore
  · split at hrestore
    · next hschema =>
      cases hrestore
      refine ⟨rfl, fun row data hrow => ?_⟩
      rw [← hschema]
      exact h row data hrow
    · cases hrestore

/-- A restored store has the slots that the bytes hold, which are of the name and the types of its
table, and nothing more is asked of them. A row whose bytes are none of the schema fails by itself,
through every class; a query that is otherwise right fails at the first such row. A snapshot of a
sound store has no such rows: every live row reads, and no query fails at one. -/
theorem restore_rows {t : Table} {bytes : List UInt8} {s : Store}
    (hrestore : restore t bytes = .ok s) :
    s.table = t ∧
    (∃ snapshot, Stored.decodeSnapshot bytes = some snapshot ∧ snapshot.tableName = t.name ∧
      readTypes snapshot.typeCodes = .ok t.schema ∧ s.slots.toList = snapshot.slots) ∧
    (∀ row e, s.values row = .error (.row e) ↔
      ∃ data, s.slots.toList[row.number]? = some (some data) ∧
        Stored.decodeRow t.schema data = .error e) ∧
    (∀ m : Mapping, m.table.id = t.id → ∀ row e,
      s.load m row = .error (.row e) ↔ s.values row = .error (.row e)) ∧
    (∀ m condition e, s.filter m condition = .error (.row e) ↔
      m.table.id = t.id ∧ (∃ program, s.compile condition = .ok program) ∧
        (∃ sees, visible m = .ok sees) ∧ ∃ row, s.FirstFault row e) ∧
    (∀ condition e, s.count condition = .error (.row e) ↔
      (∃ program, s.compile condition = .ok program) ∧ ∃ row, s.FirstFault row e) ∧
    ∀ (source : Store) more, source.Fits → source.Sound → bytes = source.snapshot ++ more →
      s.slots = source.slots ∧ s.Sound ∧
        (∀ row ∈ s.liveRows, ∃ values, s.values row = .ok values) ∧
        ∀ m condition, SparesRows (s.filter m condition) ∧ SparesRows (s.count condition) := by
  obtain ⟨snapshot, hdecode, hname, htypes, rfl⟩ := restore_eq_ok_iff.1 hrestore
  refine ⟨rfl, ⟨snapshot, hdecode, hname, htypes, rfl⟩, ?_, fun m hm row e => load_eq_row_iff hm,
    fun m condition e => filter_eq_row_iff, fun condition e => count_eq_row_iff, ?_⟩
  · intro row e
    simp only [values_eq_row_iff, row?_eq_some_iff]
  · rintro source more hfits hsource rfl
    obtain ⟨hslots, hsound⟩ := hsource.of_restore hfits hrestore
    refine ⟨hslots, hsound, fun row hrow => (hsound.exists_values hrow).imp fun _ => And.left, ?_⟩
    intro m condition
    constructor
    · intro e hfilter
      obtain ⟨-, -, -, row, hfault⟩ := filter_eq_row_iff.1 hfilter
      exact hsound.not_firstFault hfault
    · intro e hcount
      obtain ⟨-, row, hfault⟩ := count_eq_row_iff.1 hcount
      exact hsound.not_firstFault hfault

/-- A snapshot of notes, with one note whose number is cut short. -/
def sampleTorn : List UInt8 :=
  [4, 0, 0, 0, 0, 0, 0, 0, 0x6e, 0x6f, 0x74, 0x65, 2, 0, 0, 0, 0, 0, 0, 0, 2, 4,
    1, 0, 0, 0, 0, 0, 0, 0, 1, 3, 0, 0, 0, 0, 0, 0, 0, 0, 7, 0]

/-- The store with the torn note. -/
def sampleTornStore : Store := ⟨sampleNotes, #[some [0, 7, 0]]⟩

theorem restore_sampleTorn : restore sampleNotes sampleTorn = .ok sampleTornStore :=
  restore_eq_ok_iff.2 ⟨⟨"note", [2, 4], [some [0, 7, 0]]⟩, by decide +kernel, rfl, rfl, rfl⟩

/-- The empty clause list, which is true of every row. -/
def sampleEvery : Expr := .clauses .and []

/-- The torn note fails every query. The note that was saved whole does not, with a byte
behind it. -/
theorem restore_rows_sampleTorn :
    sampleTornStore.filter sampleNote sampleEvery = .error (.row (.missingField .int32)) ∧
      sampleTornStore.load sampleNote ⟨0⟩ = .error (.row (.missingField .int32)) ∧
      ∃ s, restore sampleNotes (sampleJotted.snapshot ++ [9]) = .ok s ∧
        SparesRows (s.filter sampleNote sampleEvery) := by
  obtain ⟨-, -, hvalues, hload, hfilter, -, -⟩ := restore_rows restore_sampleTorn
  have hfault : sampleTornStore.values ⟨0⟩ = .error (.row (.missingField .int32)) :=
    (hvalues ⟨0⟩ _).2 ⟨[0, 7, 0], rfl, rfl⟩
  have hfirst : sampleTornStore.FirstFault ⟨0⟩ (.missingField .int32) :=
    ⟨hfault, fun earlier _ hless => absurd hless (Nat.not_lt_zero _)⟩
  refine ⟨(hfilter _ _ _).2 ⟨rfl, ⟨_, rfl⟩, ⟨_, rfl⟩, ⟨0⟩, hfirst⟩,
    (hload sampleNote rfl ⟨0⟩ _).2 hfault, ?_⟩
  have hshort : ∀ command ∈ [sampleJotting], command.Short :=
    List.forall_mem_singleton.2 short_sampleJotting
  have hfits : sampleJotted.Fits :=
    fits_run sampleNotes hshort (by decide +kernel) (by decide)
  obtain ⟨hsound, htable⟩ : sampleJotted.Sound ∧ sampleJotted.table = sampleNotes :=
    (sound_empty sampleNotes).run hshort
  have hrestore (more : List UInt8) : restore sampleNotes (sampleJotted.snapshot ++ more) =
      .ok ⟨sampleNotes, sampleJotted.slots⟩ := by
    rw [restore_of_lasting (hfits.decodeSnapshot_snapshot more), htable,
      if_neg (not_not_intro rfl), if_pos rfl]
  obtain ⟨-, -, -, -, -, -, hsaved⟩ := restore_rows (hrestore [9])
  obtain ⟨-, -, -, hspared⟩ := hsaved sampleJotted [9] hfits hsound rfl
  exact ⟨_, hrestore [9], (hspared sampleNote sampleEvery).1⟩

/-- A snapshot whose frame is right is restored, with a live row that does not decode. -/
theorem sampleTorn_restored :
    restore sampleNotes sampleTorn = .ok sampleTornStore ∧ ⟨0⟩ ∈ sampleTornStore.liveRows ∧
      sampleTornStore.values ⟨0⟩ = .error (.row (.missingField .int32)) ∧
      sampleTornStore.load sampleNote ⟨0⟩ = .error (.row (.missingField .int32)) ∧
      sampleTornStore.filter sampleNote sampleEvery = .error (.row (.missingField .int32)) ∧
      sampleTornStore.count sampleEvery = .error (.row (.missingField .int32)) :=
  ⟨restore_sampleTorn, by decide, rfl, rfl, rfl, rfl⟩

end RowFlags.Store
