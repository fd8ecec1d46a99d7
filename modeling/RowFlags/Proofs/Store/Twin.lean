import Mathlib.Data.List.Forall2
import RowFlags.Proofs.Expression.Renaming
import RowFlags.Proofs.Store.History
import RowFlags.Proofs.Store.Object
import RowFlags.Store.Snapshot

/-!
# Stores that answer alike

Two stores are twins if they hold the same slots for tables of one name and one schema
(`Store.Twin`). Classes that are equally mapped on the two tables (`Mapping.Alike`) write the same
rows and read the same attributes, and conditions on columns of the same places choose the same
rows. So twins answer every request alike and stay twins (`Twin.reply`, `Twin.next`), through any
sequence of requests (`Twin.replies`).
-/

set_option autoImplicit false

namespace RowFlags

open Outcome (Both)

/-! ## Equally mapped classes -/

namespace Mapping

/-- The attributes of the class with the places of their columns. -/
def places (m : Mapping) : List (String × Nat) :=
  m.properties.map fun p => (p.key, p.column.position)

/-- Classes on two tables that show the columns of the same places under the same attributes, in the
same part of a hierarchy. -/
structure Alike (t t' : Table) (m m' : Mapping) : Prop where
  wellFormed : m.WellFormed ∧ m'.WellFormed
  table : m.table = t ∧ m'.table = t'
  places : m.places = m'.places
  discriminator : m.discriminator = m'.discriminator
  parent : m.parent.isSome = m'.parent.isSome

/-- The value that attributes give the column of a place. -/
def valueAt (m : Mapping) (attributes : NameMap Value) (place : Nat) : Value :=
  ((((m.places.filter (·.2 = place)).map Prod.fst).head?).bind attributes.get?).getD .null

/-- Among the columns of the table, the place tells whose attributes are meant. -/
theorem WellFormed.namesOf_eq {m : Mapping} (h : m.WellFormed) {c : Column}
    (hc : c ∈ m.table.columns) :
    m.namesOf c = (m.places.filter (·.2 = c.position)).map Prod.fst := by
  have hplace : ∀ p ∈ m.properties,
      decide (p.column = c) = decide (p.column.position = c.position) := by
    intro p hp
    rw [decide_eq_decide]
    constructor
    · rintro rfl
      rfl
    · intro heq
      have hown := Table.columns_position (h.binds.own p hp)
      rw [heq, Table.columns_position hc] at hown
      exact (Option.some.inj hown).symm
  unfold namesOf places
  rw [List.filter_congr hplace, List.filter_map, List.map_map]
  rfl

theorem property?_position (m : Mapping) (key : String) :
    (m.property? key).map (·.column.position) =
      (m.places.find? (·.1 = key)).map Prod.snd := by
  unfold property? places
  rw [List.find?_map, Option.map_map]
  rfl

theorem blank_attributes (m : Mapping) :
    (Record.blank m).attributes = NameMap.ofList (m.places.map fun e => (e.1, .null)) := by
  rw [Record.blank, places, List.map_map]
  rfl

/-- New objects of the two classes differ in the class alone. -/
theorem Alike.newRecord_attributes {t t' : Table} {m m' : Mapping} (h : Alike t t' m m') :
    m.newRecord.attributes = m'.newRecord.attributes := by
  unfold newRecord
  rw [← h.discriminator]
  cases m.discriminator <;> simp only [blank_attributes, h.places]

end Mapping

theorem Table.map_position_columns (t : Table) :
    t.columns.map Column.position = List.range t.declared.length := by
  apply List.ext_getElem?
  intro i
  rw [List.getElem?_map, columns_getElem?, Option.map_map]
  rcases Nat.lt_or_ge i t.declared.length with hlt | hge
  · rw [List.getElem?_range hlt, List.getElem?_eq_getElem hlt]
    rfl
  · rw [List.getElem?_eq_none hge, List.getElem?_eq_none (by simpa using hge)]
    rfl

/-- A renaming that takes the columns of one table to those of the same places of another one, and
foreign columns to foreign ones. -/
structure Renames (t t' : Table) (f : Column → Column) : Prop where
  contains : ∀ c, t'.contains (f c) = t.contains c
  position : ∀ c, t.contains c = true → (f c).position = c.position

/-- The column of the same place on another table. A foreign column stays one. -/
def Table.counterpart (t t' : Table) (c : Column) : Column :=
  if t.contains c then (t'.columns[c.position]?).getD c
  else { c with table := ⟨t'.id.number + 1⟩ }

/-- Between tables of as many columns there is a renaming. -/
theorem Table.renames_counterpart {t t' : Table}
    (h : t'.declared.length = t.declared.length) : Renames t t' (t.counterpart t') := by
  have hown (c : Column) (hc : t.contains c = true) :
      ∃ d, t.counterpart t' c = d ∧ d.table = t'.id ∧ d.position = c.position ∧
        c.position < t'.declared.length := by
    have hplace : c.position < t'.declared.length := by
      simp only [contains, Bool.and_eq_true, decide_eq_true_eq] at hc
      exact h ▸ hc.2
    refine ⟨_, rfl, ?_⟩
    rw [counterpart, if_pos hc, columns_getElem?, List.getElem?_eq_getElem hplace]
    exact ⟨rfl, rfl, hplace⟩
  constructor
  · intro c
    cases hc : t.contains c with
    | true =>
      obtain ⟨d, hd, htable, hposition, hplace⟩ := hown c hc
      simp [hd, contains, htable, hposition, hplace]
    | false =>
      rw [counterpart, if_neg (by simp [hc]), contains]
      have hid : (⟨t'.id.number + 1⟩ : TableId) ≠ t'.id := by
        intro heq
        have hnumber := congrArg TableId.number heq
        simp at hnumber
      simp [hid]
  · intro c hc
    obtain ⟨d, hd, -, hposition, -⟩ := hown c hc
    rw [hd, hposition]

/-- Refusals that differ at most in the columns that they show. -/
inductive StoreError.Alike : StoreError → StoreError → Prop
  | same (e : StoreError) : Alike e e
  | eval {e e' : EvalError} (h : e.Alike e') : Alike (.eval e) (.eval e')
  | foreign (c c' : Column) (table : String) :
    Alike (.foreignColumn c table) (.foreignColumn c' table)

namespace Store

/-! ## Requests -/

/-- What a store can be asked for. -/
inductive Request where
  | write (command : Command)
  | values (row : RowId)
  | load (m : Mapping) (row : RowId)
  | filter (m : Mapping) (condition : Expr)
  | count (condition : Expr)
  | size
  | snapshot

/-- What a store replies. -/
inductive Reply where
  | row (row : RowId)
  | done
  | values (values : List Value)
  | object (r : Record)
  | objects (rows : List (RowId × Record))
  | number (count : Nat)
  | bytes (data : List UInt8)

/-- The reply to a request. -/
def reply (s : Store) : Request → Except StoreError Reply
  | .write (.insert m r) => (fun added => .row added.1) <$> s.insert m r
  | .write (.update m row r) => (fun _ => .done) <$> s.update m row r
  | .write (.delete row) => (fun _ => .done) <$> s.delete row
  | .values row => .values <$> s.values row
  | .load m row => .object <$> s.load m row
  | .filter m condition => .objects <$> s.filter m condition
  | .count condition => .number <$> s.count condition
  | .size => .ok (.number s.size)
  | .snapshot => .ok (.bytes s.snapshot)

/-- The store after a request. -/
def next (s : Store) : Request → Store
  | .write command => s.perform command
  | _ => s

/-- The replies to requests, one after the other. -/
def replies (s : Store) : List Request → List (Except StoreError Reply)
  | [] => []
  | request :: rest => s.reply request :: replies (s.next request) rest

/-- Commands to stores of two tables that write the same: through equally mapped classes, with
objects of the same attributes. -/
inductive Command.Alike (t t' : Table) : Command → Command → Prop
  | insert {m m' : Mapping} {r r' : Record} (hclass : Mapping.Alike t t' m m')
    (hobject : r.attributes = r'.attributes) : Alike t t' (.insert m r) (.insert m' r')
  | update {m m' : Mapping} (row : RowId) {r r' : Record} (hclass : Mapping.Alike t t' m m')
    (hobject : r.attributes = r'.attributes) : Alike t t' (.update m row r) (.update m' row r')
  | delete (row : RowId) : Alike t t' (.delete row) (.delete row)

/-- Requests to stores of two tables that ask for the same: through equally mapped classes, under
conditions on columns of the same places. -/
inductive Request.Alike (t t' : Table) : Request → Request → Prop
  | write {command command' : Command} (h : Command.Alike t t' command command') :
    Alike t t' (.write command) (.write command')
  | values (row : RowId) : Alike t t' (.values row) (.values row)
  | load {m m' : Mapping} (row : RowId) (hclass : Mapping.Alike t t' m m') :
    Alike t t' (.load m row) (.load m' row)
  | filter {m m' : Mapping} {f : Column → Column} (condition : Expr)
    (hclass : Mapping.Alike t t' m m') (hcolumns : Renames t t' f) :
    Alike t t' (.filter m condition) (.filter m' (condition.rename f))
  | count {f : Column → Column} (condition : Expr) (hcolumns : Renames t t' f) :
    Alike t t' (.count condition) (.count (condition.rename f))
  | size : Alike t t' .size .size
  | snapshot : Alike t t' .snapshot .snapshot

/-- A found row with the attributes that it is shown with. -/
def shown (found : RowId × Record) : RowId × NameMap Value := (found.1, found.2.attributes)

/-- Replies that say the same; objects may be of different classes, but not differ in an
attribute. -/
inductive Reply.Alike : Reply → Reply → Prop
  | same (a : Reply) : Alike a a
  | object {r r' : Record} (h : r.attributes = r'.attributes) : Alike (.object r) (.object r')
  | objects {rows rows' : List (RowId × Record)} (h : rows.map shown = rows'.map shown) :
    Alike (.objects rows) (.objects rows')

/-! ## Twins -/

/-- The same slots, for tables of one name and one schema. -/
structure Twin (s s' : Store) : Prop where
  name : s'.table.name = s.table.name
  schema : s'.table.schema = s.table.schema
  slots : s'.slots = s.slots

section Twins

variable {s s' : Store} {m m' : Mapping}

theorem Twin.size (h : Twin s s') : s'.size = s.size := by
  unfold Store.size
  rw [h.slots]

theorem Twin.row? (h : Twin s s') (row : RowId) : s'.row? row = s.row? row := by
  unfold Store.row?
  rw [h.slots]

theorem Twin.noRow (h : Twin s s') (row : RowId) : s'.noRow row = s.noRow row := by
  unfold Store.noRow
  rw [h.name]

theorem Twin.values (h : Twin s s') (row : RowId) : s'.values row = s.values row := by
  unfold Store.values
  rw [h.row?, h.noRow, h.schema]

theorem Twin.scan (h : Twin s s') : s'.scan = s.scan := by
  unfold Store.scan
  rw [h.schema, h.slots]

theorem Twin.snapshot (h : Twin s s') : s'.snapshot = s.snapshot := by
  unfold Store.snapshot
  rw [h.name, h.schema, h.slots]

theorem Twin.length_declared (h : Twin s s') :
    s'.table.declared.length = s.table.declared.length := by
  rw [← Table.length_schema, h.schema, Table.length_schema]

/-! ### Writing -/

theorem columnValue_eq_valueAt (h : m.WellFormed) (r : Record) {c : Column}
    (hc : c ∈ m.table.columns) : columnValue m r c = m.valueAt r.attributes c.position := by
  unfold columnValue Mapping.valueAt
  rw [h.namesOf_eq hc]
  rfl

/-- The values of an object, place by place. -/
theorem columnValues_eq (h : m.WellFormed) (htable : m.table = s.table) (r : Record) :
    s.columnValues m r = (List.range s.table.declared.length).map (m.valueAt r.attributes) := by
  unfold columnValues
  rw [← Table.map_position_columns, List.map_map, ← htable]
  apply List.map_congr_left
  intro c hc
  exact columnValue_eq_valueAt h r hc

/-- Twins store the same of an object. -/
theorem Twin.encode (h : Twin s s') (hclass : Mapping.Alike s.table s'.table m m') {r r' : Record}
    (hobject : r.attributes = r'.attributes) : s'.encode m' r' = s.encode m r := by
  have hvalues : s'.columnValues m' r' = s.columnValues m r := by
    rw [columnValues_eq hclass.wellFormed.1 hclass.table.1,
      columnValues_eq hclass.wellFormed.2 hclass.table.2, h.length_declared, hobject]
    unfold Mapping.valueAt
    rw [hclass.places]
  unfold Store.encode
  rw [checkClass_of_table hclass.table.1, checkClass_of_table hclass.table.2, hvalues, h.schema]

theorem Twin.both_insert (h : Twin s s') (hclass : Mapping.Alike s.table s'.table m m')
    {r r' : Record} (hobject : r.attributes = r'.attributes) :
    Both StoreError.Alike (fun added added' => added'.1 = added.1 ∧ Twin added.2 added'.2)
      (s.insert m r) (s'.insert m' r') := by
  unfold insert
  rw [h.encode hclass hobject, h.slots]
  refine Both.bind_same .same _ fun data => ?_
  split
  · exact .ok ⟨rfl, h.name, h.schema, rfl⟩
  · exact .error (.same _)

theorem Twin.both_update (h : Twin s s') (hclass : Mapping.Alike s.table s'.table m m')
    (row : RowId) {r r' : Record} (hobject : r.attributes = r'.attributes) :
    Both StoreError.Alike Twin (s.update m row r) (s'.update m' row r') := by
  unfold update
  rw [h.encode hclass hobject, h.row?, h.noRow, h.slots]
  refine Both.bind_same .same _ fun data => ?_
  split
  · exact .ok ⟨h.name, h.schema, rfl⟩
  · exact .error (.same _)

theorem Twin.both_delete (h : Twin s s') (row : RowId) :
    Both StoreError.Alike Twin (s.delete row) (s'.delete row) := by
  unfold delete
  rw [h.row?, h.noRow, h.slots]
  split
  · exact .ok ⟨h.name, h.schema, rfl⟩
  · exact .error (.same _)

/-! ### Reading -/

/-- Filling looks at the names and places of the properties only. -/
theorem both_fill (values : List Value) {properties properties' : List Property}
    (hplaces : properties.map (fun p => (p.key, p.column.position)) =
      properties'.map fun p => (p.key, p.column.position))
    {r r' : Record} (hobject : r.attributes = r'.attributes) :
    Both (fun _ _ => True) (fun a b => a.attributes = b.attributes) (fill values properties r)
      (fill values properties' r') := by
  induction properties generalizing properties' r r' with
  | nil =>
    obtain rfl := List.map_eq_nil_iff.1 hplaces.symm
    exact .ok hobject
  | cons p rest ih =>
    obtain ⟨p', rest', rfl, hp, hrest⟩ := List.map_eq_cons_iff.1 hplaces.symm
    obtain ⟨hkey, hplace⟩ := Prod.mk.inj hp
    rw [fill, fill, hkey, hplace]
    refine Both.bind (V := fun a b => a.attributes = b.attributes) ?_ fun a b hab => ih hrest.symm hab
    unfold Record.set
    rw [hobject]
    split
    · exact .ok rfl
    · exact .error trivial

/-- A row makes objects of equally mapped classes, with the same attributes. -/
theorem exists_decode (hclass : Mapping.Alike s.table s'.table m m') (values : List Value) :
    ∃ r r', decode m values = .ok r ∧ decode m' values = .ok r' ∧ r.attributes = r'.attributes := by
  obtain ⟨r, hr, -⟩ := decode_eq_ok hclass.wellFormed.1 values
  obtain ⟨r', hr', -⟩ := decode_eq_ok hclass.wellFormed.2 values
  have hfilled := both_fill values hclass.places hclass.newRecord_attributes
  rw [Outcome.mapError_eq_ok_iff.1 hr, Outcome.mapError_eq_ok_iff.1 hr'] at hfilled
  cases hfilled with
  | ok h => exact ⟨r, r', hr, hr', h⟩

theorem Twin.both_load (h : Twin s s') (hclass : Mapping.Alike s.table s'.table m m')
    (row : RowId) :
    Both StoreError.Alike (fun r r' => r.attributes = r'.attributes) (s.load m row)
      (s'.load m' row) := by
  rw [load_eq_bind hclass.table.1, load_eq_bind hclass.table.2, h.values]
  refine Both.bind_same .same _ fun values => ?_
  obtain ⟨r, r', hr, hr', hattributes⟩ := exists_decode hclass values
  rw [hr, hr']
  exact .ok hattributes

/-! ### Queries -/

/-- The columns of a program are the table's if none of them is found to be foreign. -/
theorem find?_foreign_eq_none_iff {p : Program} {t : Table} :
    p.columns.find? (fun c => !t.contains c) = none ↔
      ∀ c, .load c ∈ p.code → t.contains c = true := by
  rw [List.find?_eq_none]
  constructor
  · intro h c hc
    obtain ⟨d, hd, hsame⟩ := Program.exists_mem_columns hc
    obtain ⟨htable, hposition⟩ := Prod.mk.inj hsame
    have hown := h d hd
    simpa [Table.contains, htable, hposition] using hown
  · intro h c hc
    simpa using h c (Program.load_mem_of_mem_columns hc)

/-- Programs of one condition on two tables: the same code, but for the columns, all of which are
the first table's. -/
def Fellow (f : Column → Column) (t : Table) (p p' : Program) : Prop :=
  Expr.Renamed f p.code p'.code ∧ ∀ c, .load c ∈ p.code → t.contains c = true

theorem Twin.both_compile (h : Twin s s') {f : Column → Column}
    (hcolumns : Renames s.table s'.table f) (condition : Expr) :
    Both StoreError.Alike (Fellow f s.table) (s.compile condition)
      (s'.compile (condition.rename f)) := by
  have hprograms : Both EvalError.Alike (fun p p' => Expr.Renamed f p.code p'.code)
      (Program.ofExpr condition) (Program.ofExpr (condition.rename f)) :=
    (Expr.both_compile_rename f condition).bind fun code code' hcode => .ok hcode
  unfold compile
  refine (hprograms.mapError fun e e' => StoreError.Alike.eval).bind fun p p' hcode => ?_
  have hown : (∀ c, .load c ∈ p'.code → s'.table.contains c = true) ↔
      ∀ c, .load c ∈ p.code → s.table.contains c = true := by
    rw [hcode]
    constructor
    · intro hown c hc
      rw [← hcolumns.contains]
      exact hown _ (List.mem_map.2 ⟨_, hc, rfl⟩)
    · intro hown c hc
      obtain ⟨i, hi, hload⟩ := List.mem_map.1 hc
      cases i <;> cases hload
      rw [hcolumns.contains]
      exact hown _ hi
  rw [← find?_foreign_eq_none_iff, ← find?_foreign_eq_none_iff] at hown
  cases hfind : p.columns.find? fun c => !s.table.contains c with
  | none =>
    simp only [hown.2 hfind]
    exact .ok ⟨hcode, find?_foreign_eq_none_iff.1 hfind⟩
  | some c =>
    cases hfind' : p'.columns.find? fun c => !s'.table.contains c with
    | none =>
      rw [hown.1 hfind'] at hfind
      cases hfind
    | some c' =>
      rw [← h.name]
      exact .error (.foreign c c' _)

/-- On a row of the table, fellow programs compute the same. -/
theorem Fellow.evaluateRow_eq {f : Column → Column} {t t' : Table} (hcolumns : Renames t t' f)
    {p p' : Program} (h : Fellow f t p p') {values : List Value}
    (hlength : values.length = t.declared.length) :
    evaluateRow p' values = evaluateRow p values := by
  obtain ⟨hcode, hown⟩ := h
  unfold evaluateRow Program.evaluate Program.evaluateCode
  rw [hcode, Program.run_rename]
  intro c hc
  have hcontains := hown c hc
  have hplace : c.position < values.length := by
    rw [hlength]
    simp only [Table.contains, Bool.and_eq_true, decide_eq_true_eq] at hcontains
    exact hcontains.2
  rw [hcolumns.position c hcontains, List.getElem?_eq_getElem hplace]

/-- Equally mapped classes see the same rows. -/
theorem visible_eq (hclass : Mapping.Alike s.table s'.table m m') : visible m' = visible m := by
  have hparent := hclass.parent
  have hkey (d : Discriminator) : (m'.property? d.key).map (·.column.position) =
      (m.property? d.key).map (·.column.position) := by
    rw [m.property?_position, m'.property?_position, hclass.places]
  unfold visible
  rw [← hclass.discriminator]
  cases hp : m.parent <;> cases hp' : m'.parent <;> rw [hp, hp'] at hparent
  case some.some =>
    cases m.discriminator with
    | none => rfl
    | some d =>
      have hplace := hkey d
      cases hq : m.property? d.key <;> cases hq' : m'.property? d.key <;> rw [hq, hq'] at hplace
      case none.none => simp only [hq, hq']
      case some.some => simp only [hq, hq', Option.some.inj hplace]
      all_goals cases hplace
  all_goals cases hparent

/-- Scanned rows have a value for every column of the table. -/
theorem length_of_mem_scan {rows : List (RowId × List Value)} (h : s.scan = .ok rows) :
    ∀ found ∈ rows, found.2.length = s.table.declared.length := by
  have hscan (slots : List (Option (List UInt8))) (next : Nat) (rows : List (RowId × List Value))
      (h : scanFrom s.table.schema next slots = .ok rows) :
      ∀ found ∈ rows, found.2.length = s.table.declared.length := by
    induction slots generalizing next rows with
    | nil =>
      cases h
      exact List.forall_mem_nil _
    | cons slot rest ih =>
      cases slot with
      | none => exact ih (next + 1) rows h
      | some data =>
        obtain ⟨values, hvalues, h⟩ := Outcome.bind_eq_ok_iff.1 h
        obtain ⟨others, hothers, h⟩ := Outcome.bind_eq_ok_iff.1 h
        cases h
        refine List.forall_mem_cons.2 ⟨?_, ih (next + 1) others hothers⟩
        rw [Stored.length_of_decodeRow (Outcome.mapError_eq_ok_iff.1 hvalues), Table.length_schema]
  exact hscan s.slots.toList 0 rows h

theorem both_choose {f : Column → Column} (hcolumns : Renames s.table s'.table f)
    {p p' : Program} (hprogram : Fellow f s.table p p')
    (hclass : Mapping.Alike s.table s'.table m m') (sees : List Value → Bool)
    {rows : List (RowId × List Value)}
    (hrows : ∀ found ∈ rows, found.2.length = s.table.declared.length) :
    Both StoreError.Alike (fun a b => a.map shown = b.map shown) (choose p sees m rows)
      (choose p' sees m' rows) := by
  induction rows with
  | nil => exact .ok rfl
  | cons found rest ih =>
    obtain ⟨row, values⟩ := found
    obtain ⟨hlength, hrest⟩ := List.forall_mem_cons.1 hrows
    have hothers := ih hrest
    rw [choose, choose, hprogram.evaluateRow_eq hcolumns hlength]
    split
    · refine Both.bind_same .same _ fun v => ?_
      split
      · obtain ⟨r, r', hr, hr', hattributes⟩ := exists_decode hclass values
        rw [hr, hr']
        refine hothers.bind fun chosen chosen' hchosen => .ok ?_
        rw [List.map_cons, List.map_cons, hchosen, shown, shown, hattributes]
      · exact hothers
    · exact hothers

theorem tally_eq {f : Column → Column} (hcolumns : Renames s.table s'.table f) {p p' : Program}
    (hprogram : Fellow f s.table p p') {rows : List (RowId × List Value)}
    (hrows : ∀ found ∈ rows, found.2.length = s.table.declared.length) :
    tally p' rows = tally p rows := by
  induction rows with
  | nil => rfl
  | cons found rest ih =>
    obtain ⟨row, values⟩ := found
    obtain ⟨hlength, hrest⟩ := List.forall_mem_cons.1 hrows
    rw [tally, tally, hprogram.evaluateRow_eq hcolumns hlength, ih hrest]

theorem Twin.both_filter (h : Twin s s') {f : Column → Column}
    (hcolumns : Renames s.table s'.table f) (hclass : Mapping.Alike s.table s'.table m m')
    (condition : Expr) :
    Both StoreError.Alike (fun a b => a.map shown = b.map shown) (s.filter m condition)
      (s'.filter m' (condition.rename f)) := by
  unfold filter
  rw [checkClass_of_table hclass.table.1, checkClass_of_table hclass.table.2, visible_eq hclass,
    h.scan]
  simp only [Outcome.ok_bind]
  refine (h.both_compile hcolumns condition).bind fun p p' hprogram => ?_
  refine Both.bind_same .same _ fun sees => ?_
  cases hscan : s.scan with
  | error e => exact .error (.same e)
  | ok rows => exact both_choose hcolumns hprogram hclass sees (length_of_mem_scan hscan)

theorem Twin.both_count (h : Twin s s') {f : Column → Column}
    (hcolumns : Renames s.table s'.table f) (condition : Expr) :
    Both StoreError.Alike Eq (s.count condition) (s'.count (condition.rename f)) := by
  unfold count
  rw [h.scan]
  refine (h.both_compile hcolumns condition).bind fun p p' hprogram => ?_
  cases hscan : s.scan with
  | error e => exact .error (.same e)
  | ok rows =>
    simp only [Outcome.ok_bind]
    rw [tally_eq hcolumns hprogram (length_of_mem_scan hscan)]
    exact Both.same .same _

/-! ### Any request -/

/-- Twins reply alike to alike requests. -/
theorem Twin.reply (h : Twin s s') {request request' : Request}
    (halike : Request.Alike s.table s'.table request request') :
    Both StoreError.Alike Reply.Alike (s.reply request) (s'.reply request') := by
  cases halike with
  | write hcommand =>
    cases hcommand with
    | insert hclass hobject =>
      refine (h.both_insert hclass hobject).map fun added added' hadded => ?_
      rw [hadded.1]
      exact .same _
    | update row hclass hobject =>
      exact (h.both_update hclass row hobject).map fun _ _ _ => .same _
    | delete row => exact (h.both_delete row).map fun _ _ _ => .same _
  | values row =>
    rw [Store.reply, Store.reply, h.values]
    refine (Both.same .same _).map fun _ _ heq => ?_
    rw [heq]
    exact .same _
  | load row hclass => exact (h.both_load hclass row).map fun _ _ => .object
  | filter condition hclass hcolumns =>
    exact (h.both_filter hcolumns hclass condition).map fun _ _ => .objects
  | count condition hcolumns =>
    refine (h.both_count hcolumns condition).map fun _ _ heq => ?_
    rw [heq]
    exact .same _
  | size =>
    rw [Store.reply, Store.reply, h.size]
    exact .ok (.same _)
  | snapshot =>
    rw [Store.reply, Store.reply, h.snapshot]
    exact .ok (.same _)

/-- Alike commands leave twins. -/
theorem Twin.perform (h : Twin s s') {command command' : Command}
    (halike : Command.Alike s.table s'.table command command') :
    Twin (s.perform command) (s'.perform command') := by
  cases halike with
  | @insert m m' r r' hclass hobject =>
    have hboth := h.both_insert hclass hobject
    simp only [Store.perform]
    generalize s.insert m r = added, s'.insert m' r' = added' at hboth ⊢
    cases hboth with
    | ok hadded => exact hadded.2
    | error _ => exact h
  | @update m m' row r r' hclass hobject =>
    have hboth := h.both_update hclass row hobject
    simp only [Store.perform]
    generalize s.update m row r = after, s'.update m' row r' = after' at hboth ⊢
    cases hboth with
    | ok hafter => exact hafter
    | error _ => exact h
  | delete row =>
    have hboth := h.both_delete row
    simp only [Store.perform]
    generalize s.delete row = after, s'.delete row = after' at hboth ⊢
    cases hboth with
    | ok hafter => exact hafter
    | error _ => exact h

theorem Twin.next (h : Twin s s') {request request' : Request}
    (halike : Request.Alike s.table s'.table request request') :
    Twin (s.next request) (s'.next request') := by
  cases halike with
  | write hcommand => exact h.perform hcommand
  | _ => exact h

theorem table_next (s : Store) (request : Request) : (s.next request).table = s.table := by
  cases request with
  | write command => exact table_perform s command
  | _ => rfl

/-- So twins reply alike to any sequence of alike requests. -/
theorem Twin.replies (h : Twin s s') {requests requests' : List Request}
    (halike : List.Forall₂ (Request.Alike s.table s'.table) requests requests') :
    List.Forall₂ (Both StoreError.Alike Reply.Alike) (s.replies requests)
      (s'.replies requests') := by
  induction requests generalizing s s' requests' with
  | nil =>
    cases halike
    exact .nil
  | cons request rest ih =>
    cases halike with
    | cons hfirst hrest =>
      refine .cons (h.reply hfirst) (ih (h.next hfirst) ?_)
      rwa [table_next, table_next]

end Twins

end Store

end RowFlags
