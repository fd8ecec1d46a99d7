import RowFlags.Proofs.Store.Exchange
import RowFlags.Proofs.Store.Identity
import RowFlags.Proofs.Store.Inherited

/-!
# Rows of the classes of a hierarchy

The classes of a hierarchy share a table and the attribute that tells them apart, and each has an
identity of its own (`Session.Hierarchy`). A ledger keeps what a store is written with: the class
that each row was added through, and its last object (`Store.Recorded`). As long as objects keep their
identity, a class with a parent sees exactly the rows that were added through it, and the query that
is true of every row returns them with their last objects (`Store.filter_of_recorded`).
-/

set_option autoImplicit false

namespace RowFlags

/-! ## Hierarchies -/

/-- Models of classes that descend from a root with the attribute `key`. Each class has an identity
in the attribute, which no other one has and which is no leap second, and maps no column twice. -/
structure Session.Hierarchy (s : Session) (catalogName key : String) (root : Mapping)
    (family : Model → Prop) : Prop where
  reached : s.Reached
  held : s.Holds catalogName root
  keyed : root.hasAttribute key = true
  descends : ∀ model, family model → s.Descends catalogName root model.mapping
  identified : ∀ model, family model →
    ∃ v, model.mapping.discriminator = some ⟨key, v⟩ ∧ v.IsOrdinary
  distinct : ∀ model other, family model → family other →
    model.mapping.discriminator = other.mapping.discriminator → model.mapping = other.mapping
  single : ∀ model, family model → (model.mapping.properties.map Property.column).Nodup

namespace Session.Hierarchy

variable {s : Session} {catalogName key : String} {root : Mapping} {family : Model → Prop}
  {model : Model}

theorem wellFormed (h : s.Hierarchy catalogName key root family) (hmodel : family model) :
    model.mapping.WellFormed :=
  (h.reached.sound.mapping _ _ ((h.descends model hmodel).inherits h.reached h.held).1).2

theorem table_eq (h : s.Hierarchy catalogName key root family) (hmodel : family model) :
    model.mapping.table = root.table :=
  ((h.descends model hmodel).inherits h.reached h.held).2.1.symm

/-- The classes share the column of the discriminator, since they all have it from the root. -/
theorem exists_property (h : s.Hierarchy catalogName key root family) :
    ∃ p, p.key = key ∧ p.column ∈ root.table.columns ∧
      ∀ model, family model → p ∈ model.mapping.properties ∧
        model.mapping.property? key = some p := by
  obtain ⟨p, hp, hkey⟩ := Mapping.hasAttribute_iff.1 h.keyed
  refine ⟨p, hkey, (h.reached.sound.mapping _ _ h.held).2.binds.own p hp, fun model hmodel => ?_⟩
  obtain ⟨-, -, hprefix⟩ := (h.descends model hmodel).inherits h.reached h.held
  have hmem := hprefix.subset hp
  refine ⟨hmem, ?_⟩
  obtain ⟨q, hq⟩ := Option.isSome_iff_exists.1 (Mapping.hasAttribute_iff.2 ⟨p, hmem, hkey⟩)
  obtain ⟨hqmem, hqkey⟩ := Mapping.of_property? hq
  rw [hq, (h.wellFormed hmodel).binds.eq_of_key hqmem hmem (hqkey.trans hkey.symm)]

/-- No column has two attributes that could differ. -/
theorem agrees (h : s.Hierarchy catalogName key root family) (hmodel : family model) (r : Record) :
    Store.Agrees model.mapping r := by
  intro p hp q hq hcolumn
  rw [List.inj_on_of_nodup_map (h.single model hmodel) hp hq hcolumn]

end Session.Hierarchy

namespace Store

/-! ## Ledgers -/

/-- For each row that there is, the class that it was added through and its last object. -/
abbrev Ledger := RowId → Option (Mapping × Record)

/-- The entry of the row that a command writes to. -/
def Command.entryAfter (old : Option (Mapping × Record)) : Command → Option (Mapping × Record)
  | .insert m r => some (m, r)
  | .update _ _ r => old.map fun entry => (entry.1, r)
  | .delete _ => none

/-- The ledger after a command; a refused one leaves it. -/
def register (s : Store) (ledger : Ledger) (command : Command) : Ledger :=
  match s.effect? command with
  | none => ledger
  | some e => fun row => if row = e.row then command.entryAfter (ledger row) else ledger row

/-- The object was made by a model of the family on the class, and its attribute left alone. -/
def Made (family : Model → Prop) (key : String) (m : Mapping) (r : Record) : Prop :=
  ∃ model, family model ∧ model.mapping = m ∧ model.Genuine key r

/-- Objects go to the store through the classes that they were made for, and to a row through the
class that it was added through. -/
def Command.Proper (family : Model → Prop) (key : String) (ledger : Ledger) : Command → Prop
  | .insert m r => Made family key m r
  | .update m row r => Made family key m r ∧ ∀ owner old, ledger row = some (owner, old) → owner = m
  | .delete _ => True

/-- The stores that proper commands with short texts write to, with their ledgers. -/
inductive Recorded (family : Model → Prop) (key : String) (t : Table) : Store → Ledger → Prop
  | empty : Recorded family key t (empty t) fun _ => none
  | step {s : Store} {ledger : Ledger} (h : Recorded family key t s ledger) (command : Command)
    (hproper : command.Proper family key ledger) (hshort : command.Short) :
    Recorded family key t (s.perform command) (s.register ledger command)

variable {family : Model → Prop} {key : String} {s : Store} {ledger : Ledger} {row : RowId}

/-- A row holds the stored form of its object, or there is no such row. -/
inductive RowKept (family : Model → Prop) (key : String) (s : Store) (ledger : Ledger)
    (row : RowId) : Prop
  | gone (hledger : ledger row = none) (hrow : s.row? row = none)
  | live {m : Mapping} {r : Record} {data : List UInt8} (hledger : ledger row = some (m, r))
    (hrow : s.row? row = some data)
    (hencode : Stored.encodeRow s.table.schema (s.columnValues m r) = .ok data)
    (hshort : ∀ v ∈ s.columnValues m r, v.Short) (hmade : Made family key m r)

namespace RowKept

theorem exists_iff (h : RowKept family key s ledger row) :
    row ∈ s.liveRows ↔ ∃ entry, ledger row = some entry := by
  rw [mem_liveRows_iff]
  cases h with
  | gone hledger hrow => simp [hledger, hrow]
  | live hledger hrow => simp [hledger, hrow]

/-- A row reads as its object was written, but for leap seconds. -/
theorem values_eq (h : RowKept family key s ledger row) {m : Mapping} {r : Record}
    (hentry : ledger row = some (m, r)) :
    s.values row = .ok ((s.columnValues m r).map Value.ordinary) ∧ Made family key m r := by
  cases h with
  | gone hledger _ =>
    rw [hledger] at hentry
    cases hentry
  | live hledger hrow hencode hshort hmade =>
    cases hledger.symm.trans hentry
    exact ⟨values_of_encodeRow hrow hencode hshort, hmade⟩

end RowKept

/-- A proper command that writes an object makes it the entry of the row, and it is made by the
family. -/
theorem entryAfter_eq {command : Command} {e : Effect} (he : s.effect? command = some e)
    (hproper : command.Proper family key ledger) (hkept : ∀ row, RowKept family key s ledger row) :
    command.entryAfter (ledger e.row) = command.entry? ∧
      ∀ entry, command.entry? = some entry → Made family key entry.1 entry.2 := by
  cases command with
  | insert m r =>
    refine ⟨rfl, ?_⟩
    rintro _ ⟨⟩
    exact hproper
  | update m row r =>
    obtain ⟨hmade, howner⟩ := hproper
    refine ⟨?_, ?_⟩
    · simp only [effect?] at he
      split at he
      · next next hupdate =>
        cases he
        -- there is the row, so the ledger names its class, which is that of the update
        obtain ⟨-, -, ⟨old, hold⟩, -⟩ := update_eq_ok_iff.1 hupdate
        obtain ⟨⟨owner, was⟩, hentry⟩ := (hkept row).exists_iff.1 (mem_liveRows_iff.2 ⟨old, hold⟩)
        simp only [Effect.row, Command.entryAfter, Command.entry?, hentry, Option.map_some,
          howner owner was hentry]
      · cases he
    · rintro _ ⟨⟩
      exact hmade
  | delete row =>
    refine ⟨rfl, ?_⟩
    intro entry hentry
    cases hentry

/-- A command keeps its row as its ledger says, and leaves the others. -/
theorem rowKept_step {command : Command} (hproper : command.Proper family key ledger)
    (hshort : command.Short) (hkept : ∀ row, RowKept family key s ledger row) (row : RowId) :
    RowKept family key (s.perform command) (s.register ledger command) row := by
  unfold register
  rcases s.effect?_cases command with ⟨hnone, hsame⟩ | ⟨e, heffect, hwrites⟩
  · rw [hnone, hsame]
    exact hkept row
  · rw [heffect]
    dsimp only
    have htable := hwrites.table
    have hcolumns (m : Mapping) (r : Record) :
        (s.perform command).columnValues m r = s.columnValues m r := by
      rw [columnValues, columnValues, htable]
    by_cases heq : row = e.row
    · subst heq
      obtain ⟨hentry, hmade⟩ := entryAfter_eq heffect hproper hkept
      have hvalues := values?_of_effect? heffect
      rcases hwrites.row?_self with ⟨values, data, hwritten, hrow, hencode⟩ | ⟨hwritten, hrow⟩
      · have hshortValues := short_of_effect? hshort heffect hwritten
        rw [hwritten, eq_comm, Option.map_eq_some_iff] at hvalues
        obtain ⟨⟨m, r⟩, hcommand, rfl⟩ := hvalues
        rw [← hcolumns] at hencode hshortValues
        refine .live ?_ hrow hencode hshortValues (hmade _ hcommand)
        rw [if_pos rfl, hentry, hcommand]
      · rw [hwritten, eq_comm, Option.map_eq_none_iff] at hvalues
        refine .gone ?_ hrow
        rw [if_pos rfl, hentry, hvalues]
    · have hframe := hwrites.row?_of_ne heq
      cases hkept row with
      | gone hledger hrow =>
        refine .gone ?_ (hframe.trans hrow)
        rw [if_neg heq, hledger]
      | live hledger hrow hencode hshortValues hmade =>
        rw [← htable, ← hcolumns] at hencode
        rw [← hcolumns] at hshortValues
        refine .live ?_ (hframe.trans hrow) hencode hshortValues hmade
        rw [if_neg heq, hledger]

/-- A recorded store keeps every row as its ledger says. -/
theorem Recorded.kept {t : Table} (h : Recorded family key t s ledger) :
    s.table = t ∧ ∀ row, RowKept family key s ledger row := by
  induction h with
  | empty => exact ⟨rfl, fun row => .gone rfl (by simp [row?, Store.empty])⟩
  | step _ command hproper hshort ih =>
    obtain ⟨htable, hkept⟩ := ih
    exact ⟨(table_perform _ command).trans htable, rowKept_step hproper hshort hkept⟩

/-! ## What the classes see -/

section Isolation

variable {session : Session} {catalogName : String} {root : Mapping} {model : Model} {m : Mapping}
  {r : Record}

/-- A row holds the identity of the class that it was added through, in the column of the
discriminator. -/
theorem identity_of_entry (h : session.Hierarchy catalogName key root family)
    (htable : s.table = root.table) (hkept : RowKept family key s ledger row)
    (hentry : ledger row = some (m, r)) {p : Property} (hkey : p.key = key)
    (hcolumn : p.column ∈ root.table.columns)
    (hp : ∀ model, family model → p ∈ model.mapping.properties) :
    ∃ values v, s.values row = .ok values ∧ m.discriminator = some ⟨key, v⟩ ∧
      values[p.column.position]? = some v := by
  obtain ⟨hvalues, maker, hmaker, rfl, hgenuine⟩ := hkept.values_eq hentry
  obtain ⟨v, hv, hordinary⟩ := h.identified maker hmaker
  refine ⟨_, v, hvalues, hv, ?_⟩
  have hwritten := columnValue_of_agrees (hgenuine.isOf (h.wellFormed hmaker))
    (h.agrees hmaker r) (hp maker hmaker)
  rw [hkey, hgenuine.identity hv] at hwritten
  rw [List.getElem?_map, getElem?_columnValues (htable ▸ hcolumn), ← Option.some.inj hwritten,
    Option.map_some, Value.ordinary_eq_self hordinary]

/-- A class with a parent sees the rows that were added through it, and no others. -/
theorem shows_iff_of_entry (h : session.Hierarchy catalogName key root family)
    (htable : s.table = root.table) (hkept : RowKept family key s ledger row)
    (hentry : ledger row = some (m, r)) (hmodel : family model) {parent : ClassId}
    (hparent : model.mapping.parent = some parent) :
    s.shows model.mapping row = true ↔ m = model.mapping := by
  obtain ⟨p, hkey, hcolumn, hp⟩ := h.exists_property
  obtain ⟨values, v, hvalues, hv, hread⟩ :=
    identity_of_entry h htable hkept hentry hkey hcolumn fun model hmodel => (hp model hmodel).1
  obtain ⟨-, maker, hmaker, rfl, -⟩ := hkept.values_eq hentry
  obtain ⟨own, hown, -⟩ := h.identified model hmodel
  have hshows : s.shows model.mapping row = decide (v = own) := by
    simp [shows, hparent, hown, (hp model hmodel).2, hvalues, hread]
  rw [hshows, decide_eq_true_eq]
  constructor
  · rintro rfl
    exact h.distinct maker model hmaker hmodel (hv.trans hown.symm)
  · intro heq
    rw [heq, hown] at hv
    exact (Discriminator.mk.inj (Option.some.inj hv)).2.symm

/-- The object is the other one with ordinary instants for leap seconds. -/
structure ComesBack (r object : Record) : Prop where
  classId : object.classId = r.classId
  attributes : ∀ name, object.attribute? name = (r.attribute? name).map Value.ordinary

theorem ComesBack.eq {r object other : Record} (h : ComesBack r object) (k : ComesBack r other) :
    object = other := by
  refine Record.eq_of_attribute? (h.classId.trans k.classId.symm) fun name => ?_
  rw [h.attributes, k.attributes]

/-- A row that was added through a class comes back through it as its last object. -/
theorem comesBack_of_entry (h : session.Hierarchy catalogName key root family)
    (htable : s.table = root.table) (hkept : RowKept family key s ledger row)
    (hmodel : family model) (hentry : ledger row = some (model.mapping, r)) {object : Record}
    (hload : s.load model.mapping row = .ok object) : ComesBack r object := by
  have hwell := h.wellFormed hmodel
  have hmapped : model.mapping.table = s.table := (h.table_eq hmodel).trans htable.symm
  obtain ⟨hvalues, maker, hmaker, hsame, hgenuine⟩ := hkept.values_eq hentry
  have hr : r.IsOf model.mapping := hsame ▸ hgenuine.isOf (h.wellFormed hmaker)
  rw [load_eq_bind hmapped, hvalues, Outcome.ok_bind] at hload
  obtain ⟨made, hmade, hof, hown⟩ :=
    decode_eq_ok hwell ((s.columnValues model.mapping r).map Value.ordinary)
  obtain rfl := Except.ok.inj (hmade.symm.trans hload)
  refine ⟨hof.classId.trans hr.classId.symm, ?_⟩
  refine attribute?_load_insert hr (h.agrees hmodel r) hof fun p hp => ?_
  rw [hown p hp, List.getElem?_map, getElem?_columnValues (hmapped ▸ hwell.binds.own p hp),
    Option.map_some, Option.getD_some]

/-- The query that is true of every row returns what the class sees. -/
theorem filter_true (hwell : m.WellFormed) (htable : m.table = s.table) {condition : Expr}
    (hcondition : condition.compile = .ok [.push (.boolean true)])
    (hread : ∀ row ∈ s.liveRows, ∃ values, s.values row = .ok values) :
    ∃ object : RowId → Record, (∀ row ∈ s.liveRows, s.load m row = .ok (object row)) ∧
      s.filter m condition = .ok ((s.visibleRows m).map fun row => (row, object row)) := by
  obtain ⟨valuesAt, hvalues⟩ := exists_valuesAt fun row hrow =>
    (hread row hrow).imp fun _ h => ⟨h, trivial⟩
  obtain ⟨sees, hsees, hshown⟩ := s.exists_visible hwell
  obtain ⟨object, hobject⟩ := Classical.skolem.1 fun row =>
    (decode_eq_ok hwell (valuesAt row)).imp fun _ => And.left
  refine ⟨object, ?_, ?_⟩
  · intro row hrow
    rw [load_eq_bind htable, (hvalues row hrow).1]
    exact hobject row
  · have hprogram : Program.ofExpr condition = .ok ⟨condition, [.push (.boolean true)]⟩ := by
      rw [Program.ofExpr, hcondition]
      rfl
    have hcompile : s.compile condition = .ok ⟨condition, [.push (.boolean true)]⟩ :=
      compile_eq_ok hprogram fun c hc => absurd hc List.not_mem_nil
    rw [filter_eq_choose htable hcompile hsees fun row hrow => (hvalues row hrow).1]
    have hseen : ∀ row ∈ s.liveRows, sees (valuesAt row) = s.shows m row :=
      fun row hrow => hshown row _ (hvalues row hrow).1
    have hanswer : ∀ row ∈ s.liveRows, (Except.ok true : Except FlagError Bool) =
        (Value.truthy <$> evaluateRow ⟨condition, [.push (.boolean true)]⟩ (valuesAt row)).mapError
          FlagError.eval := fun _ _ => rfl
    rcases choose_cases hseen (fun row _ => hobject row) hanswer with
      ⟨-, hchoose⟩ | ⟨_, _, _, _, -, -, hfails, -⟩
    · rw [hchoose]
      simp [visibleRows]
    · cases hfails

/-- Rows are listed in rising order. -/
theorem pairwise_liveRows (s : Store) : s.liveRows.Pairwise fun a b => a.number < b.number := by
  have hslots : ((List.range s.slots.size).map RowId.mk).Pairwise fun a b => a.number < b.number :=
    List.pairwise_map.2 List.pairwise_lt_range
  exact hslots.filter _

/-- A store of a hierarchy's table that only proper commands wrote to has the rows of its ledger.
The query that is true of every row succeeds through every class of the hierarchy and returns rows in
rising order, each with the object that it loads as. Through a class without a parent, these are all
rows; through another, those that were added through it, each with its last object, leap seconds as
ordinary instants. -/
theorem filter_of_recorded (h : session.Hierarchy catalogName key root family)
    (hrecorded : Recorded family key root.table s ledger) (hmodel : family model)
    {condition : Expr} (hcondition : condition.compile = .ok [.push (.boolean true)]) :
    (∀ row, row ∈ s.liveRows ↔ ∃ entry, ledger row = some entry) ∧
    ∃ found, s.filter model.mapping condition = .ok found ∧
      found.Pairwise (fun a b => a.1.number < b.1.number) ∧
      (∀ entry ∈ found, s.load model.mapping entry.1 = .ok entry.2) ∧
      (model.mapping.parent = none → found.map Prod.fst = s.liveRows) ∧
      ∀ parent, model.mapping.parent = some parent → ∀ row object,
        (row, object) ∈ found ↔
          ∃ r, ledger row = some (model.mapping, r) ∧ ComesBack r object := by
  obtain ⟨htable, hkept⟩ := hrecorded.kept
  have hlive (row : RowId) := (hkept row).exists_iff
  have hread : ∀ row ∈ s.liveRows, ∃ values, s.values row = .ok values := by
    intro row hrow
    obtain ⟨⟨m, r⟩, hentry⟩ := (hlive row).1 hrow
    exact ⟨_, ((hkept row).values_eq hentry).1⟩
  have hmapped : model.mapping.table = s.table := (h.table_eq hmodel).trans htable.symm
  obtain ⟨object, hload, hfilter⟩ :=
    filter_true (h.wellFormed hmodel) hmapped hcondition hread
  refine ⟨hlive, _, hfilter, ?_, ?_, ?_, ?_⟩
  · exact List.pairwise_map.2 (s.pairwise_liveRows.filter _)
  · intro entry hentry
    obtain ⟨row, hrow, rfl⟩ := List.mem_map.1 hentry
    exact hload row (List.mem_filter.1 hrow).1
  · intro hparent
    have hall : s.visibleRows model.mapping = s.liveRows := by
      rw [visibleRows, List.filter_eq_self]
      intro row _
      simp [shows, hparent]
    rw [hall, List.map_map]
    exact List.map_id _
  · intro parent hparent row found
    have hshown (m : Mapping) (r : Record) (hentry : ledger row = some (m, r)) :=
      shows_iff_of_entry h htable (hkept row) hentry hmodel hparent
    have hback (r : Record) (hentry : ledger row = some (model.mapping, r))
        (hrow : row ∈ s.liveRows) : ComesBack r (object row) :=
      comesBack_of_entry h htable (hkept row) hmodel hentry (hload row hrow)
    constructor
    · -- what is found is seen, so it was added through this class
      intro hmem
      obtain ⟨_, hrow, heq⟩ := List.mem_map.1 hmem
      cases heq
      obtain ⟨hrow, hsees⟩ := List.mem_filter.1 hrow
      obtain ⟨⟨m, r⟩, hentry⟩ := (hlive row).1 hrow
      obtain rfl := (hshown m r hentry).1 hsees
      exact ⟨r, hentry, hback r hentry hrow⟩
    · rintro ⟨r, hentry, hfound⟩
      have hrow : row ∈ s.liveRows := (hlive row).2 ⟨_, hentry⟩
      rw [hfound.eq (hback r hentry hrow)]
      exact List.mem_map.2 ⟨row, List.mem_filter.2 ⟨hrow, (hshown _ r hentry).2 rfl⟩, rfl⟩

end Isolation

/-- Items and boxes. -/
def sampleFamily (model : Model) : Prop := model = sampleItems ∨ model = sampleModel

theorem hierarchy_sampleFamily :
    sampleSession.Hierarchy "main" "kind" sampleItem sampleFamily where
  reached := reached_sampleSession
  held := by
    show sampleItem ∈ _
    decide
  keyed := by decide
  descends := by
    rintro _ (rfl | rfl)
    · exact .refl
    · exact .step .refl (by show sampleBox ∈ _; decide) rfl
  identified := by
    rintro _ (rfl | rfl)
    · exact ⟨_, rfl, trivial⟩
    · exact ⟨_, rfl, trivial⟩
  distinct := by
    rintro _ _ (rfl | rfl) (rfl | rfl) hsame
    · rfl
    · exact absurd hsame (by decide)
    · exact absurd hsame (by decide)
    · rfl
  single := by
    rintro _ (rfl | rfl)
    · decide
    · decide

/-- What a model makes of a weight. -/
def sampleWeighed (model : Model) (grams : Int32) : Record :=
  ⟨model.mapping.id, model.newRecord.attributes.insert "grams" (.int32 grams)⟩

theorem made_sampleWeighed {model : Model} (hmodel : sampleFamily model) (grams : Int32) :
    Made sampleFamily "kind" model.mapping (sampleWeighed model grams) := by
  have hspared : ∀ entry ∈ [("grams", Value.int32 grams)],
      model.target? sampleSession.workspace entry.1 ≠ some "kind" := by
    have hplain : model.target? sampleSession.workspace "grams" ≠ some "kind" := by
      rcases hmodel with rfl | rfl
      · decide
      · decide
    exact List.forall_mem_singleton.2 hplain
  have hcreate : (model.create sampleSession.workspace [("grams", .int32 grams)]).1 =
      .ok (sampleWeighed model grams) := by
    rcases hmodel with rfl | rfl
    · rfl
    · rfl
  exact ⟨model, hmodel, rfl, .create hspared hcreate⟩

theorem short_sampleWeighed {model : Model} (hmodel : sampleFamily model) (grams : Int32) :
    ∀ key v, (sampleWeighed model grams).attribute? key = some v → v.Short := by
  have hnew : ∀ e ∈ model.newRecord.attributes.entries, e.2.Short := by
    rcases hmodel with rfl | rfl
    · decide
    · decide
  intro key v hv
  rw [sampleWeighed, Record.attribute?, NameMap.get?_insert] at hv
  split at hv
  · cases hv
    trivial
  · exact hnew (key, v) (NameMap.mem_of_find?_eq_some hv)

/-- An item and two boxes come in; then the first box gets another weight, and the second goes. -/
def sampleDeliveries : List Command :=
  [.insert sampleItem (sampleWeighed sampleItems 5),
    .insert sampleBox (sampleWeighed sampleModel 10),
    .insert sampleBox (sampleWeighed sampleModel 50),
    .update sampleBox ⟨1⟩ (sampleWeighed sampleModel 20), .delete ⟨2⟩]

/-- The store after the deliveries. -/
def sampleStock : Store := (empty sampleTable).run sampleDeliveries

theorem exists_recorded_sampleStock :
    ∃ ledger, Recorded sampleFamily "kind" sampleTable sampleStock ledger ∧
      ledger ⟨0⟩ = some (sampleItem, sampleWeighed sampleItems 5) ∧
      ledger ⟨1⟩ = some (sampleBox, sampleWeighed sampleModel 20) ∧ ledger ⟨2⟩ = none := by
  have hitem := made_sampleWeighed (.inl rfl)
  have hbox := made_sampleWeighed (.inr rfl)
  refine ⟨_, .step (.step (.step (.step (.step .empty
    (.insert sampleItem (sampleWeighed sampleItems 5)) (hitem 5) ?_)
    (.insert sampleBox (sampleWeighed sampleModel 10)) (hbox 10) ?_)
    (.insert sampleBox (sampleWeighed sampleModel 50)) (hbox 50) ?_)
    (.update sampleBox ⟨1⟩ (sampleWeighed sampleModel 20)) ⟨hbox 20, ?_⟩ ?_)
    (.delete ⟨2⟩) trivial trivial, by decide +kernel, by decide +kernel, by decide +kernel⟩
  · exact short_sampleWeighed (.inl rfl) 5
  · exact short_sampleWeighed (.inr rfl) 10
  · exact short_sampleWeighed (.inr rfl) 50
  · intro owner old hentry
    have howner := congrArg (Option.map Prod.fst) hentry
    exact Option.some.inj (howner.symm.trans (by decide +kernel))
  · exact short_sampleWeighed (.inr rfl) 20

/-- Boxes are found without the item, and with the weight that they got last; items are both. -/
theorem filter_of_recorded_sampleStock :
    ∃ found all, sampleStock.filter sampleBox (.literal (.boolean true)) = .ok found ∧
      sampleStock.filter sampleItem (.literal (.boolean true)) = .ok all ∧
      (∀ object, (⟨0⟩, object) ∉ found) ∧
      (∀ object, (⟨1⟩, object) ∈ found ↔ ComesBack (sampleWeighed sampleModel 20) object) ∧
      all.map Prod.fst = [⟨0⟩, ⟨1⟩] := by
  obtain ⟨ledger, hrecorded, hitem, hbox, -⟩ := exists_recorded_sampleStock
  obtain ⟨-, found, hfound, -, -, -, hiff⟩ :=
    filter_of_recorded hierarchy_sampleFamily hrecorded (.inr rfl)
      (rfl : (Expr.literal (.boolean true)).compile = _)
  obtain ⟨-, all, hall, -, -, hrows, -⟩ :=
    filter_of_recorded hierarchy_sampleFamily hrecorded (.inl rfl)
      (rfl : (Expr.literal (.boolean true)).compile = _)
  refine ⟨found, all, hfound, hall, ?_, ?_, ?_⟩
  · intro object hmem
    obtain ⟨r, hentry, -⟩ := (hiff _ rfl _ _).1 hmem
    rw [hitem] at hentry
    cases congrArg (Option.map fun entry => entry.1.id.number) hentry
  · intro object
    rw [hiff _ rfl, hbox]
    constructor
    · rintro ⟨r, hentry, hback⟩
      cases hentry
      exact hback
    · exact fun hback => ⟨_, rfl, hback⟩
  · rw [hrows rfl]
    decide +kernel

end Store

end RowFlags
