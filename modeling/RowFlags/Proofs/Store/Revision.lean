import RowFlags.Proofs.Store.Exchange
import RowFlags.Proofs.Store.Typed
import RowFlags.Proofs.Stored.Canonical

/-!
# Rows written back

A row that is read as an object and written back through the same class keeps what the class maps
(`Store.kept`): the columns that the class leaves out become NULL. Nothing is refused on the way,
since what a row holds can be stored again (`Value.Readable`), and reads as it was
(`Store.update_load`).
-/

set_option autoImplicit false

namespace RowFlags

/-- What the reader of rows makes values of: texts whose length four bytes hold, and the instants of
nanosecond counts. -/
structure Value.Readable (v : Value) : Prop where
  short : v.Short
  ordinary : v.IsOrdinary
  storable : ∀ t, v = .timestamp t → Instant.Storable t.nanoseconds

theorem Value.readable_null : Value.Readable .null :=
  ⟨trivial, trivial, fun _ h => nomatch h⟩

namespace Stored

theorem Spells.readable {type : ColumnType} {bytes : List UInt8} {value : Value}
    (h : Spells type bytes value) : value.Readable := by
  cases h with
  | boolean b => exact ⟨trivial, trivial, fun _ h => nomatch h⟩
  | int32 hwidth => exact ⟨trivial, trivial, fun _ h => nomatch h⟩
  | @varchar count s hwidth hcount =>
    refine ⟨?_, trivial, fun _ h => nomatch h⟩
    have hrange := toNat_lt count
    rw [hwidth, hcount] at hrange
    exact hrange
  | @timestamp bytes hwidth =>
    refine ⟨trivial, Instant.nanos_ofNanoseconds_lt _ _, ?_⟩
    intro t ht
    rw [← Value.timestamp.inj ht, Instant.nanoseconds_ofNanoseconds]
    exact storable_toInt bytes

theorem SpellsFields.readable {fields : List (ColumnType × Bool)} {bytes : List UInt8}
    {values : List Value} (h : SpellsFields fields bytes values) :
    ∀ v ∈ values, v.Readable := by
  induction h with
  | nil => exact List.forall_mem_nil _
  | null _ ih => exact List.forall_mem_cons.2 ⟨Value.readable_null, ih⟩
  | value hfirst _ ih => exact List.forall_mem_cons.2 ⟨hfirst.readable, ih⟩

/-- A row that was read has a readable value of its type or NULL for every column. -/
theorem of_decodeRow {schema : List ColumnType} {data : List UInt8} {values : List Value}
    (h : decodeRow schema data = .ok values) :
    values.length = schema.length ∧ (∀ field ∈ schema.zip values, field.2.fits field.1 = true) ∧
      ∀ v ∈ values, v.Readable := by
  obtain ⟨front, rest, -, hspells⟩ := decodeRow_eq_ok_iff.1 h
  obtain ⟨hlength, hfits, -⟩ := encodeRow_eq_ok_iff.1 hspells.encodeRow_eq
  obtain ⟨bits, fields, -, -, hfields⟩ := hspells
  exact ⟨hlength, hfits, hfields.readable⟩

/-- Readable values of the columns' types are written, and read as they were. -/
theorem exists_encodeRow_of_readable {schema : List ColumnType} {values : List Value}
    (hlength : values.length = schema.length)
    (hfits : ∀ field ∈ schema.zip values, field.2.fits field.1 = true)
    (hreadable : ∀ v ∈ values, v.Readable) :
    ∃ bytes, encodeRow schema values = .ok bytes ∧ decodeRow schema bytes = .ok values := by
  cases hencode : encodeRow schema values with
  | error e =>
    obtain ⟨t, ht, hout, -⟩ := exists_of_encodeRow_eq_error hencode hlength hfits
    exact absurd ((hreadable _ ht).storable t rfl) hout
  | ok bytes =>
    have hdecode :=
      (spellsRow_of_encodeRow hencode fun v hv => (hreadable v hv).short).decodeRow_eq
    have hsame : values.map Value.ordinary = values.map id :=
      List.map_congr_left fun v hv => Value.ordinary_eq_self (hreadable v hv).ordinary
    rw [hsame, List.map_id] at hdecode
    exact ⟨bytes, rfl, hdecode⟩

end Stored

namespace Store

/-- What a class keeps of a row's values: NULL stands for the columns that it does not map. -/
def kept (m : Mapping) (t : Table) (values : List Value) : List Value :=
  t.columns.map fun c => if m.mapsColumn c then (values[c.position]?).getD .null else .null

section Kept

variable {m : Mapping} {t : Table} {values : List Value}

theorem length_kept : (kept m t values).length = t.schema.length := by
  rw [kept, List.length_map, Table.length_columns, Table.length_schema]

/-- A class keeps a row as it is if the columns that it leaves out are NULL. -/
theorem kept_eq_self_iff (hlength : values.length = t.schema.length) :
    kept m t values = values ↔
      ∀ c ∈ t.columns, m.mapsColumn c = false → values[c.position]? = some .null := by
  constructor
  · intro hsame c hc hleft
    rw [← hsame, kept, List.getElem?_map, Table.columns_position hc, Option.map_some, hleft]
    rfl
  · intro hnull
    refine List.ext_getElem (length_kept.trans hlength.symm) fun i hi hvalue => ?_
    have hplace : i < t.columns.length := by simpa [kept] using hi
    have hc := List.getElem_mem hplace
    have hposition := Table.position_of_getElem? (List.getElem?_eq_getElem hplace)
    simp only [kept, List.getElem_map]
    split
    · simp [hposition, hvalue]
    · next hleft =>
      have hread := hnull _ hc (Bool.eq_false_iff.2 hleft)
      rw [hposition, List.getElem?_eq_getElem hvalue] at hread
      exact (Option.some.inj hread).symm

theorem mem_kept {v : Value} (hv : v ∈ kept m t values) : v = .null ∨ v ∈ values := by
  obtain ⟨c, -, rfl⟩ := List.mem_map.1 hv
  split
  · cases hvalue : values[c.position]? with
    | none => exact .inl rfl
    | some v => exact .inr (List.mem_of_getElem? hvalue)
  · exact .inl rfl

theorem fits_kept
    (hfits : ∀ field ∈ t.schema.zip values, field.2.fits field.1 = true) :
    ∀ field ∈ t.schema.zip (kept m t values), field.2.fits field.1 = true := by
  rw [Table.schema_eq, kept, List.zip_map', List.forall_mem_map]
  intro c hc
  dsimp only
  split
  · cases hvalue : values[c.position]? with
    | none => rfl
    | some v =>
      refine hfits (c.type, v) (List.mem_of_getElem? (i := c.position) ?_)
      rw [List.getElem?_zip_eq_some, Table.schema_eq, List.getElem?_map, Table.columns_position hc]
      exact ⟨rfl, hvalue⟩
  · rfl

theorem readable_kept (hreadable : ∀ v ∈ values, v.Readable) :
    ∀ v ∈ kept m t values, v.Readable := by
  intro v hv
  rcases mem_kept hv with rfl | hv
  · exact Value.readable_null
  · exact hreadable v hv

/-- The object that values make gives the columns what its class keeps of the values. -/
theorem columnValues_of_decode {s : Store} {object : Record}
    (hown : ∀ p ∈ m.properties,
      object.attribute? p.key = some ((values[p.column.position]?).getD .null)) :
    s.columnValues m object = kept m s.table values := by
  refine List.map_congr_left fun c _ => ?_
  rw [columnValue_eq]
  split
  · next hnone =>
    rw [if_neg]
    simp only [Mapping.mapsColumn, List.any_eq_true, decide_eq_true_eq]
    rintro ⟨p, hp, rfl⟩
    exact Mapping.namesOf_ne_nil_iff.2 (Mapping.mem_columns_iff.2 ⟨p, hp, rfl⟩) hnone
  · next key others hnames =>
    have hkey : key ∈ m.namesOf c := by
      rw [hnames]
      exact List.mem_cons_self
    obtain ⟨p, hp, rfl, rfl⟩ := Mapping.mem_namesOf_iff.1 hkey
    have hmapped : m.mapsColumn p.column = true := by
      simpa [Mapping.mapsColumn] using ⟨p, hp, rfl⟩
    rw [if_pos hmapped, hown p hp, Option.getD_some]

end Kept

variable {s : Store} {m : Mapping} {row : RowId} {values : List Value}

/-- A row that reads is written back, and reads as what the class keeps of it. -/
theorem exists_update_load (hm : m.WellFormed) (htable : m.table = s.table)
    (hvalues : s.values row = .ok values) :
    ∃ r after, s.load m row = .ok r ∧ s.update m row r = .ok after ∧
      after.values row = .ok (kept m s.table values) ∧
      ∀ other, other ≠ row → after.row? other = s.row? other := by
  obtain ⟨old, hold, hdecode⟩ := values_eq_ok_iff.1 hvalues
  obtain ⟨hlength, hfits, hreadable⟩ := Stored.of_decodeRow hdecode
  obtain ⟨object, hobject, -, hown⟩ := decode_eq_ok hm values
  have hcount : (kept m s.table values).length = s.table.schema.length := length_kept
  obtain ⟨data, hencode, hreads⟩ :=
    Stored.exists_encodeRow_of_readable hcount (fits_kept hfits) (readable_kept hreadable)
  have hwritten : s.encode m object = .ok data := by
    rw [encode_eq_ok_iff, columnValues_of_decode hown]
    exact ⟨congrArg Table.id htable, hencode⟩
  refine ⟨object, _, ?_, update_eq_ok_iff.2 ⟨data, hwritten, ⟨old, hold⟩, rfl⟩, ?_, ?_⟩
  · rw [load_eq_bind htable, hvalues, Outcome.ok_bind, hobject]
  · refine values_eq_ok_iff.2 ⟨data, ?_, hreads⟩
    rw [row?_set hold, if_pos rfl]
  · intro other hother
    rw [row?_set hold, if_neg fun heq => hother (congrArg RowId.mk heq)]

/-- Reading a row through a class on its table and writing it back is not refused and leaves the
other rows. Of the row's values, those of the columns that the class maps stay, and the others
become NULL: the row is as it was exactly if they were NULL before. This is so of every row that
reads, as every row does of a store that only commands with short texts wrote to. -/
theorem update_load {session : Session} (hsession : session.Reached) {catalogName : String}
    {m : Mapping} (hm : session.Holds catalogName m) {s : Store} (htable : s.table ∈ session.tables)
    (hclass : m.table.id = s.table.id) :
    (∀ row values, s.values row = .ok values →
      ∃ r after, s.load m row = .ok r ∧ s.update m row r = .ok after ∧
        after.values row = .ok (kept m s.table values) ∧
        (after.values row = s.values row ↔
          ∀ c ∈ s.table.columns, m.mapsColumn c = false → values[c.position]? = some .null) ∧
        ∀ other, other ≠ row → after.values other = s.values other) ∧
    ∀ commands, (∀ command ∈ commands, command.Short) → s = (empty s.table).run commands →
      ∀ row ∈ s.liveRows, ∃ values, s.values row = .ok values := by
  have hsound := hsession.sound
  obtain ⟨hmtable, hmwell⟩ := hsound.mapping catalogName m hm
  have hsame : m.table = s.table := hsound.table_eq hmtable htable hclass
  constructor
  · intro row values hvalues
    obtain ⟨r, after, hload, hupdate, hkept, hframe⟩ := exists_update_load hmwell hsame hvalues
    refine ⟨r, after, hload, hupdate, hkept, ?_, ?_⟩
    · obtain ⟨_, -, hdecode⟩ := values_eq_ok_iff.1 hvalues
      rw [hkept, hvalues, Except.ok.injEq, kept_eq_self_iff (Stored.of_decodeRow hdecode).1]
    · intro other hother
      obtain ⟨data, -, -, rfl⟩ := update_eq_ok_iff.1 hupdate
      simp only [Store.values, hframe other hother]
      rfl
  · intro commands hshort hrun row hrow
    have hwritten := ((sound_empty s.table).run hshort).1
    rw [← hrun] at hwritten
    obtain ⟨values, hvalues, -⟩ := hwritten.exists_values hrow
    exact ⟨values, hvalues⟩

/-- Notes with a number and a text. -/
def sampleNotes : Table :=
  ⟨⟨1⟩, "note", [⟨"id", .int32⟩, ⟨"body", .varchar⟩], by decide, by decide⟩

/-- The class that shows all of a note. -/
def sampleNote : Mapping where
  id := ⟨1⟩
  className := "Note"
  table := sampleNotes
  properties := [⟨"id", ⟨⟨1⟩, 0, "note", "id", .int32⟩⟩,
    ⟨"body", ⟨⟨1⟩, 1, "note", "body", .varchar⟩⟩]
  parent := none
  discriminator := none

/-- The class that shows the number of a note only. -/
def sampleTag : Mapping where
  id := ⟨2⟩
  className := "Tag"
  table := sampleNotes
  properties := [⟨"id", ⟨⟨1⟩, 0, "note", "id", .int32⟩⟩]
  parent := none
  discriminator := none

/-- The session in which both classes are mapped. -/
def sampleNotebook : Session :=
  (({ : Session }.step (.createTable "main" "note" sampleNotes.declared)).step
    (.mapClass "main" { className := "Note", table := sampleNotes, allColumns := true })).step
    (.mapClass "main" { className := "Tag", table := sampleNotes, entries := [("id", "id")] })

theorem reached_sampleNotebook : sampleNotebook.Reached := by
  refine .step (.step (.step .refl _ ?_) _ ?_) _ ?_
  · trivial
  · exact ⟨by decide, fun parent h => by cases h⟩
  · exact ⟨by decide, fun parent h => by cases h⟩

/-- Adds a note. -/
def sampleJotting : Command :=
  .insert sampleNote ⟨⟨1⟩,
    (sampleNote.newRecord.attributes.insert "id" (.int32 7)).insert "body" (.string "keep me")⟩

/-- The store with the note. -/
def sampleJotted : Store := (empty sampleNotes).run [sampleJotting]

theorem short_sampleJotting : sampleJotting.Short := by
  intro key v hv
  have hentries : ∀ e ∈ (sampleNote.newRecord.attributes.insert "id" (.int32 7)).insert "body"
      (.string "keep me") |>.entries, e.2.Short := by decide
  exact hentries (key, v) (NameMap.mem_of_find?_eq_some hv)

theorem values_sampleJotted :
    sampleJotted.values ⟨0⟩ = .ok [.int32 7, .string "keep me"] := by
  decide +kernel

/-- The note is written back as it was through the class of notes, and without its text through that
of tags. -/
theorem update_load_sampleJotted :
    (∃ r after, sampleJotted.load sampleNote ⟨0⟩ = .ok r ∧
      sampleJotted.update sampleNote ⟨0⟩ r = .ok after ∧
      after.values ⟨0⟩ = .ok [.int32 7, .string "keep me"]) ∧
    ∃ r after, sampleJotted.load sampleTag ⟨0⟩ = .ok r ∧
      sampleJotted.update sampleTag ⟨0⟩ r = .ok after ∧
      after.values ⟨0⟩ = .ok [.int32 7, .null] ∧ after.values ⟨0⟩ ≠ sampleJotted.values ⟨0⟩ := by
  have hnote : sampleNotebook.Holds "main" sampleNote := by
    show sampleNote ∈ _
    decide
  have htag : sampleNotebook.Holds "main" sampleTag := by
    show sampleTag ∈ _
    decide
  have hvalues := values_sampleJotted
  constructor
  · obtain ⟨r, after, hload, hupdate, -, hsame, -⟩ :=
      (update_load reached_sampleNotebook hnote (s := sampleJotted) (by decide) rfl).1 _ _ hvalues
    refine ⟨r, after, hload, hupdate, ?_⟩
    rw [← hvalues]
    exact hsame.2 (by decide)
  · obtain ⟨r, after, hload, hupdate, hkept, hsame, -⟩ :=
      (update_load reached_sampleNotebook htag (s := sampleJotted) (by decide) rfl).1 _ _ hvalues
    refine ⟨r, after, hload, hupdate, hkept, fun heq => ?_⟩
    have hnull := hsame.1 heq
    revert hnull
    decide

/-- A class that maps a part of the columns loses the others of a row of a store that one command
wrote. -/
theorem sampleTag_loses_body :
    sampleNotebook.Reached ∧ sampleNotebook.Holds "main" sampleTag ∧
      sampleNotes ∈ sampleNotebook.tables ∧ sampleJotting.Short ∧
      sampleJotted = (empty sampleNotes).run [sampleJotting] ∧ ⟨0⟩ ∈ sampleJotted.liveRows ∧
      sampleJotted.values ⟨0⟩ = .ok [.int32 7, .string "keep me"] ∧
      ∃ r after, sampleJotted.load sampleTag ⟨0⟩ = .ok r ∧
        sampleJotted.update sampleTag ⟨0⟩ r = .ok after ∧
        after.values ⟨0⟩ = .ok [.int32 7, .null] := by
  have htag : sampleNotebook.Holds "main" sampleTag := by
    show sampleTag ∈ _
    decide
  have hwell := (reached_sampleNotebook.sound.mapping "main" sampleTag htag).2
  obtain ⟨r, after, hload, hupdate, hkept, -⟩ :=
    exists_update_load (s := sampleJotted) hwell rfl values_sampleJotted
  exact ⟨reached_sampleNotebook, htag, by decide, short_sampleJotting, rfl, by decide +kernel,
    values_sampleJotted, r, after, hload, hupdate, hkept⟩

end Store

end RowFlags
