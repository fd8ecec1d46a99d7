import RowFlags.Proofs.Store.Effects
import RowFlags.Proofs.Store.Twin
import RowFlags.Proofs.Stored.Snapshot

/-!
# Restored stores

What a snapshot of a store is restored to is a twin of the store, for every table of the store's
name and schema: it has the same slots, the empty ones included, and replies alike from then on. The
bytes of a snapshot are taken for what they are: bytes behind them do not matter, none of them can
be missing, and no other table takes them (`restore_snapshot`).
-/

set_option autoImplicit false

namespace RowFlags.Store

open Outcome (Both)

/-- The lengths of the store's lists fit eight bytes, as the lengths of all lists in memory do. -/
structure Fits (s : Store) : Prop where
  name : (Text.bytes s.table.name).length < UInt64.size
  columns : s.table.declared.length < UInt64.size
  slots : s.slots.size < UInt64.size
  rows : ∀ slot ∈ s.slots.toList, ∀ row ∈ slot, row.length < UInt64.size

/-- Whatever short texts commands write to a store, it fits if its table does. -/
theorem fits_run (t : Table) {commands : List Command}
    (hshort : ∀ command ∈ commands, command.Short)
    (hname : (Text.bytes t.name).length < UInt64.size)
    (hcolumns : 2 * t.declared.length < UInt32.size) :
    ((empty t).run commands).Fits := by
  have hword : UInt32.size = 4294967296 := rfl
  have hbound : UInt64.size = 18446744073709551616 := rfl
  obtain ⟨hsound, htable⟩ := (sound_empty t).run hshort
  have hsize : ((empty t).run commands).slots.size ≤ capacity :=
    size_slots_run_le (s := empty t) (Nat.zero_le capacity) commands
  generalize (empty t).run commands = s at hsound htable hsize
  subst htable
  constructor
  case name => exact hname
  case columns => omega
  case slots =>
    rw [capacity] at hsize
    omega
  case rows =>
    rintro _ hslot row rfl
    obtain ⟨i, hi⟩ := List.mem_iff_getElem?.1 hslot
    obtain ⟨values, hencode, hvalues⟩ := hsound ⟨i⟩ row (row?_eq_some_iff.2 hi)
    have hlength := (Stored.spellsRow_of_encodeRow hencode hvalues).length_le
    have hspan : Stored.span 4 = UInt32.size := rfl
    rw [Table.length_schema, Stored.bitmapWidth, hspan, hword] at hlength
    omega

/-- The lasting form of the store. -/
def lasting (s : Store) : Stored.Snapshot :=
  ⟨s.table.name, s.table.schema.map ColumnType.code, s.slots.toList⟩

theorem Fits.lasting {s : Store} (h : s.Fits) : s.lasting.Fits where
  name := h.name
  types := by
    simp only [Store.lasting, List.length_map, Table.length_schema]
    exact h.columns
  slots := h.slots
  rows row hrow := h.rows (some row) hrow row rfl

/-- A snapshot is read as the lasting form of the store, whatever follows it. -/
theorem Fits.decodeSnapshot_snapshot {s : Store} (h : s.Fits) (more : List UInt8) :
    Stored.decodeSnapshot (s.snapshot ++ more) = some s.lasting :=
  Stored.decodeSnapshot_eq_some_iff.2 ⟨h.lasting, more, rfl⟩

theorem readTypes_map_code (types : List ColumnType) :
    readTypes (types.map ColumnType.code) = .ok types := by
  induction types with
  | nil => rfl
  | cons type rest ih =>
    have hcode : ColumnType.ofCode type.code = .ok type := by
      simp only [ColumnType.ofCode, ColumnType.ofCode?_eq_some_iff.2 rfl]
    rw [List.map_cons, readTypes, hcode, ih]
    rfl

/-- What becomes of bytes that decode to the lasting form of a store. -/
theorem restore_of_lasting {s : Store} {data : List UInt8}
    (h : Stored.decodeSnapshot data = some s.lasting) (t : Table) :
    restore t data =
      if s.table.name ≠ t.name then .error (.otherSnapshot s.table.name t.name)
      else if s.table.schema = t.schema then .ok ⟨t, s.slots⟩
      else .error (.otherSchema s.table.schema t.name) := by
  simp only [restore, h, lasting, readTypes_map_code, Outcome.ok_bind, Array.toArray_toList]
  rfl

/-- A snapshot restores to a twin for every table of the name and schema, whatever follows it, and
to nothing for any other table. A snapshot that is cut short restores to nothing at all. -/
theorem restore_snapshot {s : Store} (hfits : s.Fits) :
    (∀ t : Table, t.name = s.table.name → t.schema = s.table.schema →
      ∃ restored, restore t s.snapshot = .ok restored ∧
        (∀ more, restore t (s.snapshot ++ more) = .ok restored) ∧
        restored.table = t ∧ restored.slots = s.slots ∧ restored.size = s.size ∧
        (∀ row, restored.values row = s.values row) ∧
        (∀ m r row after, restored.insert m r = .ok (row, after) → row = ⟨s.slots.size⟩) ∧
        restored.snapshot = s.snapshot ∧
        ∀ requests requests', List.Forall₂ (Request.Alike s.table t) requests requests' →
          List.Forall₂ (Both StoreError.Alike Reply.Alike) (s.replies requests)
            (restored.replies requests')) ∧
    (∀ t n, n < s.snapshot.length → restore t (s.snapshot.take n) = .error .badSnapshot) ∧
    (∀ t more, t.name ≠ s.table.name →
      restore t (s.snapshot ++ more) = .error (.otherSnapshot s.table.name t.name)) ∧
    ∀ t more, t.name = s.table.name → t.schema ≠ s.table.schema →
      restore t (s.snapshot ++ more) = .error (.otherSchema s.table.schema t.name) := by
  have hdecode := hfits.decodeSnapshot_snapshot
  refine ⟨?_, ?_, ?_, ?_⟩
  · intro t hname hschema
    have htwin : Twin s ⟨t, s.slots⟩ := ⟨hname, hschema, rfl⟩
    have hrestore (more : List UInt8) : restore t (s.snapshot ++ more) = .ok ⟨t, s.slots⟩ := by
      rw [restore_of_lasting (hdecode more), if_neg (not_not_intro hname.symm),
        if_pos hschema.symm]
    refine ⟨⟨t, s.slots⟩, ?_, hrestore, rfl, rfl, htwin.size, htwin.values, ?_, htwin.snapshot,
      fun _ _ => htwin.replies⟩
    · rw [← List.append_nil s.snapshot]
      exact hrestore []
    · intro m r row after hinsert
      obtain ⟨-, -, -, hrow, -⟩ := insert_eq_ok_iff.1 hinsert
      exact hrow
  · intro t n hn
    have hcut : Stored.decodeSnapshot (s.snapshot.take n) = none :=
      Stored.decodeSnapshot_take hfits.lasting hn
    simp only [restore, hcut]
  · intro t more hname
    rw [restore_of_lasting (hdecode more), if_pos hname.symm]
  · intro t more hname hschema
    rw [restore_of_lasting (hdecode more), if_neg (not_not_intro hname.symm),
      if_neg hschema.symm]

/-- Events, without the first of them. -/
def sampleEventStore : Store := (empty sampleEvents).run sampleCommands

/-- Another table for events, whose columns have other names. -/
def sampleOccasions : Table :=
  ⟨⟨7⟩, "event", [⟨"title", .varchar⟩, ⟨"moment", .timestamp⟩], by decide, by decide⟩

/-- The class of events on the other table. -/
def sampleOccasion : Mapping where
  id := ⟨3⟩
  className := "Occasion"
  table := sampleOccasions
  properties :=
    [⟨"name", ⟨⟨7⟩, 0, "event", "title", .varchar⟩⟩,
      ⟨"when", ⟨⟨7⟩, 1, "event", "moment", .timestamp⟩⟩]
  parent := none
  discriminator := none

/-- Events that have a time. -/
def sampleCondition : Expr := .isNotNull (.column ⟨⟨1⟩, 1, "event", "at", .timestamp⟩)

theorem alike_sampleOccasion :
    Mapping.Alike sampleEvents sampleOccasions sampleEvent sampleOccasion where
  wellFormed := by
    constructor <;> constructor
    · exact ⟨by decide, by decide⟩
    · intro d hd
      cases hd
    · exact ⟨by decide, by decide⟩
    · intro d hd
      cases hd
  table := ⟨rfl, rfl⟩
  places := rfl
  discriminator := rfl
  parent := rfl

/-- A further event, the events that have a time, and one event less. -/
def sampleRequests (m : Mapping) (condition : Expr) : List Request :=
  [.write (.insert m (sampleRecord (.string "f") .null)), .filter m condition,
    .write (.delete ⟨1⟩), .count condition]

/-- The empty slot of the first event is kept, and the other class goes on with the events. -/
theorem restore_snapshot_sampleEventStore :
    sampleEventStore.Fits ∧
      List.Forall₂ (Request.Alike sampleEvents sampleOccasions)
        (sampleRequests sampleEvent sampleCondition)
        (sampleRequests sampleOccasion
          (sampleCondition.rename (sampleEvents.counterpart sampleOccasions))) ∧
      (∃ restored, restore sampleOccasions sampleEventStore.snapshot = .ok restored ∧
        restored.values ⟨0⟩ = .error (.noRow ⟨0⟩ "event") ∧
        List.Forall₂ (Both StoreError.Alike Reply.Alike)
          (sampleEventStore.replies (sampleRequests sampleEvent sampleCondition))
          (restored.replies (sampleRequests sampleOccasion
            (sampleCondition.rename (sampleEvents.counterpart sampleOccasions))))) ∧
      restore sampleOccasions (sampleEventStore.snapshot.take 8) = .error .badSnapshot ∧
      restore { sampleOccasions with name := "occasion" } (sampleEventStore.snapshot ++ [0]) =
        .error (.otherSnapshot "event" "occasion") ∧
      restore ⟨⟨8⟩, "event", [⟨"name", .varchar⟩], by decide, by decide⟩
        (sampleEventStore.snapshot ++ [0]) = .error (.otherSchema [.varchar, .timestamp] "event") := by
  have hfits : sampleEventStore.Fits :=
    fits_run sampleEvents short_sampleCommands (by decide +kernel) (by decide)
  have htable : sampleEventStore.table = sampleEvents :=
    ((sound_empty sampleEvents).run short_sampleCommands).2
  have hrename : Renames sampleEvents sampleOccasions (sampleEvents.counterpart sampleOccasions) :=
    Table.renames_counterpart rfl
  have halike : List.Forall₂ (Request.Alike sampleEvents sampleOccasions)
      (sampleRequests sampleEvent sampleCondition) (sampleRequests sampleOccasion
        (sampleCondition.rename (sampleEvents.counterpart sampleOccasions))) :=
    .cons (.write (.insert alike_sampleOccasion rfl)) <|
      .cons (.filter sampleCondition alike_sampleOccasion hrename) <|
      .cons (.write (.delete ⟨1⟩)) <| .cons (.count sampleCondition hrename) .nil
  obtain ⟨hsame, hcut, hname, hschema⟩ := restore_snapshot hfits
  rw [htable] at hsame hname hschema
  obtain ⟨restored, hrestore, -, -, -, -, hvalues, -, -, hreplies⟩ :=
    hsame sampleOccasions rfl rfl
  refine ⟨hfits, halike, ⟨restored, hrestore, ?_, hreplies _ _ halike⟩, ?_, ?_, ?_⟩
  · rw [hvalues]
    decide +kernel
  · exact hcut sampleOccasions 8 (by decide +kernel)
  · exact hname _ [0] (by decide)
  · exact hschema _ [0] rfl (by decide)

end RowFlags.Store
