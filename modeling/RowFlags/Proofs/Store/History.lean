import RowFlags.Proofs.Stored.RoundTrip
import RowFlags.Store.Query

/-!
# Stores that were written to

A command has one effect on a store, or is refused and has none (`effect?_cases`). So a store that
only commands wrote to holds rows that the writer made of values with short texts (`Store.Sound`),
every live row decodes to a value for every column of the table (`Sound.exists_values`), and a scan
finds exactly the live rows, in rising order (`scan_eq`).
-/

set_option autoImplicit false

namespace RowFlags

namespace Store

/-- What writes to a store. -/
inductive Command where
  | insert (m : Mapping) (r : Record)
  | update (m : Mapping) (row : RowId) (r : Record)
  | delete (row : RowId)

/-- The object that the command writes, if it writes one, has short texts only. -/
def Command.Short : Command → Prop
  | .insert _ r => ∀ key v, r.attribute? key = some v → v.Short
  | .update _ _ r => ∀ key v, r.attribute? key = some v → v.Short
  | .delete _ => True

theorem short_of_entries {m : Mapping} {objects : List Record}
    (h : ∀ r ∈ objects, ∀ e ∈ r.attributes.entries, e.2.Short) :
    ∀ command ∈ objects.map (Command.insert m), command.Short := by
  intro command hcommand
  obtain ⟨r, hr, rfl⟩ := List.mem_map.1 hcommand
  intro key v hv
  exact h r hr (key, v) (NameMap.mem_of_find?_eq_some hv)

/-- The store after a command; a refused one leaves it. -/
def perform (s : Store) : Command → Store
  | .insert m r =>
    match s.insert m r with
    | .ok (_, next) => next
    | .error _ => s
  | .update m row r =>
    match s.update m row r with
    | .ok next => next
    | .error _ => s
  | .delete row =>
    match s.delete row with
    | .ok next => next
    | .error _ => s

/-- The store after commands. -/
def run (s : Store) (commands : List Command) : Store := commands.foldl perform s

theorem row?_eq_some_iff {s : Store} {row : RowId} {data : List UInt8} :
    s.row? row = some data ↔ s.slots.toList[row.number]? = some (some data) := by
  rw [row?, Option.join_eq_some_iff, Array.getElem?_toList]

theorem lt_size_of_row? {s : Store} {row : RowId} {data : List UInt8}
    (h : s.row? row = some data) : row.number < s.slots.size := by
  unfold row? at h
  rcases Nat.lt_or_ge row.number s.slots.size with hlt | hge
  · exact hlt
  · rw [Array.getElem?_eq_none hge] at h
    cases h

theorem row?_push (s : Store) (slot : Option (List UInt8)) (row : RowId) :
    row? { s with slots := s.slots.push slot } row =
      if row.number = s.slots.size then slot else s.row? row := by
  unfold row?
  dsimp only
  rw [Array.getElem?_push]
  split <;> simp

theorem row?_set {s : Store} {place : RowId} {data : List UInt8} (h : s.row? place = some data)
    (slot : Option (List UInt8)) (row : RowId) :
    row? { s with slots := s.slots.setIfInBounds place.number slot } row =
      if row.number = place.number then slot else s.row? row := by
  have hbound := lt_size_of_row? h
  unfold row?
  dsimp only
  rw [Array.getElem?_setIfInBounds]
  by_cases heq : row.number = place.number
  · simp [heq, hbound]
  · rw [if_neg fun h => heq h.symm, if_neg heq]

/-! ## What the operations do -/

theorem insert_eq_ok_iff {s next : Store} {m : Mapping} {r : Record} {row : RowId} :
    s.insert m r = .ok (row, next) ↔
      ∃ data, s.encode m r = .ok data ∧ s.slots.size < capacity ∧ row = ⟨s.slots.size⟩ ∧
        next = { s with slots := s.slots.push (some data) } := by
  unfold insert
  rw [Outcome.bind_eq_ok_iff]
  refine exists_congr fun data => and_congr_right fun _ => ?_
  split
  · next hroom =>
    simp only [hroom, true_and]
    constructor
    · intro h
      cases h
      exact ⟨rfl, rfl⟩
    · rintro ⟨rfl, rfl⟩
      rfl
  · next hfull =>
    constructor
    · intro h
      cases h
    · rintro ⟨hroom, -⟩
      exact absurd hroom hfull

theorem update_eq_ok_iff {s next : Store} {m : Mapping} {row : RowId} {r : Record} :
    s.update m row r = .ok next ↔
      ∃ data, s.encode m r = .ok data ∧ (∃ old, s.row? row = some old) ∧
        next = { s with slots := s.slots.setIfInBounds row.number (some data) } := by
  unfold update
  rw [Outcome.bind_eq_ok_iff]
  refine exists_congr fun data => and_congr_right fun _ => ?_
  rw [← Option.isSome_iff_exists]
  split
  · next hlive =>
    simp only [hlive, true_and]
    constructor
    · intro h
      cases h
      rfl
    · rintro rfl
      rfl
  · next hgone =>
    constructor
    · intro h
      cases h
    · rintro ⟨hlive, -⟩
      exact absurd hlive hgone

theorem delete_eq_ok_iff {s next : Store} {row : RowId} :
    s.delete row = .ok next ↔
      (∃ old, s.row? row = some old) ∧
        next = { s with slots := s.slots.setIfInBounds row.number none } := by
  unfold delete
  rw [← Option.isSome_iff_exists]
  split
  · next hlive =>
    simp only [hlive, true_and, Except.ok.injEq]
    exact eq_comm
  · next hgone =>
    constructor
    · intro h
      cases h
    · rintro ⟨hlive, -⟩
      exact absurd hlive hgone

theorem encode_eq_ok_iff {s : Store} {m : Mapping} {r : Record} {data : List UInt8} :
    s.encode m r = .ok data ↔
      m.table.id = s.table.id ∧
        Stored.encodeRow s.table.schema (s.columnValues m r) = .ok data := by
  unfold encode checkClass
  split
  · next hclass => simp [hclass, Outcome.mapError_eq_ok_iff]
  · next hclass => simp [hclass]

theorem values_eq_ok_iff {s : Store} {row : RowId} {values : List Value} :
    s.values row = .ok values ↔
      ∃ data, s.row? row = some data ∧ Stored.decodeRow s.table.schema data = .ok values := by
  unfold Store.values
  cases s.row? row with
  | none => simp
  | some data => simp [Outcome.mapError_eq_ok_iff]

/-- A row that holds the stored form of short values reads as them, but for leap seconds. -/
theorem values_of_encodeRow {s : Store} {row : RowId} {data : List UInt8} {values : List Value}
    (hrow : s.row? row = some data) (hencode : Stored.encodeRow s.table.schema values = .ok data)
    (hshort : ∀ v ∈ values, v.Short) : s.values row = .ok (values.map Value.ordinary) :=
  values_eq_ok_iff.2 ⟨data, hrow, (Stored.spellsRow_of_encodeRow hencode hshort).decodeRow_eq⟩

/-! ## What commands do -/

/-- What a command did to a store. -/
inductive Effect where
  | added (row : RowId) (values : List Value)
  | replaced (row : RowId) (values : List Value)
  | removed (row : RowId)
  deriving DecidableEq

namespace Effect

/-- The row that was written to. -/
@[simp] def row : Effect → RowId
  | .added row _ => row
  | .replaced row _ => row
  | .removed row => row

/-- What the row holds afterwards. -/
@[simp] def values? : Effect → Option (List Value)
  | .added _ values => some values
  | .replaced _ values => some values
  | .removed _ => none

/-- The row, if it was added. -/
@[simp] def addedRow? : Effect → Option RowId
  | .added row _ => some row
  | _ => none

/-- The row, if it was taken away. -/
@[simp] def removedRow? : Effect → Option RowId
  | .removed row => some row
  | _ => none

end Effect

/-- What a command does to a store; a refused one does nothing. -/
def effect? (s : Store) : Command → Option Effect
  | .insert m r =>
    match s.insert m r with
    | .ok (row, _) => some (.added row (s.columnValues m r))
    | .error _ => none
  | .update m row r =>
    match s.update m row r with
    | .ok _ => some (.replaced row (s.columnValues m r))
    | .error _ => none
  | .delete row =>
    match s.delete row with
    | .ok _ => some (.removed row)
    | .error _ => none

/-- The store after an effect: the values stand in stored form in the next slot, if there can be one,
or in that of a row that there is, or the slot of such a row is empty. -/
inductive Writes (s : Store) : Effect → Store → Prop
  | added {values : List Value} {data : List UInt8} (hroom : s.slots.size < capacity)
    (hencode : Stored.encodeRow s.table.schema values = .ok data) :
    Writes s (.added ⟨s.slots.size⟩ values) { s with slots := s.slots.push (some data) }
  | replaced {row : RowId} {values : List Value} {data old : List UInt8}
    (hold : s.row? row = some old) (hencode : Stored.encodeRow s.table.schema values = .ok data) :
    Writes s (.replaced row values)
      { s with slots := s.slots.setIfInBounds row.number (some data) }
  | removed {row : RowId} {old : List UInt8} (hold : s.row? row = some old) :
    Writes s (.removed row) { s with slots := s.slots.setIfInBounds row.number none }

/-- A command is refused and leaves the store, or the store is as its effect says. -/
theorem effect?_cases (s : Store) (command : Command) :
    s.effect? command = none ∧ s.perform command = s ∨
      ∃ e, s.effect? command = some e ∧ s.Writes e (s.perform command) := by
  cases command with
  | insert m r =>
    cases hinsert : s.insert m r with
    | error e => exact .inl (by simp [effect?, perform, hinsert])
    | ok result =>
      obtain ⟨row, next⟩ := result
      obtain ⟨data, hencode, hroom, rfl, rfl⟩ := insert_eq_ok_iff.1 hinsert
      refine .inr ⟨.added ⟨s.slots.size⟩ (s.columnValues m r), by simp [effect?, hinsert], ?_⟩
      simp only [perform, hinsert]
      exact .added hroom (encode_eq_ok_iff.1 hencode).2
  | update m row r =>
    cases hupdate : s.update m row r with
    | error e => exact .inl (by simp [effect?, perform, hupdate])
    | ok next =>
      obtain ⟨data, hencode, ⟨old, hold⟩, rfl⟩ := update_eq_ok_iff.1 hupdate
      refine .inr ⟨.replaced row (s.columnValues m r), by simp [effect?, hupdate], ?_⟩
      simp only [perform, hupdate]
      exact .replaced hold (encode_eq_ok_iff.1 hencode).2
  | delete row =>
    cases hdelete : s.delete row with
    | error e => exact .inl (by simp [effect?, perform, hdelete])
    | ok next =>
      obtain ⟨⟨old, hold⟩, rfl⟩ := delete_eq_ok_iff.1 hdelete
      refine .inr ⟨.removed row, by simp [effect?, hdelete], ?_⟩
      simp only [perform, hdelete]
      exact .removed hold

/-- What an object gives a column is NULL or the value of one of the column's attributes. -/
theorem columnValue_cases (m : Mapping) (r : Record) (c : Column) :
    columnValue m r c = .null ∨
      ∃ p ∈ m.properties, p.column = c ∧ r.attribute? p.key = some (columnValue m r c) := by
  unfold columnValue
  cases hvalue : (m.namesOf c).head?.bind r.attribute? with
  | none => exact .inl rfl
  | some v =>
    obtain ⟨key, hhead, hkey⟩ := Option.bind_eq_some_iff.1 hvalue
    obtain ⟨p, hp, hcolumn, rfl⟩ := Mapping.mem_namesOf_iff.1 (List.mem_of_head? hhead)
    exact .inr ⟨p, hp, hcolumn, hkey⟩

theorem short_columnValue {m : Mapping} {r : Record}
    (hr : ∀ key v, r.attribute? key = some v → v.Short) (c : Column) :
    (columnValue m r c).Short := by
  rcases columnValue_cases m r c with hnull | ⟨p, -, -, hvalue⟩
  · rw [hnull]
    exact trivial
  · exact hr p.key _ hvalue

theorem short_columnValues {s : Store} {m : Mapping} {r : Record}
    (hr : ∀ key v, r.attribute? key = some v → v.Short) : ∀ v ∈ s.columnValues m r, v.Short := by
  intro v hv
  obtain ⟨c, -, rfl⟩ := List.mem_map.1 hv
  exact short_columnValue hr c

/-- The class and the object of a command that writes one. -/
def Command.entry? : Command → Option (Mapping × Record)
  | .insert m r => some (m, r)
  | .update m _ r => some (m, r)
  | .delete _ => none

/-- What a command writes is what its object gives the columns. -/
theorem values?_of_effect? {s : Store} {command : Command} {e : Effect}
    (he : s.effect? command = some e) :
    e.values? = command.entry?.map fun entry => s.columnValues entry.1 entry.2 := by
  cases command with
  | insert m r =>
    simp only [effect?] at he
    split at he <;> cases he
    rfl
  | update m row r =>
    simp only [effect?] at he
    split at he <;> cases he
    rfl
  | delete row =>
    simp only [effect?] at he
    split at he <;> cases he
    rfl

/-- What a command writes has short texts only, if its object has. -/
theorem short_of_effect? {s : Store} {command : Command} (hshort : command.Short) {e : Effect}
    (he : s.effect? command = some e) {values : List Value} (hvalues : e.values? = some values) :
    ∀ v ∈ values, v.Short := by
  rw [values?_of_effect? he, Option.map_eq_some_iff] at hvalues
  obtain ⟨⟨m, r⟩, hentry, rfl⟩ := hvalues
  have hr : ∀ key v, r.attribute? key = some v → v.Short := by
    cases command <;> cases hentry <;> exact hshort
  exact short_columnValues hr

namespace Writes

variable {s next : Store} {e : Effect}

theorem table (h : s.Writes e next) : next.table = s.table := by
  cases h <;> rfl

/-- Only the row of the effect is written to. -/
theorem row?_of_ne (h : s.Writes e next) {row : RowId} (hne : row ≠ e.row) :
    next.row? row = s.row? row := by
  have hnumber : row.number ≠ e.row.number := fun heq => hne (congrArg RowId.mk heq)
  cases h with
  | added hroom hencode =>
    rw [row?_push]
    exact if_neg hnumber
  | replaced hold hencode =>
    rw [row?_set hold]
    exact if_neg hnumber
  | removed hold =>
    rw [row?_set hold]
    exact if_neg hnumber

/-- The row of the effect holds the stored form of what was written, or is gone. -/
theorem row?_self (h : s.Writes e next) :
    (∃ values data, e.values? = some values ∧ next.row? e.row = some data ∧
        Stored.encodeRow next.table.schema values = .ok data) ∨
      e.values? = none ∧ next.row? e.row = none := by
  cases h with
  | added hroom hencode =>
    refine .inl ⟨_, _, rfl, ?_, hencode⟩
    rw [row?_push]
    exact if_pos rfl
  | replaced hold hencode =>
    refine .inl ⟨_, _, rfl, ?_, hencode⟩
    rw [row?_set hold]
    exact if_pos rfl
  | removed hold =>
    refine .inr ⟨rfl, ?_⟩
    rw [row?_set hold]
    exact if_pos rfl

/-- There are no more slots than there can be. -/
theorem size_slots_le (h : s.Writes e next) (hsize : s.slots.size ≤ capacity) :
    next.slots.size ≤ capacity := by
  cases h with
  | added hroom _ =>
    rw [Array.size_push]
    exact hroom
  | _ => simpa using hsize

end Writes

/-- Commands keep a store on its table. -/
theorem table_perform (s : Store) (command : Command) : (s.perform command).table = s.table := by
  rcases s.effect?_cases command with ⟨-, hsame⟩ | ⟨e, -, hwrites⟩
  · rw [hsame]
  · exact hwrites.table

theorem size_slots_run_le {s : Store} (h : s.slots.size ≤ capacity) (commands : List Command) :
    (s.run commands).slots.size ≤ capacity := by
  induction commands generalizing s with
  | nil => exact h
  | cons command rest ih =>
    refine ih ?_
    rcases s.effect?_cases command with ⟨-, hsame⟩ | ⟨e, -, hwrites⟩
    · rw [hsame]
      exact h
    · exact hwrites.size_slots_le h

/-! ## Commands keep stores sound -/

/-- Every row was made of values with short texts. -/
def Sound (s : Store) : Prop :=
  ∀ row data, s.row? row = some data →
    ∃ values, Stored.encodeRow s.table.schema values = .ok data ∧ ∀ v ∈ values, v.Short

theorem sound_empty (t : Table) : (empty t).Sound := by
  intro row data h
  simp [row?, empty] at h

theorem Sound.perform {s : Store} (h : s.Sound) {command : Command} (hshort : command.Short) :
    (s.perform command).Sound ∧ (s.perform command).table = s.table := by
  refine ⟨?_, s.table_perform command⟩
  rcases s.effect?_cases command with ⟨-, hsame⟩ | ⟨e, heffect, hwrites⟩
  · rw [hsame]
    exact h
  · intro row data hrow
    by_cases heq : row = e.row
    · subst heq
      rcases hwrites.row?_self with ⟨values, written, hvalues, hself, hencode⟩ | ⟨-, hself⟩
      · obtain rfl := Option.some.inj (hself.symm.trans hrow)
        exact ⟨values, hencode, short_of_effect? hshort heffect hvalues⟩
      · rw [hself] at hrow
        cases hrow
    · rw [hwrites.row?_of_ne heq] at hrow
      rw [hwrites.table]
      exact h row data hrow

/-- Commands keep a store sound, and on its table. -/
theorem Sound.run {s : Store} (h : s.Sound) {commands : List Command}
    (hshort : ∀ command ∈ commands, command.Short) :
    (s.run commands).Sound ∧ (s.run commands).table = s.table := by
  induction commands generalizing s with
  | nil => exact ⟨h, rfl⟩
  | cons command rest ih =>
    obtain ⟨hnext, htable⟩ := h.perform (hshort command List.mem_cons_self)
    obtain ⟨hrun, hsame⟩ :=
      ih hnext fun other hother => hshort other (List.mem_cons_of_mem _ hother)
    exact ⟨hrun, hsame.trans htable⟩

/-! ## Live rows -/

/-- The rows that there are, in rising order. -/
def liveRows (s : Store) : List RowId :=
  ((List.range s.slots.size).map RowId.mk).filter fun row => (s.row? row).isSome

theorem mem_liveRows_iff {s : Store} {row : RowId} :
    row ∈ s.liveRows ↔ ∃ data, s.row? row = some data := by
  unfold liveRows
  rw [List.mem_filter, Option.isSome_iff_exists, and_iff_right_iff_imp]
  rintro ⟨data, hrow⟩
  exact List.mem_map.2 ⟨row.number, List.mem_range.2 (lt_size_of_row? hrow), rfl⟩

/-- A live row decodes to a value for every column. -/
theorem Sound.exists_values {s : Store} (h : s.Sound) {row : RowId} (hrow : row ∈ s.liveRows) :
    ∃ values, s.values row = .ok values ∧ values.length = s.table.declared.length := by
  obtain ⟨data, hdata⟩ := mem_liveRows_iff.1 hrow
  obtain ⟨values, hencode, hshort⟩ := h row data hdata
  obtain ⟨hlength, -⟩ := Stored.encodeRow_eq_ok_iff.1 hencode
  refine ⟨values.map Value.ordinary, values_of_encodeRow hdata hencode hshort, ?_⟩
  rw [List.length_map, hlength, Table.length_schema]

/-- If every live row reads, the values are a function of the row. -/
theorem exists_valuesAt {s : Store} {P : RowId → List Value → Prop}
    (h : ∀ row ∈ s.liveRows, ∃ values, s.values row = .ok values ∧ P row values) :
    ∃ valuesAt : RowId → List Value,
      ∀ row ∈ s.liveRows, s.values row = .ok (valuesAt row) ∧ P row (valuesAt row) := by
  refine ⟨fun row => (s.values row).toOption.getD [], fun row hrow => ?_⟩
  obtain ⟨values, hvalues, hP⟩ := h row hrow
  dsimp only
  rw [hvalues]
  exact ⟨rfl, hP⟩

/-- A scan of slots that all decode finds the filled ones. -/
theorem scanFrom_eq {schema : List ColumnType} {valuesAt : RowId → List Value} {next : Nat}
    {slots : List (Option (List UInt8))}
    (h : ∀ i data, slots[i]? = some (some data) →
      Stored.decodeRow schema data = .ok (valuesAt ⟨next + i⟩)) :
    scanFrom schema next slots =
      .ok ((((List.range' next slots.length).map RowId.mk).filter fun row =>
        (slots[row.number - next]?).join.isSome).map fun row => (row, valuesAt row)) := by
  induction slots generalizing next with
  | nil => rfl
  | cons slot rest ih =>
    have hnext : ∀ i data, rest[i]? = some (some data) →
        Stored.decodeRow schema data = .ok (valuesAt ⟨next + 1 + i⟩) := by
      intro i data hi
      rw [Nat.add_assoc, Nat.add_comm 1 i]
      exact h (i + 1) data hi
    have hrest := ih hnext
    have hshift : ((List.range' (next + 1) rest.length).map RowId.mk).filter
          (fun row => ((slot :: rest)[row.number - next]?).join.isSome) =
        ((List.range' (next + 1) rest.length).map RowId.mk).filter
          (fun row => (rest[row.number - (next + 1)]?).join.isSome) := by
      apply List.filter_congr
      intro row hrow
      obtain ⟨k, hk, rfl⟩ := List.mem_map.1 hrow
      obtain ⟨hlow, -⟩ := List.mem_range'_1.1 hk
      have hk : k - next = (k - (next + 1)) + 1 := by omega
      rw [hk, List.getElem?_cons_succ]
    rw [List.length_cons, List.range'_succ, List.map_cons, List.filter_cons, hshift]
    cases slot with
    | none => simpa [scanFrom] using hrest
    | some data =>
      have hfirst := h 0 data rfl
      simp [scanFrom, hfirst, hrest]

/-- A scan finds the live rows with their values. -/
theorem scan_eq {s : Store} {valuesAt : RowId → List Value}
    (hvalues : ∀ row ∈ s.liveRows, s.values row = .ok (valuesAt row)) :
    s.scan = .ok (s.liveRows.map fun row => (row, valuesAt row)) := by
  have hslots : ∀ i data, s.slots.toList[i]? = some (some data) →
      Stored.decodeRow s.table.schema data = .ok (valuesAt ⟨0 + i⟩) := by
    intro i data hi
    have hrow : s.row? ⟨i⟩ = some data := row?_eq_some_iff.2 hi
    obtain ⟨_, hread, hdecode⟩ :=
      values_eq_ok_iff.1 (hvalues ⟨i⟩ (mem_liveRows_iff.2 ⟨data, hrow⟩))
    obtain rfl := Option.some.inj (hrow.symm.trans hread)
    rwa [Nat.zero_add]
  unfold scan
  rw [scanFrom_eq hslots, Array.length_toList, ← List.range_eq_range']
  simp [liveRows, row?]

end Store

end RowFlags
