import RowFlags.Proofs.Store.History

/-!
# A store and what was done to it

A run of commands leaves a list of effects: the rows it added, replaced and took away, with the
values that were written. The effects alone say which rows there are and what they hold
(`contents`), and which numbers were given out (`addedRows`). One command keeps a store in step with
its effects (`Tracks.perform`), so a whole run does (`Tracks.run`), and a store that only commands
wrote to answers as its effects say (`refines_effects`).
-/

set_option autoImplicit false

namespace RowFlags

namespace Store

/-- What commands do to a store, the first one first. -/
def effects (s : Store) : List Command → List Effect
  | [] => []
  | command :: rest => (s.effect? command).toList ++ effects (s.perform command) rest

/-! ## Histories -/

/-- The values that the rows were last written with, of those that were not taken away since. -/
def contents (history : List Effect) : RowId → Option (List Value) :=
  history.foldl (fun rows e row => if row = e.row then e.values? else rows row) fun _ => none

/-- The rows that were added, the first one first. -/
def addedRows (history : List Effect) : List RowId := history.filterMap Effect.addedRow?

/-- The rows that were taken away, the first one first. -/
def removedRows (history : List Effect) : List RowId := history.filterMap Effect.removedRow?

@[simp] theorem contents_append (history : List Effect) (e : Effect) (row : RowId) :
    contents (history ++ [e]) row = if row = e.row then e.values? else contents history row := by
  simp [contents]

@[simp] theorem addedRows_append (history : List Effect) (e : Effect) :
    addedRows (history ++ [e]) = addedRows history ++ e.addedRow?.toList := by
  cases e <;> simp [addedRows]

@[simp] theorem removedRows_append (history : List Effect) (e : Effect) :
    removedRows (history ++ [e]) = removedRows history ++ e.removedRow?.toList := by
  cases e <;> simp [removedRows]

/-- An effect on another row does not add the row. -/
theorem mem_addedRows_append_iff {history : List Effect} {e : Effect} {row : RowId}
    (hne : row ≠ e.row) : row ∈ addedRows (history ++ [e]) ↔ row ∈ addedRows history := by
  cases e <;> simp_all

/-- An effect on another row does not take the row away. -/
theorem mem_removedRows_append_iff {history : List Effect} {e : Effect} {row : RowId}
    (hne : row ≠ e.row) : row ∈ removedRows (history ++ [e]) ↔ row ∈ removedRows history := by
  cases e <;> simp_all

/-! ## Refusals and the count of rows -/

/-- Why an object is not stored: the class maps another table, or the object's values make no
row. -/
theorem encode_eq_error_iff {s : Store} {m : Mapping} {r : Record} {e : StoreError} :
    s.encode m r = .error e ↔
      m.table.id ≠ s.table.id ∧ e = .otherTable m.className m.table.name s.table.name ∨
        m.table.id = s.table.id ∧ ∃ cause,
          Stored.encodeRow s.table.schema (s.columnValues m r) = .error cause ∧
            e = .row cause := by
  unfold encode checkClass
  split
  · next hclass =>
    cases Stored.encodeRow s.table.schema (s.columnValues m r) <;> simp [hclass, eq_comm]
  · next hclass => simp [hclass, eq_comm]

/-- Why no row is added: the object is not stored, or every number is given out. -/
theorem insert_eq_error_iff {s : Store} {m : Mapping} {r : Record} {e : StoreError} :
    s.insert m r = .error e ↔
      s.encode m r = .error e ∨
        (∃ data, s.encode m r = .ok data) ∧ capacity ≤ s.slots.size ∧ e = .full := by
  unfold insert
  cases hencode : s.encode m r with
  | error cause => simp
  | ok data =>
    rw [Outcome.ok_bind]
    split
    · next hroom =>
      have hcapacity : ¬ capacity ≤ s.slots.size := Nat.not_le.2 hroom
      simp [hcapacity, pure, Except.pure]
    · next hfull => simp [Nat.not_lt.1 hfull, eq_comm]

/-- Writing to a row that there is keeps the count; emptying its slot takes one off. -/
theorem size_set {s : Store} {row : RowId} {old : List UInt8} (h : s.row? row = some old)
    (slot : Option (List UInt8)) :
    size { s with slots := s.slots.setIfInBounds row.number slot } + 1 =
      s.size + if slot.isSome then 1 else 0 := by
  have hbound : row.number < s.slots.toList.length := lt_size_of_row? h
  have hslot : s.slots.toList[row.number] = some old := by
    have hget : s.slots[row.number]? = some (some old) := by
      simpa [row?, Option.join_eq_some_iff] using h
    obtain ⟨_, hget⟩ := Array.getElem?_eq_some_iff.1 hget
    exact hget
  have hlive : 0 < s.slots.toList.countP Option.isSome :=
    List.countP_pos_iff.2 ⟨_, List.getElem_mem hbound, by rw [hslot]; rfl⟩
  unfold size
  dsimp only
  rw [Array.toList_setIfInBounds, List.countP_set hbound, hslot]
  simp only [Option.isSome_some, if_true]
  omega

namespace Writes

variable {s next : Store} {e : Effect}

/-- The count of rows follows the effects. -/
theorem size_eq (h : s.Writes e next) :
    next.size + e.removedRow?.toList.length = s.size + e.addedRow?.toList.length := by
  cases h with
  | added hroom hencode => simp [Store.size]
  | replaced hold hencode => simpa using size_set hold (some _)
  | removed hold => simpa using size_set hold none

/-- Only adding a row takes a slot. -/
theorem size_slots (h : s.Writes e next) :
    next.slots.size = s.slots.size + e.addedRow?.toList.length := by
  cases h <;> simp

end Writes

/-! ## Stores in step with their history -/

/-- A row that there is, with the values that were last written to it, or a row that was taken away
or never added, of which the store knows nothing. -/
inductive TracksRow (s : Store) (history : List Effect) (row : RowId) : Prop
  | live {values : List Value} {data : List UInt8} (hcontents : contents history row = some values)
    (hrow : s.row? row = some data) (hencode : Stored.encodeRow s.table.schema values = .ok data)
    (hshort : ∀ v ∈ values, v.Short) (hadded : row ∈ addedRows history)
    (hkept : row ∉ removedRows history)
  | gone (hcontents : contents history row = none) (hrow : s.row? row = none)
    (hgone : row ∈ removedRows history ∨ row ∉ addedRows history)

/-- The store holds what its history says: rows under the numbers that were given out, one after
the other, each with the values last written to it. -/
structure Tracks (s : Store) (history : List Effect) : Prop where
  added : addedRows history = (List.range s.slots.size).map RowId.mk
  removed : ∀ row ∈ removedRows history, row ∈ addedRows history
  size : s.size + (removedRows history).length = s.slots.size
  row : ∀ row, TracksRow s history row

theorem tracks_empty (t : Table) : Tracks (empty t) [] where
  added := rfl
  removed row hrow := by cases hrow
  size := rfl
  row row := .gone rfl (by simp [row?, empty]) (.inr List.not_mem_nil)

section Step

variable {s next : Store} {history : List Effect} {e : Effect}

/-- A row that there is was added and not taken away. -/
theorem TracksRow.of_row? {row : RowId} {data : List UInt8} (h : TracksRow s history row)
    (hrow : s.row? row = some data) : row ∈ addedRows history ∧ row ∉ removedRows history := by
  cases h with
  | live _ _ _ _ hadded hkept => exact ⟨hadded, hkept⟩
  | gone _ hnone _ =>
    rw [hnone] at hrow
    cases hrow

/-- An effect on another row leaves a row in step. -/
theorem TracksRow.frame {row : RowId} (h : TracksRow s history row) (hwrites : s.Writes e next)
    (hne : row ≠ e.row) : TracksRow next (history ++ [e]) row := by
  have hrow := hwrites.row?_of_ne hne
  cases h with
  | live hcontents hlive hencode hshort hadded hkept =>
    refine .live ?_ (hrow.trans hlive) (hwrites.table ▸ hencode) hshort ?_ ?_
    · rw [contents_append, if_neg hne, hcontents]
    · rwa [mem_addedRows_append_iff hne]
    · rwa [mem_removedRows_append_iff hne]
  | gone hcontents hnone hgone =>
    refine .gone ?_ (hrow.trans hnone) ?_
    · rw [contents_append, if_neg hne, hcontents]
    · rwa [mem_removedRows_append_iff hne, mem_addedRows_append_iff hne]

/-- The row of an effect is in step. -/
theorem Tracks.row_self (h : Tracks s history) (hwrites : s.Writes e next)
    (hshort : ∀ values, e.values? = some values → ∀ v ∈ values, v.Short) :
    TracksRow next (history ++ [e]) e.row := by
  have hcontents : contents (history ++ [e]) e.row = e.values? := by simp
  rcases hwrites.row?_self with ⟨values, data, hvalues, hrow, hencode⟩ | ⟨hvalues, hrow⟩
  · have hkept : e.row ∈ addedRows (history ++ [e]) ∧ e.row ∉ removedRows (history ++ [e]) := by
      cases hwrites with
      | added _ _ =>
        -- the next number was not given out, so it was not taken away either
        have hfresh : (⟨s.slots.size⟩ : RowId) ∉ addedRows history := by simp [h.added]
        have hnew : (⟨s.slots.size⟩ : RowId) ∉ removedRows history := fun hmem =>
          hfresh (h.removed _ hmem)
        simpa using hnew
      | replaced hold _ =>
        have hkept := (h.row _).of_row? hold
        simpa using hkept
      | removed _ => cases hvalues
    exact .live (hcontents.trans hvalues) hrow hencode (hshort values hvalues) hkept.1 hkept.2
  · cases hwrites with
    | removed _ =>
      exact .gone hcontents hrow (.inl (by simp))
    | _ => cases hvalues

/-- An effect keeps the store in step with its history. -/
theorem Tracks.writes (h : Tracks s history) (hwrites : s.Writes e next)
    (hshort : ∀ values, e.values? = some values → ∀ v ∈ values, v.Short) :
    Tracks next (history ++ [e]) where
  added := by
    have hslots := hwrites.size_slots
    rw [addedRows_append, h.added, hslots]
    cases hwrites <;> simp [List.range_succ]
  removed := by
    intro row hrow
    rw [removedRows_append, List.mem_append] at hrow
    rw [addedRows_append]
    refine List.mem_append_left _ ?_
    rcases hrow with hrow | hrow
    · exact h.removed row hrow
    · cases hwrites with
      | removed hold =>
        obtain rfl := List.mem_singleton.1 hrow
        exact ((h.row _).of_row? hold).1
      | _ => cases hrow
  size := by
    have hsize := h.size
    have hnext := hwrites.size_eq
    have hslots := hwrites.size_slots
    rw [removedRows_append, List.length_append]
    omega
  row row := by
    by_cases heq : row = e.row
    · rw [heq]
      exact h.row_self hwrites hshort
    · exact (h.row row).frame hwrites heq

/-- A command keeps a store in step with what was done to it. -/
theorem Tracks.perform (h : Tracks s history) {command : Command} (hshort : command.Short) :
    Tracks (s.perform command) (history ++ (s.effect? command).toList) := by
  rcases s.effect?_cases command with ⟨heffect, hsame⟩ | ⟨e, heffect, hwrites⟩
  · rw [heffect, hsame, Option.toList_none, List.append_nil]
    exact h
  · rw [heffect, Option.toList_some]
    exact h.writes hwrites fun values => short_of_effect? hshort heffect

/-- So does a run of them. -/
theorem Tracks.run (h : Tracks s history) {commands : List Command}
    (hshort : ∀ command ∈ commands, command.Short) :
    Tracks (s.run commands) (history ++ s.effects commands) := by
  induction commands generalizing s history with
  | nil =>
    rw [effects, List.append_nil]
    exact h
  | cons command rest ih =>
    have hnext := h.perform (hshort command List.mem_cons_self)
    have hrest := ih hnext fun other hother => hshort other (List.mem_cons_of_mem _ hother)
    rwa [List.append_assoc] at hrest

/-! ## What a store in step answers -/

theorem Tracks.row?_eq_none_iff (h : Tracks s history) (row : RowId) :
    s.row? row = none ↔ contents history row = none := by
  cases h.row row with
  | live hcontents hrow => simp [hcontents, hrow]
  | gone hcontents hrow => simp [hcontents, hrow]

theorem Tracks.exists_row?_iff (h : Tracks s history) (row : RowId) :
    (∃ data, s.row? row = some data) ↔ ∃ values, contents history row = some values := by
  rw [← Option.ne_none_iff_exists', ← Option.ne_none_iff_exists', Ne, h.row?_eq_none_iff]

theorem values_eq_noRow {row : RowId} (h : s.row? row = none) :
    s.values row = .error (s.noRow row) := by
  simp only [Store.values, h]

/-- A row that there is reads as what was last written to it. -/
theorem Tracks.values_eq (h : Tracks s history) {row : RowId} {values : List Value}
    (hcontents : contents history row = some values) :
    s.values row = .ok (values.map Value.ordinary) := by
  cases h.row row with
  | live hlive hrow hencode hshort =>
    obtain rfl := Option.some.inj (hlive.symm.trans hcontents)
    exact values_of_encodeRow hrow hencode hshort
  | gone hnone => simp [hnone] at hcontents

/-- A row that was taken away or never added is refused by whatever asks for it. -/
theorem Tracks.refused_of_gone (h : Tracks s history) {row : RowId}
    (hgone : contents history row = none) :
    s.values row = .error (s.noRow row) ∧ s.delete row = .error (s.noRow row) ∧
      (∀ m r, ∃ e, s.update m row r = .error e) ∧ ∀ m, ∃ e, s.load m row = .error e := by
  have hrow : s.row? row = none := (h.row?_eq_none_iff row).2 hgone
  refine ⟨values_eq_noRow hrow, ?_, ?_, ?_⟩
  · simp [delete, hrow]
  · intro m r
    unfold update
    cases s.encode m r with
    | error e => exact ⟨e, rfl⟩
    | ok data =>
      rw [Outcome.ok_bind, hrow]
      exact ⟨_, rfl⟩
  · intro m
    unfold load
    cases s.checkClass m with
    | error e => exact ⟨e, rfl⟩
    | ok _ =>
      rw [Outcome.ok_bind, values_eq_noRow hrow]
      exact ⟨_, rfl⟩

end Step

/-- The store answers as a map from row numbers to values would to which the history was done. -/
structure Refines (s : Store) (history : List Effect) : Prop where
  /-- Rows were numbered in the order they came in, so no number was given out twice. -/
  numbered : addedRows history = (List.range (addedRows history).length).map RowId.mk
  /-- The next row takes the next number. -/
  next : ∀ m r row after, s.insert m r = .ok (row, after) → row = ⟨(addedRows history).length⟩
  /-- A row that there is decodes to the values it was last written with. -/
  values : ∀ row written, contents history row = some written →
    s.values row = .ok (written.map Value.ordinary)
  /-- The other rows are those that were taken away or never added. -/
  gone : ∀ row, contents history row = none ↔ row ∈ removedRows history ∨ row ∉ addedRows history
  /-- They are refused. -/
  refused : ∀ row, contents history row = none →
    s.values row = .error (s.noRow row) ∧ s.delete row = .error (s.noRow row) ∧
      (∀ m r, ∃ e, s.update m row r = .error e) ∧ ∀ m, ∃ e, s.load m row = .error e
  /-- A row that there is can be taken away, and replaced by every object that can be stored. -/
  live : ∀ row written, contents history row = some written →
    (∃ after, s.delete row = .ok after) ∧
      ∀ m r, (∃ after, s.update m row r = .ok after) ↔ ∃ data, s.encode m r = .ok data
  size : s.size + (removedRows history).length = (addedRows history).length
  /-- A command that is refused changes nothing. -/
  unchanged : ∀ command, s.effect? command = none → s.perform command = s
  /-- Any other command changes one row. -/
  frame : ∀ command e, s.effect? command = some e → ∀ row, row ≠ e.row →
    (s.perform command).values row = s.values row
  /-- An object is not added for one of three reasons. -/
  insert : ∀ m r e, s.insert m r = .error e ↔
    m.table.id ≠ s.table.id ∧ e = .otherTable m.className m.table.name s.table.name ∨
    (m.table.id = s.table.id ∧ ∃ cause,
      Stored.encodeRow s.table.schema (s.columnValues m r) = .error cause ∧ e = .row cause) ∨
    m.table.id = s.table.id ∧ (∃ data,
      Stored.encodeRow s.table.schema (s.columnValues m r) = .ok data) ∧
      UInt32.size ≤ (addedRows history).length ∧ e = .full

/-- A store that commands wrote to refines the map from row numbers to values that they made. -/
theorem refines_effects (t : Table) {commands : List Command}
    (hshort : ∀ command ∈ commands, command.Short) :
    ((empty t).run commands).table = t ∧
      Refines ((empty t).run commands) ((empty t).effects commands) := by
  have htable : ((empty t).run commands).table = t := ((sound_empty t).run hshort).2
  have htracks : Tracks ((empty t).run commands) ((empty t).effects commands) :=
    (tracks_empty t).run hshort
  generalize (empty t).run commands = s at htable htracks
  generalize (empty t).effects commands = history at htracks
  have hcount : (addedRows history).length = s.slots.size := by simp [htracks.added]
  refine ⟨htable, ?_⟩
  constructor
  case numbered =>
    rw [hcount]
    exact htracks.added
  case next =>
    intro m r row after hinsert
    obtain ⟨-, -, -, hrow, -⟩ := insert_eq_ok_iff.1 hinsert
    rw [hcount, hrow]
  case values => exact fun row written => htracks.values_eq
  case gone =>
    intro row
    cases htracks.row row with
    | live hcontents _ _ _ hadded hkept => simp [hcontents, hadded, hkept]
    | gone hcontents _ hgone => simpa [hcontents] using hgone
  case refused => exact fun row => htracks.refused_of_gone
  case live =>
    intro row written hcontents
    have hrow := (htracks.exists_row?_iff row).2 ⟨written, hcontents⟩
    refine ⟨⟨_, delete_eq_ok_iff.2 ⟨hrow, rfl⟩⟩, fun m r => ⟨?_, ?_⟩⟩
    · rintro ⟨after, hupdate⟩
      obtain ⟨data, hencode, -, -⟩ := update_eq_ok_iff.1 hupdate
      exact ⟨data, hencode⟩
    · rintro ⟨data, hencode⟩
      exact ⟨_, update_eq_ok_iff.2 ⟨data, hencode, hrow, rfl⟩⟩
  case size => rw [hcount, htracks.size]
  case unchanged =>
    intro command hrefused
    rcases s.effect?_cases command with ⟨-, hsame⟩ | ⟨e, heffect, -⟩
    · exact hsame
    · rw [hrefused] at heffect
      cases heffect
  case frame =>
    intro command e heffect row hne
    rcases s.effect?_cases command with ⟨hrefused, -⟩ | ⟨d, hd, hwrites⟩
    · rw [hrefused] at heffect
      cases heffect
    · obtain rfl : d = e := Option.some.inj (hd.symm.trans heffect)
      unfold Store.values noRow
      rw [hwrites.row?_of_ne hne, hwrites.table]
  case insert =>
    intro m r e
    rw [insert_eq_error_iff, encode_eq_error_iff, hcount]
    simp only [encode_eq_ok_iff, exists_and_left, or_assoc, and_assoc]
    rfl

/-- Events by their name and time. -/
def sampleEvents : Table :=
  ⟨⟨1⟩, "event", [⟨"name", .varchar⟩, ⟨"at", .timestamp⟩], by decide, by decide⟩

/-- The class of events, which shows the time under a name of its own. -/
def sampleEvent : Mapping where
  id := ⟨1⟩
  className := "Event"
  table := sampleEvents
  properties :=
    [⟨"name", ⟨⟨1⟩, 0, "event", "name", .varchar⟩⟩, ⟨"when", ⟨⟨1⟩, 1, "event", "at", .timestamp⟩⟩]
  parent := none
  discriminator := none

/-- The class of events without their time. -/
def sampleNotice : Mapping :=
  { sampleEvent with
    id := ⟨2⟩, className := "Notice", properties := sampleEvent.properties.take 1 }

/-- An event with a name and a time. -/
def sampleRecord (name time : Value) : Record :=
  ⟨⟨1⟩, (NameMap.empty.insert "name" name).insert "when" time⟩

/-- A leap second in the middle of a minute. -/
def sampleLeap : Instant := ⟨1435708769, 1500000000, by decide⟩

/-- Two events, of which the first is taken away and not to be replaced any more; a name that is no
text; a third event, which is later renamed through the class without a time. -/
def sampleCommands : List Command :=
  [.insert sampleEvent (sampleRecord (.string "a") .null),
    .insert sampleEvent (sampleRecord (.string "b") (.timestamp sampleLeap)),
    .delete ⟨0⟩,
    .update sampleEvent ⟨0⟩ (sampleRecord (.string "c") .null),
    .insert sampleEvent (sampleRecord (.int32 7) .null),
    .insert sampleEvent (sampleRecord (.string "d") (.timestamp sampleLeap)),
    .update sampleNotice ⟨2⟩ (sampleRecord (.string "e") (.timestamp sampleLeap))]

theorem short_sampleRecord {name time : Value} (hname : name.Short) (htime : time.Short)
    (key : String) (v : Value) (h : (sampleRecord name time).attribute? key = some v) : v.Short := by
  simp only [sampleRecord, Record.attribute?, NameMap.get?_insert, NameMap.get?_empty] at h
  split at h
  · cases h
    exact htime
  · split at h
    · cases h
      exact hname
    · cases h

theorem short_sampleCommands : ∀ command ∈ sampleCommands, command.Short := by
  simp only [sampleCommands, List.forall_mem_cons]
  refine ⟨?_, ?_, trivial, ?_, ?_, ?_, ?_, List.forall_mem_nil _⟩
  all_goals exact short_sampleRecord (by decide) (by decide)

/-- The second event reads as a part of the next second; the first one is gone, and the next one
will not have its number. -/
theorem refines_effects_sampleCommands :
    (empty sampleEvents).effects sampleCommands =
        [.added ⟨0⟩ [.string "a", .null], .added ⟨1⟩ [.string "b", .timestamp sampleLeap],
          .removed ⟨0⟩, .added ⟨2⟩ [.string "d", .timestamp sampleLeap],
          .replaced ⟨2⟩ [.string "e", .null]] ∧
      ((empty sampleEvents).run sampleCommands).values ⟨1⟩ =
        .ok [.string "b", .timestamp ⟨1435708770, 500000000, by decide⟩] ∧
      ((empty sampleEvents).run sampleCommands).values ⟨2⟩ = .ok [.string "e", .null] ∧
      (∃ e, ((empty sampleEvents).run sampleCommands).load sampleEvent ⟨0⟩ = .error e) ∧
      ((empty sampleEvents).run sampleCommands).size = 2 ∧
      ∀ m r row after, ((empty sampleEvents).run sampleCommands).insert m r = .ok (row, after) →
        row = ⟨3⟩ := by
  have heffects : (empty sampleEvents).effects sampleCommands =
      [.added ⟨0⟩ [.string "a", .null], .added ⟨1⟩ [.string "b", .timestamp sampleLeap],
        .removed ⟨0⟩, .added ⟨2⟩ [.string "d", .timestamp sampleLeap],
        .replaced ⟨2⟩ [.string "e", .null]] := by decide +kernel
  obtain ⟨-, hrefines⟩ := refines_effects sampleEvents short_sampleCommands
  rw [heffects] at hrefines
  refine ⟨heffects, hrefines.values ⟨1⟩ [.string "b", .timestamp sampleLeap] rfl,
    hrefines.values ⟨2⟩ [.string "e", .null] rfl, ?_, ?_, hrefines.next⟩
  · exact (hrefines.refused ⟨0⟩ rfl).2.2.2 sampleEvent
  · have hsize : ((empty sampleEvents).run sampleCommands).size + 1 = 3 := hrefines.size
    omega

end Store

end RowFlags
