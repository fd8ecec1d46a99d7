import RowFlags.Proofs.Session.Sound
import RowFlags.Proofs.Store.History
import RowFlags.Proofs.Store.Object

/-!
# Rows between classes

An object is written column by column through its own class and read back attribute by attribute
through any class on the table. The two may name a column differently, several times or not at all:
what an attribute reads is what the first attribute of its column wrote (`load_insert`). So an object
of a class comes back through the class as it was, if attributes of one column hold the same value
and no value is a leap second.
-/

set_option autoImplicit false

namespace RowFlags

namespace Store

variable {s after : Store} {m : Mapping} {r : Record} {row : RowId}

/-- Among the values of an object, that of a column stands at the column's place. -/
theorem getElem?_columnValues {c : Column} (hc : c ∈ s.table.columns) :
    (s.columnValues m r)[c.position]? = some (columnValue m r c) := by
  rw [columnValues, List.getElem?_map, Table.columns_position hc, Option.map_some]

/-- What an object gives a column is the value of its first attribute. -/
theorem columnValue_eq (m : Mapping) (r : Record) (c : Column) :
    columnValue m r c =
      match m.namesOf c with
      | [] => .null
      | key :: _ => (r.attribute? key).getD .null := by
  unfold columnValue
  cases m.namesOf c <;> rfl

theorem exists_of_insert (h : (s.insert m r).toOption.isSome = true) :
    ∃ after, s.insert m r = .ok (⟨s.slots.size⟩, after) := by
  obtain ⟨⟨row, after⟩, hresult⟩ := Option.isSome_iff_exists.1 h
  have hinsert := Outcome.toOption_eq_some_iff.1 hresult
  obtain ⟨-, -, -, rfl, -⟩ := insert_eq_ok_iff.1 hinsert
  exact ⟨after, hinsert⟩

/-- A row that was just added has the values it was added with. -/
theorem values_of_insert (hinsert : s.insert m r = .ok (row, after))
    (hshort : ∀ key v, r.attribute? key = some v → v.Short) :
    after.table = s.table ∧
      after.values row = .ok ((s.columnValues m r).map Value.ordinary) := by
  obtain ⟨data, hencode, -, rfl, rfl⟩ := insert_eq_ok_iff.1 hinsert
  obtain ⟨-, hencode⟩ := encode_eq_ok_iff.1 hencode
  refine ⟨rfl, values_of_encodeRow ?_ hencode (short_columnValues hshort)⟩
  rw [row?_push, if_pos rfl]

/-- A row that was just added makes an object of every class on the table. -/
theorem exists_load_of_insert (hinsert : s.insert m r = .ok (row, after))
    (hshort : ∀ key v, r.attribute? key = some v → v.Short) {n : Mapping} (hn : n.WellFormed)
    (htable : n.table = s.table) :
    ∃ object, after.load n row = .ok object ∧ object.IsOf n ∧
      ∀ p ∈ n.properties,
        object.attribute? p.key = some (columnValue m r p.column).ordinary := by
  obtain ⟨hsame, hvalues⟩ := values_of_insert hinsert hshort
  obtain ⟨object, hdecode, hof, hown⟩ :=
    decode_eq_ok hn ((s.columnValues m r).map Value.ordinary)
  refine ⟨object, ?_, hof, ?_⟩
  · rw [load_eq_bind (htable.trans hsame.symm), hvalues, Outcome.ok_bind, hdecode]
  · intro p hp
    have hc : p.column ∈ s.table.columns := htable ▸ hn.binds.own p hp
    rw [hown p hp, List.getElem?_map, getElem?_columnValues hc, Option.map_some, Option.getD_some]

/-- Attributes that are bound to one column hold the same value. -/
def Agrees (m : Mapping) (r : Record) : Prop :=
  ∀ p ∈ m.properties, ∀ q ∈ m.properties, p.column = q.column →
    r.attribute? p.key = r.attribute? q.key

/-- Where the attributes of a column agree, each of them holds what is written for the column. -/
theorem columnValue_of_agrees (hof : r.IsOf m) (hagrees : Agrees m r) {p : Property}
    (hp : p ∈ m.properties) : r.attribute? p.key = some (columnValue m r p.column) := by
  have hmapped : p.key ∈ m.namesOf p.column := Mapping.mem_namesOf_iff.2 ⟨p, hp, rfl, rfl⟩
  obtain ⟨v, hv⟩ : ∃ v, r.attribute? p.key = some v :=
    Option.isSome_iff_exists.1 ((hof.keys p.key).2 (Mapping.hasAttribute_iff.2 ⟨p, hp, rfl⟩))
  rw [columnValue_eq]
  split
  · next hnone =>
    rw [hnone] at hmapped
    cases hmapped
  · next first others hnames =>
    have hfirst : first ∈ m.namesOf p.column := by
      rw [hnames]
      exact List.mem_cons_self
    obtain ⟨q, hq, hcolumn, rfl⟩ := Mapping.mem_namesOf_iff.1 hfirst
    rw [← hagrees p hp q hq hcolumn.symm, hv, Option.getD_some]

/-- An object comes back through its own class with ordinary instants for leap seconds. -/
theorem attribute?_load_insert (hof : r.IsOf m) (hagrees : Agrees m r) {object : Record}
    (hobject : object.IsOf m)
    (hown : ∀ p ∈ m.properties,
      object.attribute? p.key = some (columnValue m r p.column).ordinary) (key : String) :
    object.attribute? key = (r.attribute? key).map Value.ordinary := by
  by_cases hkey : ∃ p ∈ m.properties, p.key = key
  · obtain ⟨p, hp, rfl⟩ := hkey
    rw [hown p hp, columnValue_of_agrees hof hagrees hp, Option.map_some]
  · have hnone (x : Record) (hx : x.IsOf m) : x.attribute? key = none := by
      rw [← Option.not_isSome_iff_eq_none]
      exact fun hsome => hkey (Mapping.hasAttribute_iff.1 ((hx.keys key).1 hsome))
    rw [hnone object hobject, hnone r hof, Option.map_none]

end Store

/-- Objects of one class that answer every attribute alike are the same. -/
theorem Record.eq_of_attribute? {r r' : Record} (hclass : r.classId = r'.classId)
    (h : ∀ key, r.attribute? key = r'.attribute? key) : r = r' := by
  obtain ⟨classId, attributes⟩ := r
  obtain ⟨classId', attributes'⟩ := r'
  obtain rfl : classId = classId' := hclass
  obtain rfl : attributes = attributes' := NameMap.ext h
  rfl

namespace Value

/-- No leap second. -/
def IsOrdinary : Value → Prop
  | .timestamp t => t.nanos < Instant.perSecond
  | _ => True

instance : DecidablePred IsOrdinary := fun v => by
  unfold IsOrdinary
  split <;> infer_instance

/-- Only leap seconds have another instant for their ordinary one. -/
theorem ordinary_eq_self {v : Value} (h : v.IsOrdinary) : v.ordinary = v := by
  cases v with
  | timestamp t => exact congrArg Value.timestamp (Instant.ordinary_eq_self h)
  | _ => rfl

end Value

namespace Store

/-- What is added through one class of the table is what every class on the table loads. The object
has the attributes of the class that loads it; each holds what the first attribute that the other
class binds to its column held, or NULL if there is none or the object lacks it. An object of a
class whose attributes of one column agree comes back through this class as it was, but for leap
seconds, which come back as the ordinary instants with their nanosecond counts. -/
theorem load_insert {session : Session} (hsession : session.Reached) {nameA nameB : String}
    {a b : Mapping} (ha : session.Holds nameA a) (hb : session.Holds nameB b) {s after : Store}
    (htable : s.table ∈ session.tables) (hclass : b.table.id = s.table.id) {r : Record}
    (hshort : ∀ key v, r.attribute? key = some v → v.Short) {row : RowId}
    (hinsert : s.insert a r = .ok (row, after)) :
    (∃ object, after.load b row = .ok object ∧ object.IsOf b ∧
      ∀ p ∈ b.properties, object.attribute? p.key = some
        (match a.namesOf p.column with
        | [] => .null
        | key :: _ => ((r.attribute? key).getD .null).ordinary)) ∧
    (r.IsOf a → Agrees a r →
      (∃ object, after.load a row = .ok object ∧ object.IsOf a ∧
        ∀ key, object.attribute? key = (r.attribute? key).map Value.ordinary) ∧
      ((∀ key v, r.attribute? key = some v → v.IsOrdinary) → after.load a row = .ok r)) := by
  have hsound := hsession.sound
  obtain ⟨hatable, hawell⟩ := hsound.mapping nameA a ha
  obtain ⟨hbtable, hbwell⟩ := hsound.mapping nameB b hb
  constructor
  · obtain ⟨object, hload, hof, hown⟩ := exists_load_of_insert hinsert hshort hbwell
      (hsound.table_eq hbtable htable hclass)
    refine ⟨object, hload, hof, ?_⟩
    intro p hp
    rw [hown p hp, columnValue_eq]
    cases a.namesOf p.column <;> rfl
  · intro hof hagrees
    obtain ⟨data, hencode, -⟩ := insert_eq_ok_iff.1 hinsert
    obtain ⟨object, hload, hobject, hown⟩ := exists_load_of_insert hinsert hshort hawell
      (hsound.table_eq hatable htable (encode_eq_ok_iff.1 hencode).1)
    have hattributes := attribute?_load_insert hof hagrees hobject hown
    refine ⟨⟨object, hload, hobject, hattributes⟩, ?_⟩
    intro hordinary
    rw [hload]
    refine congrArg Except.ok (Record.eq_of_attribute? (hobject.classId.trans hof.classId.symm) ?_)
    intro key
    rw [hattributes key]
    cases hvalue : r.attribute? key with
    | none => rfl
    | some v => exact congrArg some (Value.ordinary_eq_self (hordinary key v hvalue))

/-- Messages with a kind and a time, and a note on them. -/
def sampleMessages : Table :=
  ⟨⟨1⟩, "message", [⟨"kind", .varchar⟩, ⟨"at", .timestamp⟩, ⟨"note", .varchar⟩],
    by decide, by decide⟩

/-- Letters show the time twice and no note. -/
def sampleLetterDraft : Draft :=
  { className := "Letter", table := sampleMessages
    entries := [("kind", "kind"), ("sent", "at"), ("received", "at")]
    identity := some ⟨some "kind", .string "letter"⟩ }

/-- Notices show the same under other names, and the note. -/
def sampleNoticeDraft : Draft :=
  { className := "Notice", table := sampleMessages
    entries := [("note", "note"), ("since", "at"), ("type", "kind")] }

/-- The class of letters. -/
def sampleLetter : Mapping where
  id := ⟨1⟩
  className := "Letter"
  table := sampleMessages
  properties :=
    [⟨"kind", ⟨⟨1⟩, 0, "message", "kind", .varchar⟩⟩,
      ⟨"sent", ⟨⟨1⟩, 1, "message", "at", .timestamp⟩⟩,
      ⟨"received", ⟨⟨1⟩, 1, "message", "at", .timestamp⟩⟩]
  parent := none
  discriminator := some ⟨"kind", .string "letter"⟩

/-- The class of notices. -/
def sampleBulletin : Mapping where
  id := ⟨2⟩
  className := "Notice"
  table := sampleMessages
  properties :=
    [⟨"note", ⟨⟨1⟩, 2, "message", "note", .varchar⟩⟩,
      ⟨"since", ⟨⟨1⟩, 1, "message", "at", .timestamp⟩⟩,
      ⟨"type", ⟨⟨1⟩, 0, "message", "kind", .varchar⟩⟩]
  parent := none
  discriminator := none

/-- The session in which both classes are mapped. -/
def samplePost : Session :=
  (({ : Session }.step (.createTable "main" "message" sampleMessages.declared)).step
    (.mapClass "main" sampleLetterDraft)).step (.mapClass "main" sampleNoticeDraft)

theorem reached_samplePost : samplePost.Reached := by
  refine .step (.step (.step .refl _ ?_) _ ?_) _ ?_
  · trivial
  · exact ⟨by decide, fun parent h => by cases h⟩
  · exact ⟨by decide, fun parent h => by cases h⟩

/-- A new letter, sent and received at some times. -/
def sampleLetterOf (sent received : Value) : Record :=
  ⟨⟨1⟩, (sampleLetter.newRecord.attributes.insert "sent" sent).insert "received" received⟩

/-- A letter sent in a leap second reads as a notice of the next second; a letter that was sent and
received at once comes back as it was, its kind included. -/
theorem load_insert_sampleLetter :
    (∃ after object,
      (empty sampleMessages).insert sampleLetter
          (sampleLetterOf (.timestamp ⟨1435708769, 1500000000, by decide⟩) .null) =
        .ok (⟨0⟩, after) ∧
      after.load sampleBulletin ⟨0⟩ = .ok object ∧
      object.attribute? "type" = some (.string "letter") ∧
      object.attribute? "since" = some (.timestamp ⟨1435708770, 500000000, by decide⟩) ∧
      object.attribute? "note" = some .null) ∧
    ∃ after,
      (empty sampleMessages).insert sampleLetter
          (sampleLetterOf (.timestamp ⟨7, 0, by decide⟩) (.timestamp ⟨7, 0, by decide⟩)) =
        .ok (⟨0⟩, after) ∧
      after.load sampleLetter ⟨0⟩ =
        .ok (sampleLetterOf (.timestamp ⟨7, 0, by decide⟩) (.timestamp ⟨7, 0, by decide⟩)) := by
  have hletter : samplePost.Holds "main" sampleLetter := by
    show sampleLetter ∈ _
    decide
  have hnotice : samplePost.Holds "main" sampleBulletin := by
    show sampleBulletin ∈ _
    decide
  have hentries {P : Value → Prop} {r : Record} (h : ∀ e ∈ r.attributes.entries, P e.2) :
      ∀ key v, r.attribute? key = some v → P v :=
    fun key v hv => h (key, v) (NameMap.mem_of_find?_eq_some hv)
  constructor
  · obtain ⟨after, hinsert⟩ := exists_of_insert (s := empty sampleMessages) (m := sampleLetter)
      (r := sampleLetterOf (.timestamp ⟨1435708769, 1500000000, by decide⟩) .null)
      (by decide +kernel)
    obtain ⟨⟨object, hload, -, hown⟩, -⟩ := load_insert reached_samplePost hletter hnotice
      (by decide) rfl (hentries (by decide)) hinsert
    refine ⟨after, object, hinsert, hload, ?_, ?_, ?_⟩
    · exact hown ⟨"type", ⟨⟨1⟩, 0, "message", "kind", .varchar⟩⟩ (by decide)
    · exact hown ⟨"since", ⟨⟨1⟩, 1, "message", "at", .timestamp⟩⟩ (by decide)
    · exact hown ⟨"note", ⟨⟨1⟩, 2, "message", "note", .varchar⟩⟩ (by decide)
  · obtain ⟨after, hinsert⟩ := exists_of_insert (s := empty sampleMessages) (m := sampleLetter)
      (r := sampleLetterOf (.timestamp ⟨7, 0, by decide⟩) (.timestamp ⟨7, 0, by decide⟩))
      (by decide +kernel)
    have hwell := (reached_samplePost.sound.mapping "main" sampleLetter hletter).2
    have hof : (sampleLetterOf (.timestamp ⟨7, 0, by decide⟩)
        (.timestamp ⟨7, 0, by decide⟩)).IsOf sampleLetter :=
      (hwell.isOf_newRecord.insert (by decide) _).insert (by decide) _
    refine ⟨after, hinsert, ((load_insert reached_samplePost hletter hletter (by decide) rfl
      (hentries (by decide)) hinsert).2 hof (by unfold Agrees; decide)).2 ?_⟩
    exact hentries (by decide)

end Store

end RowFlags
