import RowFlags.Proofs.Mapping.WellFormed
import RowFlags.Proofs.Naming.Recording
import RowFlags.Store.Query

/-!
# Rows as objects

An object of a class has the class's attributes and no others (`Record.IsOf`). Decoding a row through
a well-formed mapping always succeeds: a new object has every attribute that the decoder sets, and
each attribute ends up with the value of its own column (`decode_eq_ok`). So a column that the class
maps has the same value on the object as in the row (`valueOf_decode`).
-/

set_option autoImplicit false

namespace RowFlags

theorem NameMap.contains_insert {β : Type} (m : NameMap β) (name other : String) (value : β) :
    (m.insert name value).contains other = true ↔ name = other ∨ m.contains other = true := by
  rw [contains, get?_insert]
  by_cases h : name = other
  · simp [h]
  · simp [h, contains]

/-- A map built up from entries has the names of the entries. -/
theorem NameMap.contains_foldl_insert {β : Type} (entries : List (String × β)) (m : NameMap β)
    (name : String) :
    (entries.foldl (fun m e => m.insert e.1 e.2) m).contains name = true ↔
      m.contains name = true ∨ ∃ e ∈ entries, e.1 = name := by
  induction entries generalizing m with
  | nil => simp
  | cons e rest ih =>
    rw [List.foldl_cons, ih, contains_insert]
    simp only [List.mem_cons, exists_eq_or_imp]
    rw [or_comm (a := e.1 = name), or_assoc]

/-- What a map built up from entries has under a name was there before or is an entry. -/
theorem NameMap.mem_of_get?_foldl_insert {β : Type} {entries : List (String × β)} {m : NameMap β}
    {name : String} {value : β}
    (h : (entries.foldl (fun m e => m.insert e.1 e.2) m).get? name = some value) :
    m.get? name = some value ∨ (name, value) ∈ entries := by
  induction entries generalizing m with
  | nil => exact .inl h
  | cons e rest ih =>
    rcases ih h with hold | hrest
    · rw [get?_insert] at hold
      split at hold
      · next heq =>
        cases hold
        exact .inr (heq ▸ List.mem_cons_self)
      · exact .inl hold
    · exact .inr (List.mem_cons_of_mem _ hrest)

theorem Record.set_eq_ok_iff {r next : Record} {key : String} {v : Value} :
    r.set key v = .ok next ↔ r.attributes.contains key = true ∧
      next = { r with attributes := r.attributes.insert key v } := by
  unfold set
  by_cases hkey : r.attributes.contains key = true
  · rw [if_pos hkey, Except.ok.injEq, and_iff_right hkey]
    exact eq_comm
  · simp [hkey]

theorem Record.set_eq_error_iff {r : Record} {key : String} {v : Value} {e : FlagError} :
    r.set key v = .error e ↔ r.attribute? key = none ∧ .unknownAttribute r.classId key = e := by
  unfold set attribute? NameMap.contains
  cases r.attributes.get? key <;> simp

theorem Record.attribute?_insert (r : Record) (key other : String) (v : Value) :
    attribute? { r with attributes := r.attributes.insert key v } other =
      if key = other then some v else r.attribute? other :=
  NameMap.get?_insert r.attributes key other v

theorem Record.valueOf_eq_ok {r : Record} {naming : Naming} {c : Column} {name : String} {v : Value}
    (hname : naming r.classId c = .ok name) (hv : r.attribute? name = some v) :
    r.valueOf naming c = .ok v := by
  rw [valueOf, hname, Outcome.ok_bind, hv]
  rfl

/-- The object has the number of the class, and its attributes are those of the class. -/
structure Record.IsOf (r : Record) (m : Mapping) : Prop where
  classId : r.classId = m.id
  keys : ∀ key, r.attributes.contains key = true ↔ m.hasAttribute key = true

/-- An object stays one of its class when an attribute of the class gets another value. -/
theorem Record.IsOf.insert {r : Record} {m : Mapping} (h : r.IsOf m) {key : String}
    (hkey : m.hasAttribute key = true) (v : Value) :
    Record.IsOf { r with attributes := r.attributes.insert key v } m := by
  refine ⟨h.classId, fun other => ?_⟩
  rw [NameMap.contains_insert, h.keys, or_iff_right_iff_imp]
  rintro rfl
  exact hkey

namespace Mapping

theorem blank_contains_iff {m : Mapping} {key : String} :
    (Record.blank m).attributes.contains key = true ↔ m.hasAttribute key = true := by
  unfold Record.blank NameMap.ofList
  dsimp only
  rw [NameMap.contains_foldl_insert, hasAttribute_iff]
  constructor
  · rintro (hempty | ⟨e, he, rfl⟩)
    · cases hempty
    · obtain ⟨p, hp, rfl⟩ := List.mem_map.1 he
      exact ⟨p, hp, rfl⟩
  · rintro ⟨p, hp, rfl⟩
    exact .inr ⟨_, List.mem_map_of_mem hp, rfl⟩

/-- A new object has the attributes of its class. -/
theorem WellFormed.newRecord_contains_iff {m : Mapping} (h : m.WellFormed) {key : String} :
    m.newRecord.attributes.contains key = true ↔ m.hasAttribute key = true := by
  unfold newRecord
  split
  · exact blank_contains_iff
  · next d heq =>
    rw [NameMap.contains_insert, blank_contains_iff]
    constructor
    · rintro (rfl | hkey)
      · exact h.identified d heq
      · exact hkey
    · exact .inr

theorem newRecord_classId (m : Mapping) : m.newRecord.classId = m.id := by
  unfold newRecord
  split <;> rfl

theorem WellFormed.isOf_newRecord {m : Mapping} (h : m.WellFormed) : m.newRecord.IsOf m :=
  ⟨m.newRecord_classId, fun _ => h.newRecord_contains_iff⟩

end Mapping

namespace Store

/-- Filling an object sets the attributes of the properties and no others. -/
theorem fill_eq_ok (values : List Value) {properties : List Property} {r : Record}
    (hnodup : (properties.map Property.key).Nodup)
    (hall : ∀ p ∈ properties, r.attributes.contains p.key = true) :
    ∃ filled, fill values properties r = .ok filled ∧ filled.classId = r.classId ∧
      (∀ p ∈ properties,
        filled.attribute? p.key = some ((values[p.column.position]?).getD .null)) ∧
      ∀ key, (∀ p ∈ properties, p.key ≠ key) → filled.attribute? key = r.attribute? key := by
  induction properties generalizing r with
  | nil =>
    refine ⟨r, rfl, rfl, ?_, fun _ _ => rfl⟩
    intro p hp
    cases hp
  | cons p rest ih =>
    rw [List.map_cons, List.nodup_cons] at hnodup
    have hother (q : Property) (hq : q ∈ rest) : p.key ≠ q.key := fun heq =>
      hnodup.1 (heq ▸ List.mem_map_of_mem hq)
    obtain ⟨value, hvalue⟩ : ∃ value, value = (values[p.column.position]?).getD .null := ⟨_, rfl⟩
    have hset : r.set p.key value =
        .ok { r with attributes := r.attributes.insert p.key value } :=
      Record.set_eq_ok_iff.2 ⟨hall p List.mem_cons_self, rfl⟩
    obtain ⟨filled, hfill, hclass, hown, hframe⟩ := ih (r :=
        { r with attributes := r.attributes.insert p.key value }) hnodup.2 (by
      intro q hq
      exact (NameMap.contains_insert _ _ _ _).2 (.inr (hall q (List.mem_cons_of_mem _ hq))))
    refine ⟨filled, ?_, hclass, ?_, ?_⟩
    · rw [fill, ← hvalue, hset]
      exact hfill
    · intro q hq
      rcases List.mem_cons.1 hq with rfl | hq
      · rw [hframe q.key fun other hmem => (hother other hmem).symm]
        rw [Record.attribute?_insert, if_pos rfl, hvalue]
      · exact hown q hq
    · intro key hkey
      rw [hframe key fun q hq => hkey q (List.mem_cons_of_mem _ hq)]
      rw [Record.attribute?_insert, if_neg (hkey p List.mem_cons_self)]

/-- A row's values make an object of every class, each attribute with the value of its column. -/
theorem decode_eq_ok {m : Mapping} (h : m.WellFormed) (values : List Value) :
    ∃ object, decode m values = .ok object ∧ object.IsOf m ∧
      ∀ p ∈ m.properties,
        object.attribute? p.key = some ((values[p.column.position]?).getD .null) := by
  have hall : ∀ p ∈ m.properties, m.newRecord.attributes.contains p.key = true := by
    intro p hp
    rw [h.newRecord_contains_iff, Mapping.hasAttribute_iff]
    exact ⟨p, hp, rfl⟩
  obtain ⟨object, hfill, hclass, hown, hframe⟩ := fill_eq_ok values h.binds.nodup hall
  refine ⟨object, ?_, ⟨hclass.trans m.newRecord_classId, ?_⟩, hown⟩
  · rw [decode, hfill, Outcome.mapError_ok]
  · intro key
    by_cases hkey : ∃ p ∈ m.properties, p.key = key
    · obtain ⟨p, hp, rfl⟩ := hkey
      rw [Mapping.hasAttribute_iff, iff_true_right ⟨p, hp, rfl⟩]
      exact Option.isSome_iff_exists.2 ⟨_, hown p hp⟩
    · have hsame : object.attributes.get? key = m.newRecord.attributes.get? key :=
        hframe key fun p hp heq => hkey ⟨p, hp, heq⟩
      rw [NameMap.contains, hsame]
      exact h.newRecord_contains_iff

theorem checkClass_of_table {s : Store} {m : Mapping} (h : m.table = s.table) :
    s.checkClass m = .ok () := by
  unfold checkClass
  rw [h, if_pos rfl]

/-- Through a class on its table, a row is loaded from its values. -/
theorem load_eq_bind {s : Store} {m : Mapping} (h : m.table = s.table) (row : RowId) :
    s.load m row = s.values row >>= decode m := by
  rw [load, checkClass_of_table h, Outcome.ok_bind]

/-- Through a class on its table, a row loads if it can be read. -/
theorem exists_load_iff {s : Store} {m : Mapping} (h : m.WellFormed) (htable : m.table = s.table)
    {row : RowId} :
    (∃ r, s.load m row = .ok r) ↔ ∃ values, s.values row = .ok values := by
  rw [load_eq_bind htable]
  constructor
  · rintro ⟨r, hr⟩
    obtain ⟨values, hvalues, -⟩ := Outcome.bind_eq_ok_iff.1 hr
    exact ⟨values, hvalues⟩
  · rintro ⟨values, hvalues⟩
    obtain ⟨r, hr, -⟩ := decode_eq_ok h values
    exact ⟨r, Outcome.bind_eq_ok_iff.2 ⟨values, hvalues, hr⟩⟩

/-- A column that the class maps has the same value on the object as in the row. -/
theorem valueOf_decode {m : Mapping} (h : m.WellFormed) {values : List Value} {object : Record}
    (hdecode : decode m values = .ok object) {naming : Naming} {c : Column} {key : String}
    (hkey : m.namesOf c = [key]) (hnaming : naming m.id c = .ok key) {v : Value}
    (hv : values[c.position]? = some v) : object.valueOf naming c = .ok v := by
  obtain ⟨made, hmade, hof, hown⟩ := decode_eq_ok h values
  obtain rfl : made = object := Except.ok.inj (hmade.symm.trans hdecode)
  obtain ⟨p, hp, rfl, rfl⟩ := Mapping.exists_of_namesOf_eq_singleton hkey
  refine Record.valueOf_eq_ok ?_ (?_ : made.attribute? p.key = some v)
  · rw [hof.classId]
    exact hnaming
  · simpa [hv] using hown p hp

end Store

end RowFlags
