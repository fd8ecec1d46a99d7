import RowFlags.Proofs.Stored.Bitmap
import RowFlags.Proofs.Stored.Grammar

/-!
# Stored rows come back

What the writer makes of values is a row of the grammar that stands for the same values
(`spellsRow_of_encodeRow`), with one exception: only the nanosecond count of an instant is stored,
so a leap second stands for the ordinary instant with that count. From the grammar it follows that
the row is read back whatever follows it, and that no part of it short of the whole is read
(`decodeRow_encodeRow`).
-/

set_option autoImplicit false

namespace RowFlags

namespace Instant

/-- The ordinary instant with the same nanosecond count, where there is one: a leap second is the
first part of the next second. -/
def ordinary (t : Instant) : Instant :=
  if t.nanos < perSecond then t
  else (ofParts? (t.seconds + 1) (t.nanos - perSecond)).getD t

theorem nanos_ofNanoseconds_lt (n : Int) (h : Storable n) :
    (ofNanoseconds n h).nanos < perSecond := by
  unfold ofNanoseconds perSecond
  dsimp only
  omega

theorem ordinary_eq_self {t : Instant} (h : t.nanos < perSecond) : t.ordinary = t := if_pos h

theorem nanoseconds_ordinary (t : Instant) : t.ordinary.nanoseconds = t.nanoseconds := by
  unfold ordinary ofParts?
  by_cases hnanos : t.nanos < perSecond
  · rw [if_pos hnanos]
  · rw [if_neg hnanos]
    split
    · simp only [Option.getD_some, nanoseconds]
      unfold perSecond at *
      omega
    · rfl

/-- The calendar's last second has no next one, but its nanosecond count is not stored. -/
theorem nanos_ordinary_lt {t : Instant} (h : Storable t.nanoseconds) :
    t.ordinary.nanos < perSecond := by
  by_cases hnanos : t.nanos < perSecond
  · rwa [ordinary_eq_self hnanos]
  · have hvalid := t.valid
    have hrest : t.nanos - perSecond < perSecond := by
      unfold Valid at hvalid
      omega
    have hnext : Valid (t.seconds + 1) (t.nanos - perSecond) := by
      unfold Storable nanoseconds at h
      unfold Valid firstSecond lastSecond perSecond at *
      omega
    unfold ordinary ofParts?
    rwa [if_neg hnanos, dif_pos ⟨hnext, .inl hrest⟩, Option.getD_some]

/-- An instant that can be stored comes back from its nanosecond count as the ordinary one. -/
theorem ofNanoseconds_eq_ordinary {n : Int} {t : Instant} (hn : n = t.nanoseconds)
    (h : Storable n) : ofNanoseconds n h = t.ordinary := by
  subst hn
  have hstorable : Storable t.ordinary.nanoseconds := by rwa [nanoseconds_ordinary]
  calc ofNanoseconds t.nanoseconds h
      = ofNanoseconds t.ordinary.nanoseconds hstorable := by
        congr 1
        rw [nanoseconds_ordinary]
    _ = t.ordinary := ofNanoseconds_nanoseconds hstorable (nanos_ordinary_lt h)

end Instant

namespace Value

/-- A text of fewer than 2³² bytes, so that four bytes hold its length; or another value. -/
def Short : Value → Prop
  | .string s => (Text.bytes s).length < UInt32.size
  | _ => True

instance : DecidablePred Short := fun v => by
  unfold Short
  split <;> infer_instance

/-- A value with the ordinary instant in place of a leap second. -/
def ordinary : Value → Value
  | .timestamp t => .timestamp t.ordinary
  | v => v

end Value

namespace Stored

/-- The bytes of a value spell it. -/
theorem spells_of_fieldBytes {type : ColumnType} {value : Value} {bytes : List UInt8}
    (h : fieldBytes type value = .ok bytes) (hnull : value ≠ .null) (hshort : value.Short) :
    Spells type bytes value.ordinary := by
  unfold fieldBytes at h
  split at h
  · exact absurd rfl hnull
  · next b =>
    cases h
    cases b
    · exact .boolean 0
    · exact .boolean 1
  · next n =>
    cases h
    have hread : toInt 4 (ofInt 4 n.toInt) = n.toInt :=
      toInt_ofInt n.le_toInt n.toInt_lt
    have hspells : Spells .int32 (ofInt 4 n.toInt) _ := .int32 (length_ofNat _ _)
    rwa [hread, Int32.ofInt_toInt] at hspells
  · next s =>
    cases h
    exact .varchar (length_ofNat _ _) (toNat_ofNat hshort)
  · next t =>
    split at h
    · next hstorable =>
      cases h
      have hread : toInt 8 (ofInt 8 t.nanoseconds) = t.nanoseconds :=
        toInt_ofInt hstorable.1 hstorable.2
      have hspells : Spells .timestamp (ofInt 8 t.nanoseconds) _ := .timestamp (length_ofNat _ _)
      rwa [Instant.ofNanoseconds_eq_ordinary hread] at hspells
    · cases h
  · cases h

/-- The bytes of the fields of a row spell them, the NULLs marked. -/
theorem spellsFields_of_fieldsBytes {schema : List ColumnType} {values : List Value}
    {bytes : List UInt8} (hlength : values.length = schema.length)
    (h : fieldsBytes (schema.zip values) = .ok bytes) (hshort : ∀ v ∈ values, v.Short) :
    SpellsFields (schema.zip (values.map Value.isNull)) bytes (values.map Value.ordinary) := by
  induction schema generalizing values bytes with
  | nil =>
    obtain rfl := List.eq_nil_of_length_eq_zero hlength
    cases h
    exact .nil
  | cons type schema ih =>
    cases values with
    | nil => cases hlength
    | cons value values =>
      obtain ⟨front, hfront, h⟩ := Outcome.bind_eq_ok_iff.1 h
      obtain ⟨back, hback, h⟩ := Outcome.bind_eq_ok_iff.1 h
      cases h
      have hrest := ih (Nat.succ.inj hlength) hback
        fun v hv => hshort v (List.mem_cons_of_mem _ hv)
      by_cases hnull : value = .null
      · subst hnull
        cases hfront
        exact .null hrest
      · have hmark : value.isNull = false := by
          rw [Bool.eq_false_iff, Ne, Value.isNull_iff]
          exact hnull
        rw [List.map_cons, List.map_cons, List.zip_cons_cons, hmark]
        exact .value (spells_of_fieldBytes hfront hnull (hshort value List.mem_cons_self)) hrest

/-- When a row is written, it has a value of its type or NULL for every column. -/
theorem encodeRow_eq_ok_iff {schema : List ColumnType} {values : List Value}
    {bytes : List UInt8} :
    encodeRow schema values = .ok bytes ↔
      values.length = schema.length ∧ (∀ field ∈ schema.zip values, field.2.fits field.1 = true) ∧
        ∃ fields, fieldsBytes (schema.zip values) = .ok fields ∧
          bytes = bitmap (values.map Value.isNull) ++ fields := by
  unfold encodeRow
  by_cases hlength : values.length = schema.length
  · rw [if_neg (fun h => h hlength)]
    split
    · next type value hfind =>
      have hmem := List.mem_of_find?_eq_some hfind
      have hmisfit := List.find?_some hfind
      constructor
      · intro h
        cases h
      · rintro ⟨-, hfits, -⟩
        simp [hfits _ hmem] at hmisfit
    · next hfind =>
      rw [Outcome.map_eq_ok_iff]
      simp only [List.find?_eq_none, Bool.not_eq_true', Bool.not_eq_false] at hfind
      constructor
      · rintro ⟨fields, hfields, rfl⟩
        exact ⟨hlength, hfind, fields, hfields, rfl⟩
      · rintro ⟨-, -, fields, hfields, rfl⟩
        exact ⟨fields, hfields, rfl⟩
  · rw [if_pos hlength]
    constructor
    · intro h
      cases h
    · rintro ⟨h, -⟩
      exact absurd h hlength

/-- A written row stands for its values. -/
theorem spellsRow_of_encodeRow {schema : List ColumnType} {values : List Value}
    {bytes : List UInt8} (h : encodeRow schema values = .ok bytes)
    (hshort : ∀ v ∈ values, v.Short) : SpellsRow schema bytes (values.map Value.ordinary) := by
  obtain ⟨hlength, -, fields, hfields, rfl⟩ := encodeRow_eq_ok_iff.1 h
  refine ⟨bitmap (values.map Value.isNull), fields, rfl, ?_, ?_⟩
  · rw [length_bitmap, List.length_map, hlength]
  · have hmarks := marks_bitmap (values.map Value.isNull)
    rw [List.length_map, hlength] at hmarks
    rw [hmarks]
    exact spellsFields_of_fieldsBytes hlength hfields hshort

/-- No field stands for a leap second. -/
theorem Spells.nanos_lt {type : ColumnType} {bytes : List UInt8} {value : Value}
    (h : Spells type bytes value) {t : Instant} (ht : value = .timestamp t) :
    t.nanos < Instant.perSecond := by
  cases h with
  | timestamp _ =>
    rw [← Value.timestamp.inj ht]
    exact Instant.nanos_ofNanoseconds_lt _ _
  | _ => cases ht

/-- No row stands for a leap second. -/
theorem SpellsFields.nanos_lt {fields : List (ColumnType × Bool)} {bytes : List UInt8}
    {values : List Value} (h : SpellsFields fields bytes values) {t : Instant}
    (ht : .timestamp t ∈ values) : t.nanos < Instant.perSecond := by
  induction h with
  | nil => cases ht
  | null _ ih =>
    cases ht with
    | tail _ ht => exact ih ht
  | value hfirst _ ih =>
    cases ht with
    | tail _ ht => exact ih ht
    | head => exact hfirst.nanos_lt rfl

/-- A written row decodes to the values it was written from, whatever follows it, but for leap
seconds, which come back as the ordinary instants with their nanosecond counts; and no front of it
short of the whole decodes. -/
theorem decodeRow_encodeRow {schema : List ColumnType} {values : List Value} {bytes : List UInt8}
    (hencode : encodeRow schema values = .ok bytes) (hshort : ∀ v ∈ values, v.Short) :
    decodeRow schema bytes = .ok (values.map Value.ordinary) ∧
      (∀ t, .timestamp t ∈ values →
        t.ordinary.nanoseconds = t.nanoseconds ∧ t.ordinary.nanos < Instant.perSecond ∧
          (t.nanos < Instant.perSecond → t.ordinary = t)) ∧
      (∀ more, decodeRow schema (bytes ++ more) = decodeRow schema bytes) ∧
      ∀ n < bytes.length, ∃ e, decodeRow schema (bytes.take n) = .error e := by
  have hspells : SpellsRow schema bytes (values.map Value.ordinary) :=
    spellsRow_of_encodeRow hencode hshort
  refine ⟨hspells.decodeRow_eq, ?_, ?_, ?_⟩
  · intro t ht
    obtain ⟨_, _, _, _, hfields⟩ := hspells
    have hmem : Value.timestamp t.ordinary ∈ values.map Value.ordinary :=
      List.mem_map.2 ⟨.timestamp t, ht, rfl⟩
    exact ⟨t.nanoseconds_ordinary, hfields.nanos_lt hmem, Instant.ordinary_eq_self⟩
  · intro more
    rw [hspells.decodeRow_eq]
    exact decodeRow_eq_ok_iff.2 ⟨bytes, more, rfl, hspells⟩
  · intro n hn
    exact hspells.decodeRow_take hn

/-- Nine columns, so that the bitmap takes two bytes. -/
def sampleSchema : List ColumnType :=
  [.boolean, .int32, .varchar, .timestamp, .varchar, .boolean, .int32, .varchar, .timestamp]

/-- The leap second at the end of 2016 and one half a minute before it, with NULLs between. -/
def sampleValues : List Value :=
  [.boolean true, .int32 (-2), .string "né", .timestamp ⟨1483228799, 1500000000, by decide⟩, .null,
    .boolean false, .null, .string "", .timestamp ⟨1483228769, 1999999999, by decide⟩]

/-- Each leap second comes back as a part of the next second. -/
theorem decodeRow_encodeRow_sampleValues :
    ∃ bytes, encodeRow sampleSchema sampleValues = .ok bytes ∧ bytes.length = 35 ∧
      decodeRow sampleSchema (bytes ++ [7]) =
        .ok [.boolean true, .int32 (-2), .string "né",
          .timestamp ⟨1483228800, 500000000, by decide⟩, .null, .boolean false, .null, .string "",
          .timestamp ⟨1483228770, 999999999, by decide⟩] ∧
      ∃ e, decodeRow sampleSchema (bytes.take 34) = .error e := by
  have hshort : ∀ v ∈ sampleValues, v.Short := by decide
  have hencode : ∃ bytes, encodeRow sampleSchema sampleValues = .ok bytes ∧ bytes.length = 35 :=
    ⟨_, rfl, rfl⟩
  obtain ⟨bytes, hbytes, hlength⟩ := hencode
  obtain ⟨hvalues, -, hmore, hcut⟩ := decodeRow_encodeRow hbytes hshort
  refine ⟨bytes, hbytes, hlength, ?_, hcut 34 (by omega)⟩
  rw [hmore, hvalues]
  rfl

end Stored

end RowFlags
