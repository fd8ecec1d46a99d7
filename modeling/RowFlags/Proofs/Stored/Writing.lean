import Mathlib.Algebra.GroupWithZero.Nat
import RowFlags.Proofs.Stored.Bitmap
import RowFlags.Proofs.Stored.Grammar

/-!
# Which rows are written

A row is checked before anything of it is written: the number of its values, then the type of each.
So writing a field comes upon NULL or a value of the column's type and nothing else
(`fieldBytes_cases`), and the one thing that can still go wrong is an instant out of range. A row is
written exactly if nothing of this is amiss, and otherwise refused for the first thing that is
(`Refused`, `encodeRow_exactly`).
-/

set_option autoImplicit false

namespace RowFlags

namespace Value

/-- How many bytes a value takes in a row, apart from its mark in the bitmap. -/
def width : Value → Nat
  | .boolean _ => 1
  | .int32 _ => 4
  | .timestamp _ => 8
  | .string s => 4 + (Text.bytes s).length
  | .null | .list _ => 0

/-- An instant whose nanosecond count eight bytes hold; or another value. -/
def InRange (v : Value) : Prop := ∀ t, v = .timestamp t → Instant.Storable t.nanoseconds

theorem inRange_of_ne {v : Value} (h : ∀ t, v ≠ .timestamp t) : v.InRange :=
  fun t ht => absurd ht (h t)

theorem inRange_timestamp_iff {t : Instant} :
    (timestamp t).InRange ↔ Instant.Storable t.nanoseconds := by
  simp [InRange]

end Value

namespace Stored

/-- Why values are not stored under a schema. -/
inductive Refused (schema : List ColumnType) (values : List Value) : RowError → Prop
  /-- There are not as many values as columns; -/
  | length (h : values.length ≠ schema.length) :
    Refused schema values (.lengthMismatch values.length schema.length)
  /-- else a value is neither NULL nor of the type of its column, the first such one; -/
  | misfit (hlength : values.length = schema.length) {front back : List (ColumnType × Value)}
    {type : ColumnType} {value : Value}
    (hsplit : schema.zip values = front ++ (type, value) :: back)
    (hfront : ∀ field ∈ front, field.2.fits field.1 = true) (hvalue : value.fits type = false) :
    Refused schema values (.incompatible value type)
  /-- else an instant is out of range, the first such one. -/
  | range (hlength : values.length = schema.length)
    (hfits : ∀ field ∈ schema.zip values, field.2.fits field.1 = true) {front back : List Value}
    {t : Instant} (hsplit : values = front ++ .timestamp t :: back)
    (hfront : ∀ v ∈ front, v.InRange) (ht : ¬ Instant.Storable t.nanoseconds) :
    Refused schema values (.outOfRange t)

/-- A value that fits its column is written in its width, unless it is an instant out of range. -/
theorem fieldBytes_cases {type : ColumnType} {value : Value} (h : value.fits type = true) :
    (∃ bytes, fieldBytes type value = .ok bytes ∧ bytes.length = value.width ∧ value.InRange) ∨
      ∃ t, value = .timestamp t ∧ ¬ Instant.Storable t.nanoseconds ∧
        fieldBytes type value = .error (.outOfRange t) := by
  rcases Value.fits_iff.1 h with rfl | htype
  · exact .inl ⟨[], rfl, rfl, Value.inRange_of_ne (by simp)⟩
  cases value with
  | null => cases htype
  | boolean b =>
    cases htype
    exact .inl ⟨_, rfl, rfl, Value.inRange_of_ne (by simp)⟩
  | int32 n =>
    cases htype
    exact .inl ⟨_, rfl, length_ofNat 4 _, Value.inRange_of_ne (by simp)⟩
  | string s =>
    cases htype
    refine .inl ⟨_, rfl, ?_, Value.inRange_of_ne (by simp)⟩
    rw [List.length_append, length_ofNat, Value.width]
  | timestamp t =>
    cases htype
    by_cases ht : Instant.Storable t.nanoseconds
    · exact .inl ⟨ofInt 8 t.nanoseconds, if_pos ht, length_ofNat 8 _,
        Value.inRange_timestamp_iff.2 ht⟩
    · exact .inr ⟨t, rfl, ht, if_neg ht⟩
  | list items => cases htype

/-- Fields that fit are written one after the other, up to the first instant out of range. -/
theorem fieldsBytes_cases {fields : List (ColumnType × Value)}
    (h : ∀ field ∈ fields, field.2.fits field.1 = true) :
    (∃ bytes, fieldsBytes fields = .ok bytes ∧
        bytes.length = ((fields.map Prod.snd).map Value.width).sum ∧
        ∀ v ∈ fields.map Prod.snd, v.InRange) ∨
      ∃ front t back, fields.map Prod.snd = front ++ .timestamp t :: back ∧
        (∀ v ∈ front, v.InRange) ∧ ¬ Instant.Storable t.nanoseconds ∧
        fieldsBytes fields = .error (.outOfRange t) := by
  induction fields with
  | nil => exact .inl ⟨[], rfl, rfl, List.forall_mem_nil _⟩
  | cons field rest ih =>
    obtain ⟨hfirst, hrest⟩ := List.forall_mem_cons.1 h
    rw [fieldsBytes, List.map_cons]
    rcases fieldBytes_cases hfirst with ⟨front, hfront, hlength, hin⟩ | ⟨t, ht, hout, hfront⟩
    · rw [hfront, Outcome.ok_bind]
      rcases ih hrest with
        ⟨back, hback, hlengths, hins⟩ | ⟨before, t, after, hsplit, hins, hout, hback⟩
      · rw [hback]
        refine .inl ⟨front ++ back, rfl, ?_, List.forall_mem_cons.2 ⟨hin, hins⟩⟩
        rw [List.length_append, hlength, hlengths]
        rfl
      · rw [hback, hsplit]
        exact .inr ⟨field.2 :: before, t, after, rfl, List.forall_mem_cons.2 ⟨hin, hins⟩, hout, rfl⟩
    · rw [hfront, ht]
      exact .inr ⟨[], t, rest.map Prod.snd, rfl, List.forall_mem_nil _, hout, rfl⟩

/-- A row is written in the widths of its values after the bitmap, or it is refused. -/
theorem encodeRow_cases (schema : List ColumnType) (values : List Value) :
    (∃ bytes, encodeRow schema values = .ok bytes ∧
        bytes.length = bitmapWidth schema.length + (values.map Value.width).sum ∧
        values.length = schema.length ∧ (∀ field ∈ schema.zip values, field.2.fits field.1 = true) ∧
        ∀ v ∈ values, v.InRange) ∨
      ∃ e, Refused schema values e ∧ encodeRow schema values = .error e := by
  unfold encodeRow
  by_cases hlength : values.length = schema.length
  · have hvalues : (schema.zip values).map Prod.snd = values :=
      List.map_snd_zip (Nat.le_of_eq hlength)
    rw [if_neg (not_not_intro hlength)]
    split
    · next type value hfind =>
      obtain ⟨hvalue, front, back, hsplit, hfront⟩ := List.find?_eq_some_iff_append.1 hfind
      exact .inr ⟨_, .misfit hlength hsplit (by simpa using hfront) (by simpa using hvalue), rfl⟩
    · next hfind =>
      have hfits : ∀ field ∈ schema.zip values, field.2.fits field.1 = true := by
        simpa [List.find?_eq_none] using hfind
      rcases fieldsBytes_cases hfits with
        ⟨bytes, hbytes, hwidth, hins⟩ | ⟨front, t, back, hsplit, hfront, hout, hbytes⟩
      · rw [hvalues] at hwidth hins
        rw [hbytes]
        refine .inl ⟨_, rfl, ?_, hlength, hfits, hins⟩
        rw [List.length_append, length_bitmap, List.length_map, hlength, hwidth]
      · rw [hvalues] at hsplit
        rw [hbytes]
        exact .inr ⟨_, .range hlength hfits hsplit hfront hout, rfl⟩
  · rw [if_pos hlength]
    exact .inr ⟨_, .length hlength, rfl⟩

/-- A list has one first member that fails. -/
theorem eq_of_first {α : Type} {P : α → Prop} {items front front' back back' : List α} {a b : α}
    (h : items = front ++ a :: back) (hfront : ∀ x ∈ front, P x) (ha : ¬ P a)
    (h' : items = front' ++ b :: back') (hfront' : ∀ x ∈ front', P x) (hb : ¬ P b) : a = b := by
  classical
  have hfirst : items.find? (fun x => ¬ P x) = some a :=
    List.find?_eq_some_iff_append.2 ⟨by simpa using ha, front, back, h, by simpa using hfront⟩
  have hfirst' : items.find? (fun x => ¬ P x) = some b :=
    List.find?_eq_some_iff_append.2 ⟨by simpa using hb, front', back', h', by simpa using hfront'⟩
  exact Option.some.inj (hfirst.symm.trans hfirst')

namespace Refused

variable {schema : List ColumnType} {values : List Value} {e e' : RowError}

/-- A column whose value does not fit is among the columns. -/
theorem not_fits_of_split {front back : List (ColumnType × Value)} {type : ColumnType}
    {value : Value} (hsplit : schema.zip values = front ++ (type, value) :: back)
    (hvalue : value.fits type = false) :
    ¬ ∀ field ∈ schema.zip values, field.2.fits field.1 = true := by
  intro hfits
  have hmem : (type, value) ∈ schema.zip values := by simp [hsplit]
  rw [hfits _ hmem] at hvalue
  cases hvalue

/-- What is refused has a fault, -/
theorem not_all (h : Refused schema values e) :
    ¬ (values.length = schema.length ∧
      (∀ field ∈ schema.zip values, field.2.fits field.1 = true) ∧ ∀ v ∈ values, v.InRange) := by
  rintro ⟨hlength, hfits, hins⟩
  cases h with
  | length h => exact h hlength
  | misfit _ hsplit _ hvalue => exact not_fits_of_split hsplit hvalue hfits
  | @range _ _ front back t hsplit _ ht =>
    have hmem : .timestamp t ∈ values := by simp [hsplit]
    exact ht (hins _ hmem t rfl)

/-- and is refused for that alone. -/
theorem unique (h : Refused schema values e) (h' : Refused schema values e') : e = e' := by
  cases h with
  | length h =>
    cases h' with
    | length _ => rfl
    | misfit hlength => exact absurd hlength h
    | range hlength => exact absurd hlength h
  | misfit hlength hsplit hfront hvalue =>
    cases h' with
    | length h => exact absurd hlength h
    | misfit _ hsplit' hfront' hvalue' =>
      cases eq_of_first hsplit hfront (by simp [hvalue]) hsplit' hfront' (by simp [hvalue'])
      rfl
    | range _ hfits => exact absurd hfits (not_fits_of_split hsplit hvalue)
  | range hlength hfits hsplit hfront ht =>
    cases h' with
    | length h => exact absurd hlength h
    | misfit _ hsplit' _ hvalue => exact absurd hfits (not_fits_of_split hsplit' hvalue)
    | range _ _ hsplit' hfront' ht' =>
      cases eq_of_first hsplit hfront (mt Value.inRange_timestamp_iff.1 ht) hsplit' hfront'
        (mt Value.inRange_timestamp_iff.1 ht')
      rfl

end Refused

theorem forall_inRange_iff {values : List Value} :
    (∀ v ∈ values, v.InRange) ↔
      ∀ t, .timestamp t ∈ values → Instant.Storable t.nanoseconds := by
  constructor
  · intro h t ht
    exact h _ ht t rfl
  · rintro h _ hv t rfl
    exact h t hv

/-- What is refused is not written, and what is not written is refused. -/
theorem encodeRow_eq_error_iff {schema : List ColumnType} {values : List Value} {e : RowError} :
    encodeRow schema values = .error e ↔ Refused schema values e := by
  rcases encodeRow_cases schema values with
    ⟨bytes, hbytes, -, hall⟩ | ⟨cause, hrefused, hcause⟩
  · rw [hbytes]
    constructor
    · rintro ⟨⟩
    · exact fun h => absurd hall h.not_all
  · rw [hcause, Except.error.injEq]
    constructor
    · rintro rfl
      exact hrefused
    · exact hrefused.unique

/-- A row with a value of its type or NULL for every column is refused only for an instant that is
out of range. -/
theorem exists_of_encodeRow_eq_error {schema : List ColumnType} {values : List Value}
    {e : RowError} (h : encodeRow schema values = .error e)
    (hlength : values.length = schema.length)
    (hfits : ∀ field ∈ schema.zip values, field.2.fits field.1 = true) :
    ∃ t, .timestamp t ∈ values ∧ ¬ Instant.Storable t.nanoseconds ∧ e = .outOfRange t := by
  cases encodeRow_eq_error_iff.1 h with
  | length hne => exact absurd hlength hne
  | misfit _ hsplit _ hvalue => exact absurd hfits (Refused.not_fits_of_split hsplit hvalue)
  | @range _ _ front back t hsplit _ ht => exact ⟨t, by simp [hsplit], ht, rfl⟩

/-- A row is written exactly if it has a value for every column, each NULL or of the column's type,
and no instant out of range. Otherwise it is refused for the first fault: the number of its values,
or else the first value of another type, even after an instant out of range, or else the first
instant out of range. Once the types are checked, no field fails for its type. A written row has the
bytes of the bitmap and of each value. -/
theorem encodeRow_exactly (schema : List ColumnType) (values : List Value) :
    ((∃ bytes, encodeRow schema values = .ok bytes) ↔
      values.length = schema.length ∧
        (∀ field ∈ schema.zip values, field.2 = .null ∨ field.2.columnType? = some field.1) ∧
        ∀ t, .timestamp t ∈ values → Instant.Storable t.nanoseconds) ∧
    (∀ e, encodeRow schema values = .error e ↔ Refused schema values e) ∧
    ((schema.zip values).find? (fun field => !field.2.fits field.1) = none →
      ∀ field ∈ schema.zip values, ∀ e, fieldBytes field.1 field.2 = .error e →
        ∃ t, field.2 = .timestamp t ∧ e = .outOfRange t) ∧
    ∀ bytes, encodeRow schema values = .ok bytes →
      bytes.length = (schema.length + 7) / 8 + (values.map Value.width).sum := by
  simp only [← Value.fits_iff, ← forall_inRange_iff]
  refine ⟨?_, fun e => encodeRow_eq_error_iff, ?_, ?_⟩
  · rcases encodeRow_cases schema values with
      ⟨bytes, hbytes, -, hall⟩ | ⟨e, hrefused, he⟩
    · exact ⟨fun _ => hall, fun _ => ⟨bytes, hbytes⟩⟩
    · rw [he]
      constructor
      · rintro ⟨_, ⟨⟩⟩
      · exact fun hall => absurd hall hrefused.not_all
  · intro hchecked field hfield e he
    have hfits : field.2.fits field.1 = true := by
      simpa using List.find?_eq_none.1 hchecked field hfield
    rcases fieldBytes_cases hfits with ⟨bytes, hbytes, -⟩ | ⟨t, ht, -, hout⟩
    · cases hbytes.symm.trans he
    · cases hout.symm.trans he
      exact ⟨t, ht, rfl⟩
  · intro bytes hbytes
    rcases encodeRow_cases schema values with ⟨written, hwritten, hlength, -⟩ | ⟨e, -, he⟩
    · cases hwritten.symm.trans hbytes
      exact hlength
    · cases he.symm.trans hbytes

/-- The last instant that is written lies in a leap second; a nanosecond later is out of range. -/
example :
    encodeRow [.timestamp] [.timestamp ⟨9223372035, 1854775807, by decide⟩] =
        .ok [0, 255, 255, 255, 255, 255, 255, 255, 127] ∧
      encodeRow [.timestamp] [.timestamp ⟨9223372035, 1854775808, by decide⟩] =
        .error (.outOfRange ⟨9223372035, 1854775808, by decide⟩) := ⟨rfl, rfl⟩

/-- The type of the later value is found wrong before the instant is found out of range. -/
example : encodeRow [.timestamp, .int32] [.timestamp ⟨9223372037, 0, by decide⟩, .boolean true] =
    .error (.incompatible (.boolean true) .int32) := rfl

end Stored

end RowFlags
