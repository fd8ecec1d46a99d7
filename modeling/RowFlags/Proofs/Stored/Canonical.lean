import RowFlags.Proofs.Stored.RoundTrip

/-!
# What writing does to a row that was read

The reader accepts more bytes than the writer makes: any byte but zero is a true Boolean, and the
bits of the bitmap past the last column are not looked at. `settleRow` takes those two freedoms out
of a row and leaves its other bytes alone. Writing the values that were read settles the row they
were read from (`encodeRow_decodeRow`), so bytes decode to the same values exactly when their rows
settle to the same bytes.
-/

set_option autoImplicit false

namespace RowFlags.Stored

/-! ## The settled row -/

/-- How many bytes the field takes that the bytes start with. -/
def fieldWidth : ColumnType → List UInt8 → Nat
  | .boolean, _ => 1
  | .int32, _ => 4
  | .varchar, data => 4 + toNat (data.take 4)
  | .timestamp, _ => 8

/-- The bytes of a field, with 1 for a Boolean that is not zero. -/
def settleField (type : ColumnType) (bytes : List UInt8) : List UInt8 :=
  match type with
  | .boolean => bytes.map fun b => if b = 0 then 0 else 1
  | _ => bytes

/-- The fields that the bytes start with, settled, and what follows them. -/
def settleFields : List (ColumnType × Bool) → List UInt8 → List UInt8
  | [], data => data
  | (_, true) :: fields, data => settleFields fields data
  | (type, false) :: fields, data =>
    settleField type (data.take (fieldWidth type data)) ++
      settleFields fields (data.drop (fieldWidth type data))

/-- A row with 1 for every Boolean that is not zero, and with the bits of the bitmap past the last
column unset. -/
def settleRow (schema : List ColumnType) (row : List UInt8) : List UInt8 :=
  let bits := row.take (bitmapWidth schema.length)
  settleBitmap schema.length bits ++
    settleFields (schema.zip (marks schema.length bits)) (row.drop (bitmapWidth schema.length))

/-- The row that the bytes start with, as far as it is read. -/
def consumed (schema : List ColumnType) (data : List UInt8) : List UInt8 :=
  match readRow schema data with
  | .ok (_, rest) => data.take (data.length - rest.length)
  | .error _ => []

/-! ## Writing settles -/

theorem Spells.fieldWidth_eq {type : ColumnType} {front : List UInt8} {value : Value}
    (h : Spells type front value) (rest : List UInt8) :
    fieldWidth type (front ++ rest) = front.length := by
  cases h with
  | boolean b => rfl
  | int32 hwidth => exact hwidth.symm
  | varchar hwidth hcount =>
    rw [fieldWidth, List.append_assoc, List.take_left' hwidth, List.length_append, hwidth, hcount]
  | timestamp hwidth => exact hwidth.symm

/-- A value that was read is written as its field settled. -/
theorem Spells.fieldBytes_eq {type : ColumnType} {bytes : List UInt8} {value : Value}
    (h : Spells type bytes value) : fieldBytes type value = .ok (settleField type bytes) := by
  cases h with
  | boolean b =>
    by_cases hb : b = 0
    · subst hb
      rfl
    · simp [fieldBytes, settleField, hb]
  | int32 hwidth =>
    have hkept : (Int32.ofInt (toInt 4 bytes)).toInt = toInt 4 bytes :=
      Int32.toInt_ofInt_of_le (toInt_range 4 bytes).1 (toInt_range 4 bytes).2
    rw [fieldBytes, hkept, ofInt_toInt hwidth]
    rfl
  | @varchar count s hwidth hcount =>
    have hkept := ofNat_toNat count
    rw [hwidth, hcount] at hkept
    rw [fieldBytes, hkept]
    rfl
  | timestamp hwidth =>
    rw [fieldBytes, Instant.nanoseconds_ofNanoseconds, if_pos (storable_toInt bytes),
      ofInt_toInt hwidth]
    rfl

/-- A settled field stands for the same value. -/
theorem Spells.settle {type : ColumnType} {bytes : List UInt8} {value : Value}
    (h : Spells type bytes value) : Spells type (settleField type bytes) value := by
  cases h with
  | boolean b =>
    by_cases hb : b = 0
    · subst hb
      exact .boolean 0
    · have hsettled : settleField .boolean [b] = [1] := by simp [settleField, hb]
      have hvalue : (b != 0) = ((1 : UInt8) != 0) := by simpa using hb
      rw [hsettled, hvalue]
      exact .boolean 1
  | int32 hwidth => exact .int32 hwidth
  | varchar hwidth hcount => exact .varchar hwidth hcount
  | timestamp hwidth => exact .timestamp hwidth

theorem Spells.fits {type : ColumnType} {bytes : List UInt8} {value : Value}
    (h : Spells type bytes value) : value.fits type = true := by
  cases h <;> rfl

theorem Spells.isNull {type : ColumnType} {bytes : List UInt8} {value : Value}
    (h : Spells type bytes value) : value.isNull = false := by
  cases h <;> rfl

/-- Settling the fields of a row, on their own. -/
theorem settleFields_value {type : ColumnType} {front back : List UInt8} {value : Value}
    (h : Spells type front value) (fields : List (ColumnType × Bool)) :
    settleFields ((type, false) :: fields) (front ++ back) =
      settleField type front ++ settleFields fields back := by
  rw [settleFields, h.fieldWidth_eq, List.take_left, List.drop_left]

/-- What the writer makes of fields that were read, and how it sees them. -/
theorem SpellsFields.fieldsBytes_eq {schema : List ColumnType} {bits : List Bool}
    {bytes : List UInt8} {values : List Value} (hlength : bits.length = schema.length)
    (h : SpellsFields (schema.zip bits) bytes values) :
    values.length = schema.length ∧ values.map Value.isNull = bits ∧
      (∀ field ∈ schema.zip values, field.2.fits field.1 = true) ∧
      fieldsBytes (schema.zip values) = .ok (settleFields (schema.zip bits) bytes) := by
  induction schema generalizing bits bytes values with
  | nil =>
    obtain rfl := List.eq_nil_of_length_eq_zero hlength
    cases h
    refine ⟨rfl, rfl, ?_, rfl⟩
    intro field hfield
    cases hfield
  | cons type schema ih =>
    cases bits with
    | nil => cases hlength
    | cons mark bits =>
      have hlength' : bits.length = schema.length := Nat.succ.inj hlength
      cases h with
      | null hrest =>
        obtain ⟨hcount, hnulls, hfits, hbytes⟩ := ih hlength' hrest
        refine ⟨?_, ?_, ?_, ?_⟩
        · rw [List.length_cons, List.length_cons, hcount]
        · rw [List.map_cons, hnulls]
          rfl
        · intro field hfield
          cases hfield with
          | head => rfl
          | tail _ hfield => exact hfits field hfield
        · rw [List.zip_cons_cons, fieldsBytes, hbytes]
          rfl
      | value hfirst hrest =>
        obtain ⟨hcount, hnulls, hfits, hbytes⟩ := ih hlength' hrest
        refine ⟨?_, ?_, ?_, ?_⟩
        · rw [List.length_cons, List.length_cons, hcount]
        · rw [List.map_cons, hnulls, hfirst.isNull]
        · intro field hfield
          cases hfield with
          | head => exact hfirst.fits
          | tail _ hfield => exact hfits field hfield
        · rw [List.zip_cons_cons, List.zip_cons_cons, fieldsBytes, hfirst.fieldBytes_eq, hbytes,
            settleFields_value hfirst]
          rfl

/-- Settled fields stand for the same values. -/
theorem SpellsFields.settle {fields : List (ColumnType × Bool)} {bytes : List UInt8}
    {values : List Value} (h : SpellsFields fields bytes values) :
    SpellsFields fields (settleFields fields bytes) values := by
  induction h with
  | nil => exact .nil
  | null _ ih => exact .null ih
  | value hfirst _ ih =>
    rw [settleFields_value hfirst]
    exact .value hfirst.settle ih

theorem settleRow_append {schema : List ColumnType} {bits fields : List UInt8}
    (hbits : bits.length = bitmapWidth schema.length) :
    settleRow schema (bits ++ fields) =
      settleBitmap schema.length bits ++
        settleFields (schema.zip (marks schema.length bits)) fields := by
  rw [settleRow, List.take_left' hbits, List.drop_left' hbits]

/-- Values that were read are written as their row settled. -/
theorem SpellsRow.encodeRow_eq {schema : List ColumnType} {bytes : List UInt8}
    {values : List Value} (h : SpellsRow schema bytes values) :
    encodeRow schema values = .ok (settleRow schema bytes) := by
  obtain ⟨bits, fields, rfl, hbits, hfields⟩ := h
  obtain ⟨hcount, hnulls, hfits, hbytes⟩ := hfields.fieldsBytes_eq (length_marks _ _)
  rw [settleRow_append hbits]
  exact encodeRow_eq_ok_iff.2 ⟨hcount, hfits, _, hbytes, by rw [hnulls, bitmap_marks hbits]⟩

/-- A settled row stands for the same values. -/
theorem SpellsRow.settle {schema : List ColumnType} {bytes : List UInt8} {values : List Value}
    (h : SpellsRow schema bytes values) : SpellsRow schema (settleRow schema bytes) values := by
  obtain ⟨bits, fields, rfl, hbits, hfields⟩ := h
  refine ⟨settleBitmap schema.length bits, _, settleRow_append hbits, ?_, ?_⟩
  · rw [length_settleBitmap, hbits]
  · rw [marks_settleBitmap hbits]
    exact hfields.settle

/-- What is consumed is the row that the bytes start with. -/
theorem consumed_append {schema : List ColumnType} {front : List UInt8} {values : List Value}
    (h : SpellsRow schema front values) (rest : List UInt8) :
    consumed schema (front ++ rest) = front := by
  rw [consumed, readRow_eq_ok_iff.2 ⟨front, rfl, h⟩]
  simp

/-- Decoded values are encoded as the row that was consumed, settled, and decode from it again.
What was consumed is a front of the bytes that decodes on its own, and of which no shorter front
does. Other bytes decode to the same values exactly when what is consumed of them settles to the
same row. -/
theorem encodeRow_decodeRow {schema : List ColumnType} {data : List UInt8} {values : List Value}
    (h : decodeRow schema data = .ok values) :
    encodeRow schema values = .ok (settleRow schema (consumed schema data)) ∧
      decodeRow schema (settleRow schema (consumed schema data)) = .ok values ∧
      consumed schema data <+: data ∧
      decodeRow schema (consumed schema data) = .ok values ∧
      (∀ n < (consumed schema data).length,
        ∃ e, decodeRow schema ((consumed schema data).take n) = .error e) ∧
      ∀ others otherValues, decodeRow schema others = .ok otherValues →
        (otherValues = values ↔
          settleRow schema (consumed schema others) = settleRow schema (consumed schema data)) := by
  obtain ⟨front, rest, rfl, hspells⟩ := decodeRow_eq_ok_iff.1 h
  rw [consumed_append hspells]
  refine ⟨hspells.encodeRow_eq, hspells.settle.decodeRow_eq, List.prefix_append front rest,
    hspells.decodeRow_eq, fun n hn => hspells.decodeRow_take hn, ?_⟩
  intro others otherValues hothers
  obtain ⟨otherFront, otherRest, rfl, hother⟩ := decodeRow_eq_ok_iff.1 hothers
  rw [consumed_append hother]
  constructor
  · rintro rfl
    have hencode := hspells.encodeRow_eq
    rw [hother.encodeRow_eq] at hencode
    exact Except.ok.inj hencode
  · intro hsettled
    have hdecode := hspells.settle.decodeRow_eq
    rw [← hsettled, hother.settle.decodeRow_eq] at hdecode
    exact Except.ok.inj hdecode

/-- A row of a Boolean, a NULL and a text, with every bit of the two freedoms set, and two bytes
after it. -/
def sampleRowBytes : List UInt8 := [0xfa, 0xff, 2, 0, 0, 0, 0x68, 0x69, 7, 7]

/-- The sample is read as far as its text goes, and written with the freedoms taken out; the row of
the same values with another true Boolean settles to the same bytes. -/
theorem encodeRow_decodeRow_sampleRowBytes :
    decodeRow [.boolean, .int32, .varchar] sampleRowBytes =
        .ok [.boolean true, .null, .string "hi"] ∧
      consumed [.boolean, .int32, .varchar] sampleRowBytes = sampleRowBytes.take 8 ∧
      encodeRow [.boolean, .int32, .varchar] [.boolean true, .null, .string "hi"] =
        .ok [0x02, 1, 2, 0, 0, 0, 0x68, 0x69] ∧
      (∃ e, decodeRow [.boolean, .int32, .varchar] (sampleRowBytes.take 7) = .error e) ∧
      settleRow [.boolean, .int32, .varchar] [0x02, 9, 2, 0, 0, 0, 0x68, 0x69] =
        settleRow [.boolean, .int32, .varchar] (sampleRowBytes.take 8) := by
  have hdecode : decodeRow [.boolean, .int32, .varchar] sampleRowBytes =
      .ok [.boolean true, .null, .string "hi"] := rfl
  obtain ⟨hencode, -, -, -, hcut, hsame⟩ := encodeRow_decodeRow hdecode
  refine ⟨hdecode, rfl, hencode, hcut 7 (by decide), ?_⟩
  exact (hsame [0x02, 9, 2, 0, 0, 0, 0x68, 0x69] _ rfl).1 rfl

end RowFlags.Stored
