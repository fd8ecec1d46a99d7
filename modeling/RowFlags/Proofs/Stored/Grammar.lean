import RowFlags.Proofs.Outcome
import RowFlags.Proofs.Text.Utf8
import RowFlags.Stored.Row

/-!
# The bytes that are rows

What the reader of rows accepts, as a grammar: `Spells` says which bytes a value of a column may
stand for, `SpellsFields` which bytes the fields of a row, and `SpellsRow` which bytes a whole row
with its bitmap. The reader takes exactly the spelled bytes off the front and leaves what follows
(`readRow_eq_ok_iff`). Facts about rows are proved on the grammar, by its cases, and the offsets of
the reader appear nowhere else.
-/

set_option autoImplicit false

namespace RowFlags.Stored

/-! ## Signed numbers -/

/-- A number within the signed range of its bytes comes back from them. -/
theorem toInt_ofInt {width : Nat} {i : Int} (hlow : -(span width / 2) ≤ i)
    (hhigh : i < (span width + 1) / 2) : toInt width (ofInt width i) = i := by
  have hpos : (0 : Int) < span width := Int.natCast_pos.2 (span_pos width)
  have hnonneg := Int.emod_nonneg i (Int.ne_of_gt hpos)
  have hlt := Int.emod_lt_of_pos i hpos
  have hread : toNat (ofNat width (i % span width).toNat) = (i % span width).toNat :=
    toNat_ofNat (by omega)
  unfold toInt ofInt
  rw [hread, Int.toNat_of_nonneg hnonneg, Int.emod_bmod, Int.bmod_eq_of_le hlow hhigh]

/-- The bytes of a number come back from it. -/
theorem ofInt_toInt {width : Nat} {bytes : List UInt8} (h : bytes.length = width) :
    ofInt width (toInt width bytes) = bytes := by
  subst h
  have hlt := toNat_lt bytes
  have hmod : toInt bytes.length bytes % span bytes.length = toNat bytes := by
    unfold toInt
    rw [Int.bmod_emod, Int.emod_eq_of_lt (Int.natCast_nonneg _) (Int.ofNat_lt.2 hlt)]
  unfold ofInt
  rw [hmod, Int.toNat_natCast, ofNat_toNat]

/-! ## Fields -/

/-- The bytes stand for the value in a column of the type. -/
inductive Spells : ColumnType → List UInt8 → Value → Prop
  | boolean (b : UInt8) : Spells .boolean [b] (.boolean (b != 0))
  | int32 {bytes : List UInt8} (hwidth : bytes.length = 4) :
    Spells .int32 bytes (.int32 (Int32.ofInt (toInt 4 bytes)))
  | varchar {count : List UInt8} {s : String} (hwidth : count.length = 4)
    (hcount : toNat count = (Text.bytes s).length) :
    Spells .varchar (count ++ Text.bytes s) (.string s)
  | timestamp {bytes : List UInt8} (hwidth : bytes.length = 8) :
    Spells .timestamp bytes
      (.timestamp (Instant.ofNanoseconds (toInt 8 bytes) (storable_toInt bytes)))

/-- A field is read off the front exactly when the front spells it. -/
theorem readField_eq_ok_iff {type : ColumnType} {data rest : List UInt8} {value : Value} :
    readField type data = .ok (value, rest) ↔
      ∃ front, data = front ++ rest ∧ Spells type front value := by
  constructor
  · intro h
    unfold readField at h
    cases type with
    | boolean =>
      cases data with
      | nil => cases h
      | cons b data =>
        cases h
        exact ⟨[b], rfl, .boolean b⟩
    | int32 =>
      dsimp only at h
      split at h
      · cases h
      · next bytes tail hsplit =>
        obtain ⟨hwidth, rfl⟩ := split?_eq_some_iff.1 hsplit
        cases h
        exact ⟨bytes, rfl, .int32 hwidth⟩
    | varchar =>
      dsimp only at h
      split at h
      · cases h
      · next count tail hsplit =>
        obtain ⟨hwidth, rfl⟩ := split?_eq_some_iff.1 hsplit
        split at h
        · cases h
        · next bytes tail hsplit =>
          obtain ⟨hcount, rfl⟩ := split?_eq_some_iff.1 hsplit
          split at h
          · cases h
          · next s hdecode =>
            obtain rfl := Text.decode_eq_ok_iff.1 hdecode
            cases h
            exact ⟨count ++ Text.bytes s, (List.append_assoc _ _ _).symm,
              .varchar hwidth hcount.symm⟩
    | timestamp =>
      dsimp only at h
      split at h
      · cases h
      · next bytes tail hsplit =>
        obtain ⟨hwidth, rfl⟩ := split?_eq_some_iff.1 hsplit
        cases h
        exact ⟨bytes, rfl, .timestamp hwidth⟩
  · rintro ⟨front, rfl, hspells⟩
    cases hspells with
    | boolean b => rfl
    | int32 hwidth => simp only [readField, split?_eq_some_iff.2 ⟨hwidth, rfl⟩]
    | varchar hwidth hcount =>
      simp only [readField, List.append_assoc, split?_eq_some_iff.2 ⟨hwidth, rfl⟩,
        split?_eq_some_iff.2 ⟨hcount.symm, rfl⟩, Text.decode_bytes]
    | timestamp hwidth => simp only [readField, split?_eq_some_iff.2 ⟨hwidth, rfl⟩]

/-- The bytes stand for the values of the columns, one after the other; a marked column is NULL and
stands for itself. -/
inductive SpellsFields : List (ColumnType × Bool) → List UInt8 → List Value → Prop
  | nil : SpellsFields [] [] []
  | null {type : ColumnType} {fields : List (ColumnType × Bool)} {bytes : List UInt8}
    {values : List Value} (hrest : SpellsFields fields bytes values) :
    SpellsFields ((type, true) :: fields) bytes (.null :: values)
  | value {type : ColumnType} {fields : List (ColumnType × Bool)} {front back : List UInt8}
    {value : Value} {values : List Value} (hfirst : Spells type front value)
    (hrest : SpellsFields fields back values) :
    SpellsFields ((type, false) :: fields) (front ++ back) (value :: values)

/-- Fields are read off the front exactly when the front spells them. -/
theorem readFields_eq_ok_iff {fields : List (ColumnType × Bool)} {data rest : List UInt8}
    {values : List Value} :
    readFields fields data = .ok (values, rest) ↔
      ∃ front, data = front ++ rest ∧ SpellsFields fields front values := by
  induction fields generalizing data values with
  | nil =>
    constructor
    · intro h
      cases h
      exact ⟨[], rfl, .nil⟩
    · rintro ⟨front, rfl, hspells⟩
      cases hspells
      rfl
  | cons field fields ih =>
    obtain ⟨type, mark⟩ := field
    cases mark with
    | true =>
      constructor
      · intro h
        obtain ⟨⟨tail, left⟩, hread, h⟩ := Outcome.bind_eq_ok_iff.1 h
        cases h
        obtain ⟨front, hdata, hspells⟩ := ih.1 hread
        exact ⟨front, hdata, .null hspells⟩
      · rintro ⟨front, hdata, hspells⟩
        cases hspells with
        | null hrest =>
          rw [readFields, ih.2 ⟨front, hdata, hrest⟩]
          rfl
    | false =>
      constructor
      · intro h
        obtain ⟨⟨value, middle⟩, hfirst, h⟩ := Outcome.bind_eq_ok_iff.1 h
        obtain ⟨⟨tail, left⟩, hread, h⟩ := Outcome.bind_eq_ok_iff.1 h
        cases h
        obtain ⟨front, rfl, hspells⟩ := readField_eq_ok_iff.1 hfirst
        obtain ⟨back, rfl, hrest⟩ := ih.1 hread
        exact ⟨front ++ back, (List.append_assoc _ _ _).symm, .value hspells hrest⟩
      · rintro ⟨_, rfl, hspells⟩
        cases hspells with
        | value hfirst hrest =>
          rw [readFields, List.append_assoc, readField_eq_ok_iff.2 ⟨_, rfl, hfirst⟩]
          simp only [Outcome.ok_bind, ih.2 ⟨_, rfl, hrest⟩]
          rfl

/-! ## Rows -/

/-- The bytes stand for a row of the schema: a bitmap, and the fields that it does not mark. -/
def SpellsRow (schema : List ColumnType) (bytes : List UInt8) (values : List Value) : Prop :=
  ∃ bits fields, bytes = bits ++ fields ∧ bits.length = bitmapWidth schema.length ∧
    SpellsFields (schema.zip (marks schema.length bits)) fields values

/-- A row is read off the front exactly when the front spells it. -/
theorem readRow_eq_ok_iff {schema : List ColumnType} {data rest : List UInt8}
    {values : List Value} :
    readRow schema data = .ok (values, rest) ↔
      ∃ front, data = front ++ rest ∧ SpellsRow schema front values := by
  unfold readRow
  split
  · next hempty =>
    obtain rfl := List.isEmpty_iff.1 hempty
    constructor
    · intro h
      cases h
      exact ⟨[], rfl, [], [], rfl, rfl, .nil⟩
    · rintro ⟨_, rfl, bits, fields, rfl, hbits, hspells⟩
      obtain rfl := List.eq_nil_of_length_eq_zero hbits
      cases hspells
      rfl
  · constructor
    · intro h
      split at h
      · cases h
      · next bits tail hsplit =>
        obtain ⟨hbits, rfl⟩ := split?_eq_some_iff.1 hsplit
        obtain ⟨fields, rfl, hspells⟩ := readFields_eq_ok_iff.1 h
        exact ⟨bits ++ fields, (List.append_assoc _ _ _).symm, bits, fields, rfl, hbits, hspells⟩
    · rintro ⟨_, rfl, bits, fields, rfl, hbits, hspells⟩
      rw [List.append_assoc, split?_eq_some_iff.2 ⟨hbits, rfl⟩]
      exact readFields_eq_ok_iff.2 ⟨fields, rfl, hspells⟩

/-- Bytes that start with a row decode to it. -/
theorem decodeRow_eq_ok_iff {schema : List ColumnType} {data : List UInt8} {values : List Value} :
    decodeRow schema data = .ok values ↔
      ∃ front rest, data = front ++ rest ∧ SpellsRow schema front values := by
  unfold decodeRow
  rw [Outcome.map_eq_ok_iff]
  constructor
  · rintro ⟨⟨read, rest⟩, hread, rfl⟩
    obtain ⟨front, hdata, hspells⟩ := readRow_eq_ok_iff.1 hread
    exact ⟨front, rest, hdata, hspells⟩
  · rintro ⟨front, rest, hdata, hspells⟩
    exact ⟨(values, rest), readRow_eq_ok_iff.2 ⟨front, hdata, hspells⟩, rfl⟩

theorem SpellsFields.length_eq {fields : List (ColumnType × Bool)} {bytes : List UInt8}
    {values : List Value} (h : SpellsFields fields bytes values) :
    values.length = fields.length := by
  induction h with
  | nil => rfl
  | null _ ih => rw [List.length_cons, List.length_cons, ih]
  | value _ _ ih => rw [List.length_cons, List.length_cons, ih]

/-- A field takes less than what a text can have, with its length. -/
theorem Spells.length_lt {type : ColumnType} {bytes : List UInt8} {value : Value}
    (h : Spells type bytes value) : bytes.length < span 4 + 4 := by
  cases h with
  | boolean =>
    rw [List.length_singleton]
    decide
  | int32 hwidth =>
    rw [hwidth]
    decide
  | @varchar count s hwidth hcount =>
    have hrange := toNat_lt count
    rw [hcount, hwidth] at hrange
    rw [List.length_append, hwidth]
    omega
  | timestamp hwidth =>
    rw [hwidth]
    decide

theorem SpellsFields.length_le {fields : List (ColumnType × Bool)} {bytes : List UInt8}
    {values : List Value} (h : SpellsFields fields bytes values) :
    bytes.length ≤ fields.length * (span 4 + 4) := by
  induction h with
  | nil => exact Nat.zero_le _
  | null _ ih => exact Nat.le_trans ih (Nat.mul_le_mul_right _ (Nat.le_succ _))
  | value hfirst _ ih =>
    have hlength := hfirst.length_lt
    rw [List.length_append, List.length_cons, Nat.succ_mul]
    omega

/-- A row takes no more than its columns can, and their bitmap. -/
theorem SpellsRow.length_le {schema : List ColumnType} {bytes : List UInt8} {values : List Value}
    (h : SpellsRow schema bytes values) :
    bytes.length ≤ bitmapWidth schema.length + schema.length * (span 4 + 4) := by
  obtain ⟨bits, fields, rfl, hbits, hspells⟩ := h
  have hfields := hspells.length_le
  rw [List.length_zip, length_marks, Nat.min_self] at hfields
  rw [List.length_append, hbits]
  omega

/-- A row that decodes has a value for every column. -/
theorem length_of_decodeRow {schema : List ColumnType} {data : List UInt8} {values : List Value}
    (h : decodeRow schema data = .ok values) : values.length = schema.length := by
  obtain ⟨_, _, _, bits, _, _, _, hfields⟩ := decodeRow_eq_ok_iff.1 h
  rw [hfields.length_eq, List.length_zip, length_marks, Nat.min_self]

/-- A row on its own decodes to its values. -/
theorem SpellsRow.decodeRow_eq {schema : List ColumnType} {bytes : List UInt8}
    {values : List Value} (h : SpellsRow schema bytes values) :
    decodeRow schema bytes = .ok values :=
  decodeRow_eq_ok_iff.2 ⟨bytes, [], (List.append_nil _).symm, h⟩

/-- No row is part of another one's front. -/
theorem SpellsRow.decodeRow_take {schema : List ColumnType} {bytes : List UInt8}
    {values : List Value} (h : SpellsRow schema bytes values) {n : Nat} (hn : n < bytes.length) :
    ∃ e, decodeRow schema (bytes.take n) = .error e := by
  cases hdecode : decodeRow schema (bytes.take n) with
  | error e => exact ⟨e, rfl⟩
  | ok others =>
    -- the row that the shorter front holds would be read off the whole, and leave the cut-off bytes
    obtain ⟨front, rest, htake, hspells⟩ := decodeRow_eq_ok_iff.1 hdecode
    have hshort : readRow schema bytes = .ok (others, rest ++ bytes.drop n) :=
      readRow_eq_ok_iff.2
        ⟨front, by rw [← List.append_assoc, ← htake, List.take_append_drop], hspells⟩
    have hwhole : readRow schema bytes = .ok (values, []) :=
      readRow_eq_ok_iff.2 ⟨bytes, (List.append_nil _).symm, h⟩
    rw [hwhole] at hshort
    simp only [Except.ok.injEq, Prod.mk.injEq] at hshort
    have hnone : bytes.drop n = [] := (List.append_eq_nil_iff.1 hshort.2.symm).2
    rw [List.drop_eq_nil_iff] at hnone
    omega

end RowFlags.Stored
