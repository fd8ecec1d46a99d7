import RowFlags.Stored.Bitmap

/-!
# What a bitmap keeps

A bitmap keeps its marks: reading as many as were written gives them back (`marks_bitmap`). Writing
the marks that were read gives back the bitmap but for the bits past the last mark, which are unset
(`bitmap_marks`). So two bitmaps hold the same marks exactly when they differ in those bits alone.
-/

set_option autoImplicit false

namespace RowFlags.Stored

/-- The number whose binary digits are the marks, the lowest first. -/
def packNat (marks : List Bool) : Nat :=
  marks.foldr (fun mark bits => mark.toNat + 2 * bits) 0

theorem packNat_cons (mark : Bool) (rest : List Bool) :
    packNat (mark :: rest) = mark.toNat + 2 * packNat rest := rfl

theorem packNat_lt (marks : List Bool) : packNat marks < 1 <<< marks.length := by
  induction marks with
  | nil => decide
  | cons mark rest ih =>
    have hmark : mark.toNat ≤ 1 := Bool.toNat_le mark
    rw [packNat_cons, List.length_cons, Nat.shiftLeft_succ]
    omega

theorem testBit_packNat (marks : List Bool) (k : Nat) :
    (packNat marks).testBit k = marks.getD k false := by
  induction marks generalizing k with
  | nil => simp [packNat]
  | cons mark rest ih =>
    have hmark : mark.toNat ≤ 1 := Bool.toNat_le mark
    rw [packNat_cons]
    cases k with
    | zero =>
      have hlow : (mark.toNat + 2 * packNat rest) % 2 = mark.toNat := by omega
      rw [Nat.testBit_zero, hlow]
      cases mark <;> rfl
    | succ k =>
      have hhalf : (mark.toNat + 2 * packNat rest) / 2 = packNat rest := by omega
      rw [Nat.testBit_succ, hhalf, ih]
      rfl

/-- A byte of marks has them as its bits. -/
theorem testBit_packByte {marks : List Bool} (h : marks.length ≤ 8) (k : Nat) :
    (packByte marks).toNat.testBit k = marks.getD k false := by
  have hlt : packNat marks < 256 := by
    have hpow : 2 ^ marks.length ≤ 2 ^ 8 := Nat.pow_le_pow_right (by decide) h
    have hpack := packNat_lt marks
    rw [Nat.one_shiftLeft] at hpack
    exact Nat.lt_of_lt_of_le hpack hpow
  have hbyte : (packByte marks).toNat = packNat marks := UInt8.toNat_ofNat_of_lt' hlt
  rw [hbyte, testBit_packNat]

/-- The marks that go into byte `i` of a bitmap. -/
theorem getD_slice (bits : List Bool) (i : Nat) {k : Nat} (hk : k < 8) :
    ((bits.drop (8 * i)).take 8).getD k false = bits.getD (8 * i + k) false := by
  simp [List.getD_eq_getElem?_getD, List.getElem?_drop, hk]

/-- The marks come back. -/
theorem marks_bitmap (bits : List Bool) : marks bits.length (bitmap bits) = bits := by
  apply List.ext_getElem
  · exact length_marks _ _
  · intro i _ hi
    have hbyte : i / 8 < bitmapWidth bits.length := by
      unfold bitmapWidth
      omega
    have hget : (bitmap bits).getD (i / 8) 0 = packByte ((bits.drop (8 * (i / 8))).take 8) := by
      simp [bitmap, hbyte]
    have hindex : 8 * (i / 8) + i % 8 = i := Nat.div_add_mod i 8
    simp only [marks, List.getElem_map, List.getElem_range, markAt]
    rw [hget, testBit_packByte (List.length_take_le 8 _), getD_slice _ _ (Nat.mod_lt i (by decide)),
      hindex]
    simp [List.getD_eq_getElem?_getD, hi]

/-- A bitmap of `count` marks with the bits past the last mark unset. -/
def settleBitmap (count : Nat) (bits : List UInt8) : List UInt8 :=
  bits.mapIdx fun i b => UInt8.ofNat (b.toNat % 1 <<< (count - 8 * i))

@[simp] theorem length_settleBitmap (count : Nat) (bits : List UInt8) :
    (settleBitmap count bits).length = bits.length := by
  simp [settleBitmap]

/-- Writing the marks of a bitmap settles it. -/
theorem bitmap_marks {count : Nat} {bits : List UInt8} (h : bits.length = bitmapWidth count) :
    bitmap (marks count bits) = settleBitmap count bits := by
  apply List.ext_getElem
  · simp [h]
  · intro i hi _
    have hbits : i < bits.length := by simpa [h] using hi
    have hlow : bits[i].toNat % 1 <<< (count - 8 * i) < 256 :=
      Nat.lt_of_le_of_lt (Nat.mod_le _ _) bits[i].toNat_lt
    simp only [bitmap, settleBitmap, List.getElem_map, List.getElem_range, List.getElem_mapIdx]
    apply UInt8.toNat_inj.1
    rw [UInt8.toNat_ofNat_of_lt' hlow]
    apply Nat.eq_of_testBit_eq
    intro k
    rw [testBit_packByte (List.length_take_le 8 _), Nat.one_shiftLeft, Nat.testBit_mod_two_pow]
    by_cases hk : k < 8
    · have hplace : (8 * i + k) / 8 = i ∧ (8 * i + k) % 8 = k := by omega
      rw [getD_slice _ _ hk]
      by_cases hcount : 8 * i + k < count
      · have hk' : k < count - 8 * i := by omega
        simp [marks, List.getD_eq_getElem?_getD, hcount, hk', markAt, hplace, hbits]
      · have hk' : ¬ k < count - 8 * i := by omega
        simp [marks, List.getD_eq_getElem?_getD, hcount, hk']
    · -- past the byte
      have hpow : 2 ^ 8 ≤ 2 ^ k := Nat.pow_le_pow_right (by decide) (by omega)
      have hslice : (((marks count bits).drop (8 * i)).take 8).length ≤ k :=
        Nat.le_trans (List.length_take_le 8 _) (by omega)
      rw [Nat.testBit_lt_two_pow (Nat.lt_of_lt_of_le bits[i].toNat_lt hpow), Bool.and_false,
        List.getD_eq_getElem?_getD, List.getElem?_eq_none hslice]
      rfl

/-- Settling a bitmap keeps its marks. -/
theorem marks_settleBitmap {count : Nat} {bits : List UInt8} (h : bits.length = bitmapWidth count) :
    marks count (settleBitmap count bits) = marks count bits := by
  have hkept := marks_bitmap (marks count bits)
  rwa [length_marks, bitmap_marks h] at hkept

end RowFlags.Stored
