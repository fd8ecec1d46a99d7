/-!
# Bitmaps

A list of marks packed eight to a byte, the first mark in the lowest bit. The last byte is filled
up with unset bits.
-/

set_option autoImplicit false

namespace RowFlags.Stored

/-- How many bytes hold `count` marks. -/
def bitmapWidth (count : Nat) : Nat := (count + 7) / 8

/-- Up to eight marks as one byte. -/
def packByte (marks : List Bool) : UInt8 :=
  UInt8.ofNat (marks.foldr (fun mark bits => mark.toNat + 2 * bits) 0)

/-- The marks, eight to a byte. -/
def bitmap (marks : List Bool) : List UInt8 :=
  (List.range (bitmapWidth marks.length)).map fun i => packByte ((marks.drop (8 * i)).take 8)

/-- The mark at position `i` of a bitmap. -/
def markAt (bytes : List UInt8) (i : Nat) : Bool := (bytes.getD (i / 8) 0).toNat.testBit (i % 8)

/-- The first `count` marks of a bitmap. -/
def marks (count : Nat) (bytes : List UInt8) : List Bool := (List.range count).map (markAt bytes)

@[simp] theorem length_bitmap (bits : List Bool) :
    (bitmap bits).length = bitmapWidth bits.length := by
  simp [bitmap]

@[simp] theorem length_marks (count : Nat) (bytes : List UInt8) :
    (marks count bytes).length = count := by
  simp [marks]

end RowFlags.Stored
