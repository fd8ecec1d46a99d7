import RowFlags.Stored.Number
import RowFlags.Text.Bytes
import RowFlags.Text.Utf8

/-!
# Snapshots

A snapshot keeps a table's name, the codes of its column types, and its slots, empty ones included.
Every list stands behind its length in eight bytes, and a slot behind a byte that says whether it
is filled. Bytes after the last slot are not looked at.
-/

set_option autoImplicit false

namespace RowFlags.Stored

/-- The lasting form of a table's rows. -/
structure Snapshot where
  tableName : String
  typeCodes : List UInt8
  slots : List (Option (List UInt8))
  deriving DecidableEq

/-- Bytes behind their count. -/
def counted (bytes : List UInt8) : List UInt8 := ofNat 8 bytes.length ++ bytes

/-- A slot: filled or not, and what it is filled with. -/
def slotBytes : Option (List UInt8) → List UInt8
  | none => [0]
  | some row => 1 :: counted row

/-- The bytes of a snapshot. -/
def encodeSnapshot (s : Snapshot) : List UInt8 :=
  counted (Text.bytes s.tableName) ++ counted s.typeCodes ++
    ofNat 8 s.slots.length ++ s.slots.flatMap slotBytes

/-- Counted bytes off the front, and what is left. -/
def readCounted (data : List UInt8) : Option (List UInt8 × List UInt8) := do
  let (count, rest) ← split? 8 data
  split? (toNat count) rest

/-- A slot off the front, and what is left. -/
def readSlot : List UInt8 → Option (Option (List UInt8) × List UInt8)
  | 0 :: rest => some (none, rest)
  | 1 :: rest => do
    let (row, rest) ← readCounted rest
    return (some row, rest)
  | _ => none

/-- That many slots off the front, and what is left. -/
def readSlots : Nat → List UInt8 → Option (List (Option (List UInt8)) × List UInt8)
  | 0, data => some ([], data)
  | count + 1, data => do
    let (slot, rest) ← readSlot data
    let (slots, rest) ← readSlots count rest
    return (slot :: slots, rest)

/-- The snapshot that the bytes start with. -/
def decodeSnapshot (data : List UInt8) : Option Snapshot := do
  let (nameBytes, rest) ← readCounted data
  let tableName ← (Text.decode nameBytes).toOption
  let (typeCodes, rest) ← readCounted rest
  let (count, rest) ← split? 8 rest
  let (slots, _) ← readSlots (toNat count) rest
  return { tableName, typeCodes, slots }

end RowFlags.Stored
