/-!
# Reading UTF-8

`decode` reads bytes as characters and accepts exactly the well-formed sequences: no overlong
forms, no surrogates, nothing past the last code point. A refusal names the first byte that
starts no character, and how many bytes of a character stand there before the sequence breaks.
-/

set_option autoImplicit false

namespace RowFlags.Text

/-- Why bytes are no text. -/
inductive Utf8Fault where
  /-- The `length` bytes at `index` start a character that no byte after them continues. -/
  | malformed (index length : Nat)
  /-- The bytes end inside the character that starts at `index`. -/
  | truncated (index : Nat)
  deriving DecidableEq

/-- The wording of a fault. -/
def Utf8Fault.message : Utf8Fault → String
  | .malformed index length => s!"invalid utf-8 sequence of {length} bytes from index {index}"
  | .truncated index => s!"incomplete utf-8 byte sequence from index {index}"

/-- A byte that continues a character. -/
def isContinuation (b : UInt8) : Bool := 0x80 ≤ b && b ≤ 0xbf

/-- Whether `b` may stand second in a character of three bytes that starts with `a`. -/
def isSecondOfThree (a b : UInt8) : Bool :=
  (if a = 0xe0 then 0xa0 else 0x80) ≤ b && b ≤ (if a = 0xed then 0x9f else 0xbf)

/-- Whether `b` may stand second in a character of four bytes that starts with `a`. -/
def isSecondOfFour (a b : UInt8) : Bool :=
  (if a = 0xf0 then 0x90 else 0x80) ≤ b && b ≤ (if a = 0xf4 then 0x8f else 0xbf)

/-- The six payload bits of a continuation byte. -/
def payload (b : UInt8) : Nat := b.toNat % 64

/-- Reads all the bytes, the first of which stands at `index`. -/
def decodeFrom (index : Nat) : List UInt8 → Except Utf8Fault (List Char)
  | [] => .ok []
  | a :: rest =>
    if a < 0x80 then
      (Char.ofNat a.toNat :: ·) <$> decodeFrom (index + 1) rest
    else if 0xc2 ≤ a ∧ a ≤ 0xdf then
      match rest with
      | [] => .error (.truncated index)
      | b :: rest =>
        if isContinuation b then
          (Char.ofNat (a.toNat % 32 * 64 + payload b) :: ·) <$> decodeFrom (index + 2) rest
        else .error (.malformed index 1)
    else if 0xe0 ≤ a ∧ a ≤ 0xef then
      match rest with
      | [] => .error (.truncated index)
      | b :: rest =>
        if isSecondOfThree a b then
          match rest with
          | [] => .error (.truncated index)
          | c :: rest =>
            if isContinuation c then
              (Char.ofNat (a.toNat % 16 * 4096 + payload b * 64 + payload c) :: ·) <$>
                decodeFrom (index + 3) rest
            else .error (.malformed index 2)
        else .error (.malformed index 1)
    else if 0xf0 ≤ a ∧ a ≤ 0xf4 then
      match rest with
      | [] => .error (.truncated index)
      | b :: rest =>
        if isSecondOfFour a b then
          match rest with
          | [] => .error (.truncated index)
          | c :: rest =>
            if isContinuation c then
              match rest with
              | [] => .error (.truncated index)
              | d :: rest =>
                if isContinuation d then
                  (Char.ofNat (a.toNat % 8 * 262144 + payload b * 4096 + payload c * 64 + payload d)
                    :: ·) <$> decodeFrom (index + 4) rest
                else .error (.malformed index 3)
            else .error (.malformed index 2)
        else .error (.malformed index 1)
    else .error (.malformed index 1)

/-- The text that the bytes spell. -/
def decode (bytes : List UInt8) : Except Utf8Fault String :=
  String.ofList <$> decodeFrom 0 bytes

end RowFlags.Text
