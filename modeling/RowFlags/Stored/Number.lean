/-!
# Numbers as bytes

Numbers are stored in a fixed count of bytes, the least significant first. Reading gives back what
was written as far as the bytes can hold it (`toNat_ofNat`), and writing gives back what was read
(`ofNat_toNat`).
-/

set_option autoImplicit false

namespace RowFlags.Stored

/-- The last `width` base-256 digits of a number, the least significant first. -/
def ofNat : Nat → Nat → List UInt8
  | 0, _ => []
  | width + 1, n => UInt8.ofNat n :: ofNat width (n / 256)

/-- The number whose base-256 digits these are, the least significant first. -/
def toNat : List UInt8 → Nat
  | [] => 0
  | b :: rest => b.toNat + 256 * toNat rest

/-- How many numbers `width` bytes tell apart. -/
def span : Nat → Nat
  | 0 => 1
  | width + 1 => 256 * span width

/-- A signed number in `width` bytes: its residue modulo their span. -/
def ofInt (width : Nat) (i : Int) : List UInt8 := ofNat width (i % span width).toNat

/-- The signed number of least size with that residue. -/
def toInt (width : Nat) (bytes : List UInt8) : Int := (toNat bytes : Int).bmod (span width)

/-- The first `count` bytes and the rest, if there are that many. -/
def split? (count : Nat) (bytes : List UInt8) : Option (List UInt8 × List UInt8) :=
  let front := bytes.take count
  if front.length = count then some (front, bytes.drop count) else none

@[simp] theorem length_ofNat (width n : Nat) : (ofNat width n).length = width := by
  induction width generalizing n with
  | zero => rfl
  | succ width ih => simp [ofNat, ih]

theorem span_pos (width : Nat) : 0 < span width := by
  induction width with
  | zero => exact Nat.one_pos
  | succ width ih =>
    rw [span]
    omega

theorem toNat_ofNat {width n : Nat} (h : n < span width) : toNat (ofNat width n) = n := by
  induction width generalizing n with
  | zero => exact (Nat.lt_one_iff.1 h).symm
  | succ width ih =>
    have hdiv : n / 256 < span width := by
      rw [span] at h
      omega
    simp only [ofNat, toNat, ih hdiv, UInt8.toNat_ofNat']
    omega

theorem toNat_lt (bytes : List UInt8) : toNat bytes < span bytes.length := by
  induction bytes with
  | nil => exact Nat.one_pos
  | cons b rest ih =>
    have hb := b.toNat_lt
    simp only [toNat, List.length_cons, span]
    omega

theorem ofNat_toNat (bytes : List UInt8) : ofNat bytes.length (toNat bytes) = bytes := by
  induction bytes with
  | nil => rfl
  | cons b rest ih =>
    have hb := b.toNat_lt
    simp only [toNat, List.length_cons, ofNat]
    rw [show (b.toNat + 256 * toNat rest) / 256 = toNat rest by omega, ih]
    congr 1
    apply UInt8.toNat_inj.1
    simp only [UInt8.toNat_ofNat']
    omega

/-- A signed number is within the signed range of its bytes. -/
theorem toInt_range (width : Nat) (bytes : List UInt8) :
    -(span width / 2) ≤ toInt width bytes ∧ toInt width bytes < (span width + 1) / 2 :=
  ⟨Int.le_bmod (span_pos width), Int.bmod_lt (span_pos width)⟩

theorem split?_eq_some_iff {count : Nat} {bytes front rest : List UInt8} :
    split? count bytes = some (front, rest) ↔ front.length = count ∧ bytes = front ++ rest := by
  unfold split?
  constructor
  · intro h
    dsimp only at h
    split at h
    · next hlength =>
      simp only [Option.some.injEq, Prod.mk.injEq] at h
      obtain ⟨rfl, rfl⟩ := h
      exact ⟨hlength, (List.take_append_drop count bytes).symm⟩
    · cases h
  · rintro ⟨rfl, rfl⟩
    simp

end RowFlags.Stored
