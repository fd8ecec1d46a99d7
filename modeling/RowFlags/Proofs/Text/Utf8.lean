import RowFlags.Proofs.Outcome
import RowFlags.Text.Bytes
import RowFlags.Text.Utf8

/-!
# Reading gives back the text

Bytes read as characters only when they are the characters' own encoding, and every encoding reads
as the characters it was made from. So `decode` accepts exactly the bytes of texts and gives the
text that they are the bytes of (`decode_eq_ok_iff`). The ranges that the reader puts on the second
byte of a character are what makes the first half true: they leave out the overlong forms and the
surrogates, which no character is encoded as.
-/

set_option autoImplicit false

namespace RowFlags.Text

/-! ## The ranges of the reader -/

theorem isContinuation_iff {b : UInt8} :
    isContinuation b = true ↔ 0x80 ≤ b.toNat ∧ b.toNat ≤ 0xbf := by
  simp [isContinuation, UInt8.le_iff_toNat_le]

theorem isSecondOfThree_iff {a b : UInt8} :
    isSecondOfThree a b = true ↔
      0x80 ≤ b.toNat ∧ b.toNat ≤ 0xbf ∧ (a.toNat = 0xe0 → 0xa0 ≤ b.toNat) ∧
        (a.toNat = 0xed → b.toNat ≤ 0x9f) := by
  simp only [isSecondOfThree, Bool.and_eq_true, decide_eq_true_eq, UInt8.le_iff_toNat_le,
    ← UInt8.toNat_inj]
  split <;> split <;> simp_all <;> omega

theorem isSecondOfFour_iff {a b : UInt8} :
    isSecondOfFour a b = true ↔
      0x80 ≤ b.toNat ∧ b.toNat ≤ 0xbf ∧ (a.toNat = 0xf0 → 0x90 ≤ b.toNat) ∧
        (a.toNat = 0xf4 → b.toNat ≤ 0x8f) := by
  simp only [isSecondOfFour, Bool.and_eq_true, decide_eq_true_eq, UInt8.le_iff_toNat_le,
    ← UInt8.toNat_inj]
  split <;> split <;> simp_all <;> omega

/-- Whether `a` may start a character of two, three or four bytes. -/
theorem between_iff {low high a : UInt8} :
    (low ≤ a ∧ a ≤ high) ↔ low.toNat ≤ a.toNat ∧ a.toNat ≤ high.toNat := by
  simp [UInt8.le_iff_toNat_le]

/-! ## What is read is the encoding -/

/-- The encoding of the character with a given code point. -/
theorem utf8EncodeChar_ofNat {n : Nat} (h : n.isValidChar) :
    String.utf8EncodeChar (Char.ofNat n) =
      if n ≤ 0x7f then [UInt8.ofNat n]
      else if n ≤ 0x7ff then [UInt8.ofNat (n / 64 % 0x20 + 0xc0), UInt8.ofNat (n % 0x40 + 0x80)]
      else if n ≤ 0xffff then
        [UInt8.ofNat (n / 4096 % 0x10 + 0xe0), UInt8.ofNat (n / 64 % 0x40 + 0x80),
          UInt8.ofNat (n % 0x40 + 0x80)]
      else
        [UInt8.ofNat (n / 262144 % 0x08 + 0xf0), UInt8.ofNat (n / 4096 % 0x40 + 0x80),
          UInt8.ofNat (n / 64 % 0x40 + 0x80), UInt8.ofNat (n % 0x40 + 0x80)] := by
  have hcode : (Char.ofNat n).val.toNat = n := by
    rw [Char.ofNat, dif_pos h]
    rfl
  simp only [String.utf8EncodeChar, hcode]

theorem ofNat_eq_of_toNat {n : Nat} {b : UInt8} (h : n = b.toNat) : UInt8.ofNat n = b := by
  rw [h, UInt8.ofNat_toNat]

theorem utf8EncodeChar_one {a : UInt8} (ha : a < 0x80) :
    String.utf8EncodeChar (Char.ofNat a.toNat) = [a] := by
  have hlt : a.toNat < 0x80 := UInt8.lt_iff_toNat_lt.1 ha
  rw [utf8EncodeChar_ofNat (Or.inl (by omega)), if_pos (by omega), UInt8.ofNat_toNat]

theorem utf8EncodeChar_two {a b : UInt8} (ha : 0xc2 ≤ a ∧ a ≤ 0xdf) (hb : isContinuation b) :
    String.utf8EncodeChar (Char.ofNat (a.toNat % 32 * 64 + payload b)) = [a, b] := by
  obtain ⟨hlow, hhigh⟩ : 0xc2 ≤ a.toNat ∧ a.toNat ≤ 0xdf := between_iff.1 ha
  obtain ⟨hblow, hbhigh⟩ := isContinuation_iff.1 hb
  unfold payload
  rw [utf8EncodeChar_ofNat (Or.inl (by omega)), if_neg (by omega), if_pos (by omega),
    ofNat_eq_of_toNat (b := a) (by omega), ofNat_eq_of_toNat (b := b) (by omega)]

theorem utf8EncodeChar_three {a b c : UInt8} (ha : 0xe0 ≤ a ∧ a ≤ 0xef)
    (hb : isSecondOfThree a b) (hc : isContinuation c) :
    String.utf8EncodeChar
      (Char.ofNat (a.toNat % 16 * 4096 + payload b * 64 + payload c)) = [a, b, c] := by
  obtain ⟨hlow, hhigh⟩ : 0xe0 ≤ a.toNat ∧ a.toNat ≤ 0xef := between_iff.1 ha
  obtain ⟨hblow, hbhigh, hoverlong, hsurrogate⟩ := isSecondOfThree_iff.1 hb
  obtain ⟨hclow, hchigh⟩ := isContinuation_iff.1 hc
  have hvalid : (a.toNat % 16 * 4096 + b.toNat % 64 * 64 + c.toNat % 64).isValidChar := by
    unfold Nat.isValidChar
    omega
  unfold payload
  rw [utf8EncodeChar_ofNat hvalid, if_neg (by omega), if_neg (by omega), if_pos (by omega),
    ofNat_eq_of_toNat (b := a) (by omega), ofNat_eq_of_toNat (b := b) (by omega),
    ofNat_eq_of_toNat (b := c) (by omega)]

theorem utf8EncodeChar_four {a b c d : UInt8} (ha : 0xf0 ≤ a ∧ a ≤ 0xf4)
    (hb : isSecondOfFour a b) (hc : isContinuation c) (hd : isContinuation d) :
    String.utf8EncodeChar (Char.ofNat
      (a.toNat % 8 * 262144 + payload b * 4096 + payload c * 64 + payload d)) = [a, b, c, d] := by
  obtain ⟨hlow, hhigh⟩ : 0xf0 ≤ a.toNat ∧ a.toNat ≤ 0xf4 := between_iff.1 ha
  obtain ⟨hblow, hbhigh, hoverlong, hlast⟩ := isSecondOfFour_iff.1 hb
  obtain ⟨hclow, hchigh⟩ := isContinuation_iff.1 hc
  obtain ⟨hdlow, hdhigh⟩ := isContinuation_iff.1 hd
  have hvalid : (a.toNat % 8 * 262144 + b.toNat % 64 * 4096 + c.toNat % 64 * 64 +
      d.toNat % 64).isValidChar := by
    unfold Nat.isValidChar
    omega
  unfold payload
  rw [utf8EncodeChar_ofNat hvalid, if_neg (by omega), if_neg (by omega), if_neg (by omega),
    ofNat_eq_of_toNat (b := a) (by omega), ofNat_eq_of_toNat (b := b) (by omega),
    ofNat_eq_of_toNat (b := c) (by omega), ofNat_eq_of_toNat (b := d) (by omega)]

/-- Bytes that read as characters are the characters' encoding. -/
theorem flatMap_utf8EncodeChar_of_decodeFrom {index : Nat} {data : List UInt8} {cs : List Char}
    (h : decodeFrom index data = .ok cs) : cs.flatMap String.utf8EncodeChar = data := by
  fun_induction decodeFrom index data generalizing cs with
  | case1 =>
    cases h
    rfl
  | case2 index a rest ha ih =>
    obtain ⟨tail, htail, rfl⟩ := Outcome.map_eq_ok_iff.1 h
    rw [List.flatMap_cons, utf8EncodeChar_one ha, ih htail]
    rfl
  | case4 index a hascii ha b rest hb ih =>
    obtain ⟨tail, htail, rfl⟩ := Outcome.map_eq_ok_iff.1 h
    rw [List.flatMap_cons, utf8EncodeChar_two ha hb, ih htail]
    rfl
  | case8 index a hascii htwo ha b hb c rest hc ih =>
    obtain ⟨tail, htail, rfl⟩ := Outcome.map_eq_ok_iff.1 h
    rw [List.flatMap_cons, utf8EncodeChar_three ha hb hc, ih htail]
    rfl
  | case14 index a hascii htwo hthree ha b hb c hc d rest hd ih =>
    obtain ⟨tail, htail, rfl⟩ := Outcome.map_eq_ok_iff.1 h
    rw [List.flatMap_cons, utf8EncodeChar_four ha hb hc hd, ih htail]
    rfl
  -- every other branch refuses
  | _ => cases h

/-! ## The encoding is read -/

theorem not_ascii_of_le {low a : UInt8} (hlow : 0x80 ≤ low) (ha : low ≤ a) : ¬ a < 0x80 :=
  UInt8.not_lt.2 (UInt8.le_trans hlow ha)

theorem not_between_of_lt {low high start a : UInt8} (hstart : high < start) (ha : start ≤ a) :
    ¬ (low ≤ a ∧ a ≤ high) :=
  fun h => absurd (UInt8.le_trans ha h.2) (UInt8.not_le.2 hstart)

theorem decodeFrom_one {a : UInt8} (ha : a < 0x80) (index : Nat) (rest : List UInt8) :
    decodeFrom index (a :: rest) = (Char.ofNat a.toNat :: ·) <$> decodeFrom (index + 1) rest := by
  rw [decodeFrom.eq_def]
  simp only [if_pos ha]

theorem decodeFrom_two {a b : UInt8} (ha : 0xc2 ≤ a ∧ a ≤ 0xdf) (hb : isContinuation b)
    (index : Nat) (rest : List UInt8) :
    decodeFrom index (a :: b :: rest) =
      (Char.ofNat (a.toNat % 32 * 64 + payload b) :: ·) <$> decodeFrom (index + 2) rest := by
  have hone : ¬ a < 0x80 := not_ascii_of_le (by decide) ha.1
  rw [decodeFrom.eq_def]
  simp only [if_neg hone, if_pos ha, if_pos hb]

theorem decodeFrom_three {a b c : UInt8} (ha : 0xe0 ≤ a ∧ a ≤ 0xef) (hb : isSecondOfThree a b)
    (hc : isContinuation c) (index : Nat) (rest : List UInt8) :
    decodeFrom index (a :: b :: c :: rest) =
      (Char.ofNat (a.toNat % 16 * 4096 + payload b * 64 + payload c) :: ·) <$>
        decodeFrom (index + 3) rest := by
  have hone : ¬ a < 0x80 := not_ascii_of_le (by decide) ha.1
  have htwo : ¬ (0xc2 ≤ a ∧ a ≤ 0xdf) := not_between_of_lt (by decide) ha.1
  rw [decodeFrom.eq_def]
  simp only [if_neg hone, if_neg htwo, if_pos ha, if_pos hb, if_pos hc]

theorem decodeFrom_four {a b c d : UInt8} (ha : 0xf0 ≤ a ∧ a ≤ 0xf4) (hb : isSecondOfFour a b)
    (hc : isContinuation c) (hd : isContinuation d) (index : Nat) (rest : List UInt8) :
    decodeFrom index (a :: b :: c :: d :: rest) =
      (Char.ofNat (a.toNat % 8 * 262144 + payload b * 4096 + payload c * 64 + payload d) :: ·) <$>
        decodeFrom (index + 4) rest := by
  have hone : ¬ a < 0x80 := not_ascii_of_le (by decide) ha.1
  have htwo : ¬ (0xc2 ≤ a ∧ a ≤ 0xdf) := not_between_of_lt (by decide) ha.1
  have hthree : ¬ (0xe0 ≤ a ∧ a ≤ 0xef) := not_between_of_lt (by decide) ha.1
  rw [decodeFrom.eq_def]
  simp only [if_neg hone, if_neg htwo, if_neg hthree, if_pos ha, if_pos hb, if_pos hc,
    if_pos hd]

theorem toNat_ofNat_of_lt {k : Nat} (hk : k < 256) : (UInt8.ofNat k).toNat = k :=
  UInt8.toNat_ofNat_of_lt' hk

theorem isContinuation_ofNat (k : Nat) : isContinuation (UInt8.ofNat (k % 0x40 + 0x80)) = true := by
  rw [isContinuation_iff, toNat_ofNat_of_lt (by omega)]
  omega

theorem payload_ofNat (k : Nat) : payload (UInt8.ofNat (k % 0x40 + 0x80)) = k % 0x40 := by
  unfold payload
  rw [toNat_ofNat_of_lt (by omega)]
  omega

/-- Whether a number is the first byte of a character of a given length. -/
theorem ofNat_between {low high : UInt8} {k : Nat} (hlow : low.toNat ≤ k) (hhigh : k ≤ high.toNat) :
    low ≤ UInt8.ofNat k ∧ UInt8.ofNat k ≤ high := by
  have hlt := high.toNat_lt
  rw [between_iff, toNat_ofNat_of_lt (by omega)]
  exact ⟨hlow, hhigh⟩

/-- The encoding of a character off the front. -/
theorem decodeFrom_utf8EncodeChar (c : Char) (index : Nat) (rest : List UInt8) :
    decodeFrom index (String.utf8EncodeChar c ++ rest) =
      (c :: ·) <$> decodeFrom (index + (String.utf8EncodeChar c).length) rest := by
  have hvalid : c.toNat.isValidChar := c.valid
  obtain ⟨n, hn⟩ : ∃ n, n = c.toNat := ⟨_, rfl⟩
  rw [← hn] at hvalid
  have hrange : n < 0xd800 ∨ 0xdfff < n ∧ n < 0x110000 := hvalid
  rw [← Char.ofNat_toNat c, ← hn, utf8EncodeChar_ofNat hvalid]
  by_cases hone : n ≤ 0x7f
  · have ha : UInt8.ofNat n < 0x80 := by
      rw [UInt8.lt_iff_toNat_lt, toNat_ofNat_of_lt (by omega)]
      exact Nat.lt_succ_of_le hone
    rw [if_pos hone, List.cons_append, List.nil_append, decodeFrom_one ha,
      toNat_ofNat_of_lt (by omega)]
    rfl
  rw [if_neg hone]
  by_cases htwo : n ≤ 0x7ff
  · have ha : (0xc2 : UInt8) ≤ UInt8.ofNat (n / 64 % 0x20 + 0xc0) ∧
        UInt8.ofNat (n / 64 % 0x20 + 0xc0) ≤ 0xdf :=
      ofNat_between (show 0xc2 ≤ _ by omega) (show _ ≤ 0xdf by omega)
    have hcode : (n / 64 % 0x20 + 0xc0) % 32 * 64 + n % 0x40 = n := by omega
    rw [if_pos htwo, List.cons_append, List.cons_append, List.nil_append,
      decodeFrom_two ha (isContinuation_ofNat n), payload_ofNat, toNat_ofNat_of_lt (by omega),
      hcode]
    rfl
  rw [if_neg htwo]
  by_cases hthree : n ≤ 0xffff
  · have ha : (0xe0 : UInt8) ≤ UInt8.ofNat (n / 4096 % 0x10 + 0xe0) ∧
        UInt8.ofNat (n / 4096 % 0x10 + 0xe0) ≤ 0xef :=
      ofNat_between (show 0xe0 ≤ _ by omega) (show _ ≤ 0xef by omega)
    have hb : isSecondOfThree (UInt8.ofNat (n / 4096 % 0x10 + 0xe0))
        (UInt8.ofNat (n / 64 % 0x40 + 0x80)) = true := by
      rw [isSecondOfThree_iff, toNat_ofNat_of_lt (by omega), toNat_ofNat_of_lt (by omega)]
      omega
    have hcode : (n / 4096 % 0x10 + 0xe0) % 16 * 4096 + n / 64 % 0x40 * 64 + n % 0x40 = n := by
      omega
    rw [if_pos hthree, List.cons_append, List.cons_append, List.cons_append, List.nil_append,
      decodeFrom_three ha hb (isContinuation_ofNat n), payload_ofNat, payload_ofNat,
      toNat_ofNat_of_lt (by omega), hcode]
    rfl
  · have ha : (0xf0 : UInt8) ≤ UInt8.ofNat (n / 262144 % 0x08 + 0xf0) ∧
        UInt8.ofNat (n / 262144 % 0x08 + 0xf0) ≤ 0xf4 :=
      ofNat_between (show 0xf0 ≤ _ by omega) (show _ ≤ 0xf4 by omega)
    have hb : isSecondOfFour (UInt8.ofNat (n / 262144 % 0x08 + 0xf0))
        (UInt8.ofNat (n / 4096 % 0x40 + 0x80)) = true := by
      rw [isSecondOfFour_iff, toNat_ofNat_of_lt (by omega), toNat_ofNat_of_lt (by omega)]
      omega
    have hcode : (n / 262144 % 0x08 + 0xf0) % 8 * 262144 + n / 4096 % 0x40 * 4096 +
        n / 64 % 0x40 * 64 + n % 0x40 = n := by
      omega
    rw [if_neg hthree, List.cons_append, List.cons_append, List.cons_append, List.cons_append,
      List.nil_append, decodeFrom_four ha hb (isContinuation_ofNat _) (isContinuation_ofNat n),
      payload_ofNat, payload_ofNat, payload_ofNat, toNat_ofNat_of_lt (by omega), hcode]
    rfl

/-- The encoding of characters reads as them. -/
theorem decodeFrom_flatMap (cs : List Char) (index : Nat) :
    decodeFrom index (cs.flatMap String.utf8EncodeChar) = .ok cs := by
  induction cs generalizing index with
  | nil => rfl
  | cons c rest ih =>
    rw [List.flatMap_cons, decodeFrom_utf8EncodeChar, ih]
    rfl

/-- Bytes read as a text exactly when they are the text's. -/
theorem decode_eq_ok_iff {data : List UInt8} {s : String} :
    decode data = .ok s ↔ bytes s = data := by
  unfold decode
  rw [Outcome.map_eq_ok_iff]
  constructor
  · rintro ⟨cs, hcs, rfl⟩
    rw [bytes_ofList, flatMap_utf8EncodeChar_of_decodeFrom hcs]
  · rintro rfl
    refine ⟨s.toList, ?_, String.ofList_toList⟩
    rw [← String.ofList_toList (s := s), bytes_ofList, String.toList_ofList]
    exact decodeFrom_flatMap s.toList 0

@[simp] theorem decode_bytes (s : String) : decode (bytes s) = .ok s := decode_eq_ok_iff.2 rfl

end RowFlags.Text
