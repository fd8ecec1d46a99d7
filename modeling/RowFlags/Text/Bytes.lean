/-!
# The bytes of a text

Texts are stored as their UTF-8 bytes and ordered by them. The bytes determine
the text (`bytes_inj`), so the byte order is a total order on texts.
-/

set_option autoImplicit false

namespace RowFlags.Text

/-- The UTF-8 bytes of a text. -/
def bytes (s : String) : List UInt8 := s.toByteArray.data.toList

@[simp] theorem bytes_inj {s t : String} : bytes s = bytes t ↔ s = t := by
  constructor
  · intro h
    have hdata : s.toByteArray.data = t.toByteArray.data := Array.toList_inj.1 h
    exact String.toByteArray_inj.1 (ByteArray.ext hdata)
  · rintro rfl
    rfl

/-- A text's bytes are those of its characters, one after the other. -/
theorem bytes_append (s t : String) : bytes (s ++ t) = bytes s ++ bytes t := by
  simp [bytes]

theorem bytes_ofList (cs : List Char) :
    bytes (String.ofList cs) = cs.flatMap String.utf8EncodeChar := by
  simp [bytes, String.toByteArray_ofList, List.utf8Encode]

/-- Texts in the order of their bytes. -/
def order (s t : String) : Ordering := compare (bytes s) (bytes t)

/-- One text comes before another if its bytes do. -/
theorem order_eq_lt_iff {s t : String} : order s t = .lt ↔ bytes s < bytes t := by
  have hlists (as bs : List UInt8) : compare as bs = .lt ↔ as < bs := by
    induction as generalizing bs with
    | nil => cases bs <;> simp
    | cons a as ih =>
      cases bs with
      | nil => simp
      | cons b bs =>
        simp only [List.compare_eq_compareLex] at ih ⊢
        rw [List.compareLex_cons_cons, List.cons_lt_cons_iff, Ordering.then_eq_lt,
          Std.compare_eq_lt, Std.compare_eq_iff_eq, ih]
  exact hlists (bytes s) (bytes t)

instance : Std.TransCmp order where
  eq_swap {s t} :=
    show compare (bytes s) (bytes t) = (compare (bytes t) (bytes s)).swap from
      Std.OrientedCmp.eq_swap
  isLE_trans {s t u} :=
    show (compare (bytes s) (bytes t)).isLE = true → (compare (bytes t) (bytes u)).isLE = true →
      (compare (bytes s) (bytes u)).isLE = true from
      Std.TransCmp.isLE_trans

instance : Std.LawfulEqCmp order where
  compare_self {s} := show compare (bytes s) (bytes s) = .eq from Std.ReflCmp.compare_self
  eq_of_compare h := bytes_inj.1 (Std.LawfulEqCmp.eq_of_compare h)

@[simp] theorem order_self (s : String) : order s s = .eq := Std.ReflCmp.compare_self

end RowFlags.Text
