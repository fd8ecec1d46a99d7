import RowFlags.Value.Order

/-!
# Which value comes first

`Value.Precedes` says type by type which of two values comes first, without a word on how they are
compared. It is what comparing finds (`order?_eq_lt_iff`). Values of one type always compare
(`exists_order?_iff`), as the same only if they are (`eq_iff_of_order?`), and the other way round
with the other result (`order?_swap`); so one of two different values of a type precedes the other.

An instant within a leap second precedes the second that follows, although its nanosecond count may
be the greater one.
-/

set_option autoImplicit false

namespace RowFlags

namespace Instant

theorem order_eq_lt_iff {s t : Instant} :
    s.order t = .lt ↔ s.seconds < t.seconds ∨ s.seconds = t.seconds ∧ s.nanos < t.nanos := by
  rw [order, Ordering.then_eq_lt, Int.compare_eq_lt, Int.compare_eq_eq, Nat.compare_eq_lt]

theorem order_eq_eq_iff {s t : Instant} : s.order t = .eq ↔ s = t := by
  rw [order, Ordering.then_eq_eq, Int.compare_eq_eq, Nat.compare_eq_eq]
  cases s
  cases t
  simp

theorem order_swap (s t : Instant) : t.order s = (s.order t).swap := by
  rw [order, order, Ordering.swap_then, Int.compare_swap, Nat.compare_swap]

end Instant

namespace Value

/-- The order within each type: false before true, numbers by size, texts by their bytes, instants
by their seconds and within a second by their nanoseconds. -/
inductive Precedes : Value → Value → Prop
  | boolean : Precedes (.boolean false) (.boolean true)
  | int32 {m n : Int32} (h : m.toInt < n.toInt) : Precedes (.int32 m) (.int32 n)
  | string {s t : String} (h : Text.bytes s < Text.bytes t) : Precedes (.string s) (.string t)
  | timestamp {s t : Instant}
    (h : s.seconds < t.seconds ∨ s.seconds = t.seconds ∧ s.nanos < t.nanos) :
    Precedes (.timestamp s) (.timestamp t)

variable {a b c : Value}

theorem Precedes.trans (hab : a.Precedes b) (hbc : b.Precedes c) : a.Precedes c := by
  cases hab with
  | boolean => cases hbc
  | int32 hab =>
    cases hbc with
    | int32 hbc => exact .int32 (Int.lt_trans hab hbc)
  | string hab =>
    cases hbc with
    | string hbc => exact .string (List.lt_trans hab hbc)
  | timestamp hab =>
    cases hbc with
    | timestamp hbc => exact .timestamp (by omega)

/-- Values compare exactly if they are of one type. -/
theorem exists_order?_iff :
    (∃ o, a.order? b = some o) ↔ ∃ t, a.columnType? = some t ∧ b.columnType? = some t := by
  cases a <;> cases b <;> simp [order?, columnType?]

/-- Compared the other way round, values compare the other way round, if at all. -/
theorem order?_swap (a b : Value) : b.order? a = (a.order? b).map Ordering.swap := by
  cases a with
  | boolean p =>
    cases b with
    | boolean q => exact congrArg some (Nat.compare_swap _ _).symm
    | _ => rfl
  | int32 m =>
    cases b with
    | int32 n => exact congrArg some (Int.compare_swap _ _).symm
    | _ => rfl
  | string s =>
    cases b with
    | string t => exact congrArg some Std.OrientedCmp.eq_swap
    | _ => rfl
  | timestamp s =>
    cases b with
    | timestamp t => exact congrArg some (s.order_swap t)
    | _ => rfl
  | _ => cases b <;> rfl

theorem order?_eq_lt_iff : a.order? b = some .lt ↔ a.Precedes b := by
  constructor
  · intro h
    unfold order? at h
    split at h
    · next p q =>
      cases p <;> cases q <;> first | exact .boolean | cases h
    · exact .int32 (Int.compare_eq_lt.1 (Option.some.inj h))
    · exact .string (Text.order_eq_lt_iff.1 (Option.some.inj h))
    · exact .timestamp (Instant.order_eq_lt_iff.1 (Option.some.inj h))
    · cases h
  · intro h
    cases h with
    | boolean => rfl
    | int32 h => exact congrArg some (Int.compare_eq_lt.2 h)
    | string h => exact congrArg some (Text.order_eq_lt_iff.2 h)
    | timestamp h => exact congrArg some (Instant.order_eq_lt_iff.2 h)

theorem eq_iff_of_order? {o : Ordering} (h : a.order? b = some o) : o = .eq ↔ a = b := by
  unfold order? at h
  split at h <;> cases h
  · next p q => cases p <;> cases q <;> decide
  · next m n => rw [Int.compare_eq_eq, Int32.toInt_inj, int32.injEq]
  · next s t => rw [Std.LawfulEqCmp.compare_eq_iff_eq, string.injEq]
  · next s t => rw [Instant.order_eq_eq_iff, timestamp.injEq]

end Value

end RowFlags
