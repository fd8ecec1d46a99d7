/-!
# Searching a text

`contains haystack needle` finds the needle at any place of the haystack
(`contains_iff`); the empty text occurs everywhere.
-/

set_option autoImplicit false

namespace RowFlags.Text

/-- Whether the needle starts at some place of the characters. -/
def occursIn (needle : List Char) : List Char → Bool
  | [] => needle.isEmpty
  | c :: rest => needle.isPrefixOf (c :: rest) || occursIn needle rest

/-- Whether `needle` occurs in `haystack`. -/
def contains (haystack needle : String) : Bool := occursIn needle.toList haystack.toList

theorem occursIn_iff (needle haystack : List Char) :
    occursIn needle haystack = true ↔ needle <:+: haystack := by
  induction haystack with
  | nil => simp [occursIn]
  | cons c rest ih => simp [occursIn, ih, List.infix_cons_iff]

theorem contains_iff (haystack needle : String) :
    contains haystack needle = true ↔ needle.toList <:+: haystack.toList :=
  occursIn_iff _ _

end RowFlags.Text
