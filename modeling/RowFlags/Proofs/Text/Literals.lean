import RowFlags.Value.Literal

/-!
# Literals in a text

The quoting rule of SQL, as a reader from left to right: a quote opens a literal, inside of it two
quotes stand for one, and a lone quote closes it. `scan` takes a text apart by this rule, and fails
if the text ends inside a literal.

What a text reads as can depend on what follows it, since a quote behind a literal would go on with
the literal. So a text is said to quote some literals (`Quotes`) if it reads as these before
everything that does not start with a quote. Texts with a separator between them quote what they
quote one after the other (`Quotes.join`).
-/

set_option autoImplicit false

namespace RowFlags.Text

/-- A part of a text under the quoting rule. -/
inductive Piece where
  /-- A character outside of literals. -/
  | bare (c : Char)
  | literal (s : String)
  deriving DecidableEq

/-- The literal, if the piece is one. -/
def Piece.literal? : Piece → Option String
  | .bare _ => none
  | .literal s => some s

/-- The pieces of what is left of a text. If a literal is open, its characters so far are given. -/
def scan : Option (List Char) → List Char → Option (List Piece)
  | none, [] => some []
  | none, '\'' :: rest => scan (some []) rest
  | none, c :: rest => (Piece.bare c :: ·) <$> scan none rest
  | some _, [] => none
  | some front, '\'' :: '\'' :: rest => scan (some (front ++ ['\''])) rest
  | some front, '\'' :: rest => (Piece.literal (String.ofList front) :: ·) <$> scan none rest
  | some front, c :: rest => scan (some (front ++ [c])) rest

/-- The literals of a text in order, if it ends outside of them. -/
def literals? (text : String) : Option (List String) :=
  (scan none text.toList).map (·.filterMap Piece.literal?)

/-- The text holds no single quote. -/
def Unquoted (s : String) : Prop := '\'' ∉ s.toList

instance : DecidablePred Unquoted := fun s => by
  unfold Unquoted
  infer_instance

theorem Unquoted.append {s t : String} (hs : Unquoted s) (ht : Unquoted t) : Unquoted (s ++ t) := by
  unfold Unquoted at *
  rw [String.toList_append, List.mem_append, not_or]
  exact ⟨hs, ht⟩

theorem scan_bare {c : Char} (h : c ≠ '\'') (rest : List Char) :
    scan none (c :: rest) = (Piece.bare c :: ·) <$> scan none rest := by
  rw [scan]
  exact fun heq => h heq

/-- A text without quotes reads as its characters. -/
theorem scan_bare_append {text : List Char} (h : '\'' ∉ text) (rest : List Char) :
    scan none (text ++ rest) = (text.map Piece.bare ++ ·) <$> scan none rest := by
  induction text with
  | nil => simp
  | cons c text ih =>
    rw [List.mem_cons, not_or] at h
    rw [List.cons_append, scan_bare (Ne.symm h.1), ih h.2]
    simp [Function.comp_def]

/-- A quote of the text is written twice. -/
def doubled (text : List Char) : List Char :=
  text.flatMap fun c => if c = '\'' then ['\'', '\''] else [c]

theorem doubled_eq_self {text : List Char} (h : '\'' ∉ text) : doubled text = text := by
  induction text with
  | nil => rfl
  | cons c text ih =>
    rw [List.mem_cons, not_or] at h
    have hrest := ih h.2
    unfold doubled at hrest ⊢
    rw [List.flatMap_cons, if_neg (Ne.symm h.1), hrest, List.singleton_append]

/-- Inside a literal the doubled quotes are read as the quotes they stand for, and the next lone
quote closes the literal. -/
theorem scan_doubled (front text : List Char) {rest : List Char} (h : rest.head? ≠ some '\'') :
    scan (some front) (doubled text ++ '\'' :: rest) =
      (Piece.literal (String.ofList (front ++ text)) :: ·) <$> scan none rest := by
  induction text generalizing front with
  | nil =>
    rw [doubled, List.flatMap_nil, List.nil_append, List.append_nil, scan]
    rintro tail rfl
    exact h rfl
  | cons c text ih =>
    have hsplit : doubled (c :: text) = (if c = '\'' then ['\'', '\''] else [c]) ++ doubled text :=
      List.flatMap_cons
    rw [hsplit]
    by_cases hc : c = '\''
    · subst hc
      rw [if_pos rfl, List.append_assoc, List.cons_append, List.singleton_append, scan, ih,
        List.append_assoc, List.singleton_append]
    · have hcons : scan (some front) (c :: (doubled text ++ '\'' :: rest)) =
          scan (some (front ++ [c])) (doubled text ++ '\'' :: rest) := by
        rw [scan]
        · exact fun tail heq _ => hc heq
        · exact fun heq => hc heq
      rw [if_neg hc, List.singleton_append, List.cons_append, hcons, ih, List.append_assoc,
        List.singleton_append]

/-! ## What a text quotes -/

/-- The text reads as pieces with these literals, before everything that does not start with a
quote. -/
def Quotes (text : String) (literals : List String) : Prop :=
  ∃ pieces, pieces.filterMap Piece.literal? = literals ∧
    ∀ rest : List Char, rest.head? ≠ some '\'' →
      scan none (text.toList ++ rest) = (pieces ++ ·) <$> scan none rest

namespace Quotes

variable {text later separator : String} {literals others : List String}

theorem literals?_eq (h : Quotes text literals) : literals? text = some literals := by
  obtain ⟨pieces, rfl, hread⟩ := h
  have hwhole := hread [] (by simp)
  rw [List.append_nil] at hwhole
  rw [literals?, hwhole]
  simp [scan]

/-- What has no quotes quotes nothing, and nothing changes behind it. -/
theorem bare_append (h : Unquoted text) (hlater : Quotes later others) :
    Quotes (text ++ later) others := by
  obtain ⟨pieces, rfl, hread⟩ := hlater
  refine ⟨text.toList.map Piece.bare ++ pieces, ?_, ?_⟩
  · simp [List.filterMap_map, Function.comp_def, Piece.literal?]
  · intro rest hrest
    rw [String.toList_append, List.append_assoc, scan_bare_append h, hread rest hrest]
    simp [Function.comp_def]

theorem empty : Quotes "" [] := ⟨[], rfl, fun rest _ => by simp⟩

theorem bare (h : Unquoted text) : Quotes text [] := by
  simpa using empty.bare_append h

/-- Two texts with a separator between them quote what they quote, one after the other. -/
theorem join (h : Quotes text literals) (hbare : Unquoted separator) (hne : separator ≠ "")
    (hlater : Quotes later others) :
    Quotes (text ++ separator ++ later) (literals ++ others) := by
  obtain ⟨pieces, rfl, hread⟩ := h
  obtain ⟨tail, rfl, htail⟩ := hlater.bare_append hbare
  refine ⟨pieces ++ tail, List.filterMap_append, ?_⟩
  intro rest hrest
  have hnext : ((separator ++ later).toList ++ rest).head? ≠ some '\'' := by
    obtain ⟨c, cs, hseparator⟩ := List.exists_cons_of_ne_nil (mt String.toList_eq_nil_iff.1 hne)
    unfold Unquoted at hbare
    rw [hseparator] at hbare
    rw [String.toList_append, hseparator]
    rintro ⟨⟩
    exact hbare List.mem_cons_self
  rw [String.append_assoc, String.toList_append, List.append_assoc, hread _ hnext, htail rest hrest]
  simp [Function.comp_def]

theorem append_bare (h : Quotes text literals) (hbare : Unquoted separator) (hne : separator ≠ "") :
    Quotes (text ++ separator) literals := by
  simpa using h.join hbare hne empty

/-- Texts with separators between them quote what they quote, one after the other. -/
theorem intercalate {α : Type} (hbare : Unquoted separator) (hne : separator ≠ "")
    {items : List α} {write : α → String} {texts : α → List String}
    (h : ∀ item ∈ items, Quotes (write item) (texts item)) :
    Quotes (separator.intercalate (items.map write)) (items.flatMap texts) := by
  induction items with
  | nil => exact empty
  | cons item rest ih =>
    have hfirst := h item List.mem_cons_self
    have hrest := ih fun other hother => h other (List.mem_cons_of_mem _ hother)
    rw [List.map_cons, List.flatMap_cons]
    cases rest with
    | nil => simpa using hfirst
    | cons next others =>
      rw [List.map_cons, String.intercalate_cons_cons]
      exact hfirst.join hbare hne hrest

/-- A text between single quotes quotes itself. -/
theorem singleQuoted (s : String) : Quotes (Text.singleQuoted s) [s] := by
  refine ⟨[.literal s], rfl, ?_⟩
  intro rest hrest
  have htext : (Text.singleQuoted s).toList ++ rest =
      '\'' :: (doubled s.toList ++ '\'' :: rest) := by
    simp [Text.singleQuoted, doubled]
  rw [htext, scan, scan_doubled [] s.toList hrest]
  simp

end Quotes

end RowFlags.Text
