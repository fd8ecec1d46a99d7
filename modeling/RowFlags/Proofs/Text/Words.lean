import RowFlags.Proofs.Text.Pieces

/-!
# Words of a text

A text is cut into words at the spaces that stand outside of literals and of parentheses, if every
parenthesis is matched (`words?`). Between two parentheses nothing is cut, so pieces that match
their parentheses are swallowed whole there (`Closed`); pieces in parentheses, and those that hold
no space, are swallowed whole everywhere (`Solid`). Pieces with a space between them have the words
of both (`Cuts.join`).
-/

set_option autoImplicit false

namespace RowFlags.Text

/-- The text that pieces are written as. -/
def textOf (pieces : List Piece) : String := String.ofList (written pieces)

/-- The words, with more text at the beginning of the first one. -/
def grow (front : String) (words : List String) : List String := words.modifyHead (front ++ ·)

/-- The words of what is left of a text, inside that many parentheses. -/
def cut : Nat → List Piece → Option (List String)
  | 0, [] => some [""]
  | _ + 1, [] => none
  | depth, .bare '(' :: rest => grow "(" <$> cut (depth + 1) rest
  | 0, .bare ')' :: _ => none
  | depth + 1, .bare ')' :: rest => grow ")" <$> cut depth rest
  | 0, .bare ' ' :: rest => ("" :: ·) <$> cut 0 rest
  | depth, piece :: rest => grow (textOf [piece]) <$> cut depth rest

/-- The words of a text, if it ends outside of literals and of parentheses. -/
def words? (text : String) : Option (List String) := (scan none text.toList).bind (cut 0)

@[simp] theorem textOf_append (front back : List Piece) :
    textOf (front ++ back) = textOf front ++ textOf back := by
  simp [textOf]

@[simp] theorem textOf_bares (text : String) : textOf (bares text) = text := by
  simp [textOf]

@[simp] theorem grow_empty : grow "" = id := by
  funext words
  cases words <;> simp [grow]

@[simp] theorem grow_grow (front back : String) (words : List String) :
    grow front (grow back words) = grow (front ++ back) words := by
  cases words <;> simp [grow, String.append_assoc]

theorem grow_append {front : String} {words : List String} (h : words ≠ []) (others : List String) :
    grow front (words ++ others) = grow front words ++ others := by
  obtain ⟨first, rest, rfl⟩ := List.exists_cons_of_ne_nil h
  rfl

theorem cut_open (depth : Nat) (rest : List Piece) :
    cut depth (bares "(" ++ rest) = grow "(" <$> cut (depth + 1) rest := by
  cases depth <;> rfl

theorem cut_close (depth : Nat) (rest : List Piece) :
    cut (depth + 1) (bares ")" ++ rest) = grow ")" <$> cut depth rest := rfl

theorem cut_space (rest : List Piece) : cut 0 (bares " " ++ rest) = ("" :: ·) <$> cut 0 rest := rfl

/-- A piece that is no parenthesis goes on with the word, as a space does between parentheses. -/
theorem cut_piece {depth : Nat} {p : Piece} (hopen : p ≠ .bare '(') (hclose : p ≠ .bare ')')
    (hspace : p = .bare ' ' → depth ≠ 0) (rest : List Piece) :
    cut depth (p :: rest) = grow (textOf [p]) <$> cut depth rest := by
  rw [cut]
  · exact hopen
  · rintro rfl
    exact hclose
  · rintro n rfl
    exact hclose
  · rintro rfl heq
    exact hspace heq rfl

/-! ## Pieces that are not cut -/

/-- Between parentheses the pieces are swallowed whole. -/
def Closed (pieces : List Piece) : Prop :=
  ∀ depth rest, cut (depth + 1) (pieces ++ rest) = grow (textOf pieces) <$> cut (depth + 1) rest

/-- The pieces are swallowed whole wherever they stand. -/
def Solid (pieces : List Piece) : Prop :=
  ∀ depth rest, cut depth (pieces ++ rest) = grow (textOf pieces) <$> cut depth rest

namespace Solid

variable {front back pieces : List Piece}

theorem closed (h : Solid pieces) : Closed pieces := fun depth rest => h (depth + 1) rest

theorem nil : Solid [] := by
  intro depth rest
  simp [textOf, written]

theorem append (hfront : Solid front) (hback : Solid back) : Solid (front ++ back) := by
  intro depth rest
  rw [List.append_assoc, hfront, hback, textOf_append]
  simp [Function.comp_def]

theorem of_closed (h : Closed pieces) : Solid (parenthesized pieces) := by
  intro depth rest
  rw [parenthesized, List.append_assoc, List.append_assoc, cut_open, h, cut_close]
  simp [Function.comp_def]

theorem piece {p : Piece} (hopen : p ≠ .bare '(') (hclose : p ≠ .bare ')')
    (hspace : p ≠ .bare ' ') : Solid [p] :=
  fun _ rest => cut_piece hopen hclose (fun heq => absurd heq hspace) rest

theorem literal (s : String) : Solid [.literal s] := piece nofun nofun nofun

end Solid

/-- Pieces that match their parentheses are put together from such pieces. -/
theorem pieceLaw_closed : PieceLaw Closed Closed := by
  refine .of_append Solid.nil.closed ?_ ?_ (fun s => (Solid.literal s).closed)
    (fun h => (Solid.of_closed h).closed)
  · intro front back hfront hback depth rest
    rw [List.append_assoc, hfront, hback, textOf_append]
    simp [Function.comp_def]
  · intro c _ hopen hclose depth rest
    exact cut_piece (by simpa using hopen) (by simpa using hclose)
      (fun _ => Nat.succ_ne_zero depth) rest

/-- The text holds neither spaces nor quotes nor parentheses. -/
def Unbroken (text : String) : Prop :=
  ∀ c ∈ text.toList, c ≠ ' ' ∧ c ≠ '\'' ∧ c ≠ '(' ∧ c ≠ ')'

instance : DecidablePred Unbroken := fun text => List.decidableBAll _ text.toList

namespace Unbroken

variable {text : String}

theorem unquoted (h : Unbroken text) : Unquoted text := fun hmem => (h _ hmem).2.1 rfl

theorem append {other : String} (h : Unbroken text) (hother : Unbroken other) :
    Unbroken (text ++ other) := by
  intro c hc
  rw [String.toList_append, List.mem_append] at hc
  exact hc.elim (h c) (hother c)

theorem solid (h : Unbroken text) : Solid (bares text) := by
  have hall (chars : List Char) (h : ∀ c ∈ chars, c ≠ ' ' ∧ c ≠ '\'' ∧ c ≠ '(' ∧ c ≠ ')') :
      Solid (chars.map .bare) := by
    induction chars with
    | nil => exact .nil
    | cons c rest ih =>
      obtain ⟨⟨hspace, -, hopen, hclose⟩, hrest⟩ := List.forall_mem_cons.1 h
      have hc : Solid [.bare c] :=
        .piece (by simpa using hopen) (by simpa using hclose) (by simpa using hspace)
      exact hc.append (ih hrest)
  exact hall text.toList h

end Unbroken

/-! ## Pieces that are cut -/

/-- The pieces are cut into these words, and so they are before a space. -/
structure Cuts (pieces : List Piece) (words : List String) : Prop where
  whole : cut 0 pieces = some words
  before : ∀ rest, cut 0 (pieces ++ bares " " ++ rest) = (words ++ ·) <$> cut 0 rest

namespace Cuts

variable {front back pieces : List Piece} {words others : List String}

theorem solid (h : Solid pieces) : Cuts pieces [textOf pieces] where
  whole := by
    have hwhole := h 0 []
    rw [List.append_nil] at hwhole
    simp [hwhole, cut, grow]
  before rest := by
    rw [List.append_assoc, h, cut_space]
    simp [Function.comp_def, grow]

theorem word {s : String} (h : Unbroken s) : Cuts (bares s) [s] := by
  simpa using solid h.solid

theorem join (hfront : Cuts front words) (hback : Cuts back others) :
    Cuts (front ++ bares " " ++ back) (words ++ others) where
  whole := by
    rw [hfront.before, hback.whole]
    rfl
  before rest := by
    rw [List.append_assoc, List.append_assoc _ back, ← List.append_assoc back, hfront.before,
      hback.before]
    simp [Function.comp_def]

/-- Pieces that are not cut go on with the first word behind them. -/
theorem glue (hfront : Solid front) (hback : Cuts back words) (hne : words ≠ []) :
    Cuts (front ++ back) (grow (textOf front) words) where
  whole := by
    rw [hfront, hback.whole]
    rfl
  before rest := by
    rw [List.append_assoc, List.append_assoc, ← List.append_assoc back, hfront, hback.before]
    simp [Function.comp_def, grow_append hne]

end Cuts

end RowFlags.Text
