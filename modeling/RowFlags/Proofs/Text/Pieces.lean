import Mathlib.Data.List.Chain
import RowFlags.Proofs.Text.Literals

/-!
# Texts by their pieces

A text that is put together from characters and literals, kept as the list of its pieces. `written`
is the text itself. It is read back as the same pieces if no bare quote is among them and no two
literals touch (`scan_written`); so what stands outside of literals, and next to what, is known from
how the text was put together. That two pieces of a kind never touch (`Apart`) is kept by joining
with separators that are not of the kind.
-/

set_option autoImplicit false

namespace RowFlags.Text

/-- The characters that a piece is written as. -/
def Piece.chars : Piece → List Char
  | .bare c => [c]
  | .literal s => (singleQuoted s).toList

/-- The characters that pieces are written as, one after the other. -/
def written (pieces : List Piece) : List Char := pieces.flatMap Piece.chars

/-- The characters of a text, each a piece. -/
def bares (text : String) : List Piece := text.toList.map .bare

/-- Pieces in parentheses. -/
def parenthesized (pieces : List Piece) : List Piece := bares "(" ++ pieces ++ bares ")"

/-- Items in parentheses, with commas between them. -/
def listed (items : List (List Piece)) : List Piece :=
  parenthesized ((bares ", ").intercalate items)

/-- Pieces, in parentheses if they are needed. -/
def enclosed (needed : Bool) (pieces : List Piece) : List Piece :=
  if needed then parenthesized pieces else pieces

@[simp] theorem written_append (front back : List Piece) :
    written (front ++ back) = written front ++ written back :=
  List.flatMap_append

@[simp] theorem written_bares (text : String) : written (bares text) = text.toList := by
  simp [written, bares, List.flatMap_map, Piece.chars]

@[simp] theorem written_literal (s : String) :
    written [.literal s] = (singleQuoted s).toList := by
  simp [written, Piece.chars]

@[simp] theorem bares_append (s t : String) : bares (s ++ t) = bares s ++ bares t := by
  simp [bares]

theorem written_intercalate (separator : String) (items : List (List Piece)) :
    written ((bares separator).intercalate items) =
      separator.toList.intercalate (items.map written) := by
  induction items with
  | nil => rfl
  | cons item rest ih =>
    cases rest with
    | nil => simp
    | cons next others =>
      rw [List.intercalate_cons_cons, written_append, written_append, written_bares, ih]
      simp only [List.map_cons, List.intercalate_cons_cons]

theorem written_listed (items : List (List Piece)) :
    written (listed items) = '(' :: (", ".toList.intercalate (items.map written) ++ [')']) := by
  rw [listed, parenthesized, written_append, written_append, written_intercalate]
  simp

/-! ## What is kept by putting pieces together -/

/-- `P` is kept by putting pieces together with separators between them, that is with pieces that
have `S`: characters other than quotes, parentheses and dashes have it. -/
structure PieceLaw (S P : List Piece → Prop) : Prop where
  nil : S []
  append {front back : List Piece} (hfront : S front) (hback : S back) : S (front ++ back)
  bare {c : Char} (hquote : c ≠ '\'') (hopen : c ≠ '(') (hclose : c ≠ ')') (hdash : c ≠ '-') :
    S [.bare c]
  separator {pieces : List Piece} (h : S pieces) : P pieces
  before {front back : List Piece} (hfront : S front) (hback : P back) : P (front ++ back)
  join {front middle back : List Piece} (hfront : P front) (hmiddle : S middle) (hne : middle ≠ [])
    (hback : P back) : P (front ++ middle ++ back)
  dash : P (bares "-")
  literal (s : String) : P [.literal s]
  parenthesized {pieces : List Piece} (h : P pieces) : P (parenthesized pieces)

/-- The text holds neither quotes nor parentheses nor dashes. -/
def Neutral (text : String) : Prop :=
  ∀ c ∈ text.toList, c ≠ '\'' ∧ c ≠ '(' ∧ c ≠ ')' ∧ c ≠ '-'

instance : DecidablePred Neutral := fun text => List.decidableBAll _ text.toList

namespace PieceLaw

variable {S P : List Piece → Prop}

/-- What pieces have if all they are put together from have it, is kept with all of it between. -/
theorem of_append (hnil : P [])
    (happend : ∀ {front back : List Piece}, P front → P back → P (front ++ back))
    (hbare : ∀ {c : Char}, c ≠ '\'' → c ≠ '(' → c ≠ ')' → P [.bare c])
    (hliteral : ∀ s, P [.literal s])
    (hparenthesized : ∀ {pieces : List Piece}, P pieces → P (Text.parenthesized pieces)) :
    PieceLaw P P where
  nil := hnil
  append := happend
  bare hquote hopen hclose _ := hbare hquote hopen hclose
  separator h := h
  before := happend
  join hfront hmiddle _ hback := happend (happend hfront hmiddle) hback
  dash := hbare (by decide) (by decide) (by decide)
  literal := hliteral
  parenthesized := hparenthesized

theorem bares (law : PieceLaw S P) {text : String} (h : Neutral text) : S (bares text) := by
  have hall (chars : List Char) (h : ∀ c ∈ chars, c ≠ '\'' ∧ c ≠ '(' ∧ c ≠ ')' ∧ c ≠ '-') :
      S (chars.map .bare) := by
    induction chars with
    | nil => exact law.nil
    | cons c rest ih =>
      obtain ⟨⟨hquote, hopen, hclose, hdash⟩, hrest⟩ := List.forall_mem_cons.1 h
      exact law.append (law.bare hquote hopen hclose hdash) (ih hrest)
  exact hall text.toList h

theorem word (law : PieceLaw S P) {text : String} (h : Neutral text) : P (Text.bares text) :=
  law.separator (law.bares h)

theorem intercalate (law : PieceLaw S P) {separator : List Piece} (hseparator : S separator)
    (hne : separator ≠ []) {items : List (List Piece)} (h : ∀ item ∈ items, P item) :
    P (separator.intercalate items) := by
  induction items with
  | nil => exact law.separator law.nil
  | cons item rest ih =>
    obtain ⟨hitem, hrest⟩ := List.forall_mem_cons.1 h
    cases rest with
    | nil => simpa using hitem
    | cons next others =>
      rw [List.intercalate_cons_cons]
      exact law.join hitem hseparator hne (ih hrest)

theorem commas (law : PieceLaw S P) {items : List (List Piece)} (h : ∀ item ∈ items, P item) :
    P ((Text.bares ", ").intercalate items) :=
  law.intercalate (law.bares (by decide)) (by decide) h

theorem listed (law : PieceLaw S P) {items : List (List Piece)} (h : ∀ item ∈ items, P item) :
    P (listed items) :=
  law.parenthesized (law.commas h)

theorem enclosed (law : PieceLaw S P) {pieces : List Piece} (h : P pieces) (needed : Bool) :
    P (enclosed needed pieces) := by
  cases needed with
  | false => exact h
  | true => exact law.parenthesized h

end PieceLaw

/-! ## Pieces of a kind that never touch -/

/-- No two pieces of the kind stand next to each other. -/
def Apart (K : Piece → Prop) (pieces : List Piece) : Prop :=
  pieces.IsChain fun p q => ¬ (K p ∧ K q)

/-- No piece is of the kind. -/
def Without (K : Piece → Prop) (pieces : List Piece) : Prop := ∀ p ∈ pieces, ¬ K p

theorem without_bares {K : Piece → Prop} {text : String} :
    Without K (bares text) ↔ ∀ c ∈ text.toList, ¬ K (.bare c) := by
  simp [Without, bares]

theorem Without.append {K : Piece → Prop} {front back : List Piece} (hfront : Without K front)
    (hback : Without K back) : Without K (front ++ back) := by
  intro p hp
  exact (List.mem_append.1 hp).elim (hfront p) (hback p)

/-- The first of the pieces is not of the kind, whatever follows them. -/
theorem Without.of_head {K : Piece → Prop} {front : List Piece} (h : Without K front)
    (hne : front ≠ []) (back : List Piece) : ∀ p ∈ (front ++ back).head?, ¬ K p := by
  obtain ⟨p, rest, rfl⟩ := List.exists_cons_of_ne_nil hne
  rintro _ ⟨⟩
  exact h p List.mem_cons_self

namespace Apart

variable {K : Piece → Prop} {front back separator pieces : List Piece}

theorem nil : Apart K [] := List.IsChain.nil

theorem singleton (p : Piece) : Apart K [p] := List.IsChain.singleton p

/-- Before pieces of which the first is not of the kind, everything may stand. -/
theorem append_of_head (hfront : Apart K front) (hback : Apart K back)
    (h : ∀ p ∈ back.head?, ¬ K p) : Apart K (front ++ back) :=
  List.IsChain.append hfront hback fun _ _ q hq hboth => h q hq hboth.2

theorem without_append (hfront : Without K front) (hback : Apart K back) :
    Apart K (front ++ back) := by
  induction front with
  | nil => exact hback
  | cons p rest ih =>
    obtain ⟨hp, hrest⟩ := List.forall_mem_cons.1 hfront
    exact List.IsChain.cons (ih hrest) fun q _ hboth => hp hboth.1

theorem of_without (h : Without K pieces) : Apart K pieces := by
  simpa using without_append h nil

/-- A separator that holds nothing of the kind keeps what stands on either side of it apart. -/
theorem join (hfront : Apart K front) (hseparator : Without K separator) (hne : separator ≠ [])
    (hback : Apart K back) : Apart K (front ++ separator ++ back) := by
  rw [List.append_assoc]
  exact hfront.append_of_head (without_append hseparator hback) (hseparator.of_head hne back)

end Apart

/-- No character but the dash is of the kind. -/
def DashesAtMost (K : Piece → Prop) : Prop := ∀ c, c ≠ '-' → ¬ K (.bare c)

theorem DashesAtMost.without {K : Piece → Prop} (hK : DashesAtMost K) {text : String}
    (h : '-' ∉ text.toList) : Without K (bares text) :=
  without_bares.2 fun c hc => hK c fun heq => h (heq ▸ hc)

/-- What holds nothing of the kind keeps its pieces apart. -/
theorem pieceLaw_apart {K : Piece → Prop} (hK : DashesAtMost K) :
    PieceLaw (Without K) (Apart K) where
  nil := List.forall_mem_nil _
  append := Without.append
  bare _ _ _ hdash := List.forall_mem_singleton.2 (hK _ hdash)
  separator := Apart.of_without
  before := Apart.without_append
  join := Apart.join
  dash := .singleton _
  literal _ := .singleton _
  parenthesized h := by
    have hclose : Without K (bares ")") := hK.without (by decide)
    have hclosed := h.join hclose (by decide) .nil
    rw [List.append_nil] at hclosed
    rw [parenthesized, List.append_assoc]
    exact .without_append (hK.without (by decide)) hclosed

/-! ## Parts of what is put together -/

theorem infix_enclosed (pieces : List Piece) (needed : Bool) :
    pieces <:+: enclosed needed pieces := by
  cases needed with
  | false => exact List.infix_rfl
  | true => exact List.infix_append _ _ _

theorem infix_intercalate {separator item : List Piece} {items : List (List Piece)}
    (h : item ∈ items) : item <:+: separator.intercalate items := by
  induction items with
  | nil => cases h
  | cons first rest ih =>
    cases rest with
    | nil =>
      cases List.mem_singleton.1 h
      simp
    | cons next others =>
      rw [List.intercalate_cons_cons, List.append_assoc]
      rcases List.mem_cons.1 h with rfl | h
      · exact (List.prefix_append _ _).isInfix
      · exact (ih h).trans ((List.suffix_append _ _).trans (List.suffix_append _ _)).isInfix

theorem infix_listed {item : List Piece} {items : List (List Piece)} (h : item ∈ items) :
    item <:+: listed items :=
  (infix_intercalate h).trans (List.infix_append _ _ _)

/-! ## Reading back -/

/-- The piece is a literal. -/
def IsLiteral (p : Piece) : Prop := p.literal?.isSome = true

/-- No bare quote is among the pieces. -/
theorem pieceLaw_unquoted :
    PieceLaw (fun pieces => .bare '\'' ∉ pieces) (fun pieces => .bare '\'' ∉ pieces) := by
  refine .of_append List.not_mem_nil ?_ ?_ (fun s => by simp) ?_
  · intro front back hfront hback hmem
    exact (List.mem_append.1 hmem).elim hfront hback
  · intro c hquote _ _ hmem
    cases List.mem_singleton.1 hmem
    exact hquote rfl
  · intro pieces h hmem
    have hopen : Piece.bare '\'' ∉ bares "(" := by decide
    have hclose : Piece.bare '\'' ∉ bares ")" := by decide
    rcases List.mem_append.1 hmem with hmem | hmem
    · exact (List.mem_append.1 hmem).elim hopen h
    · exact hclose hmem

/-- Pieces are read back from what they are written as, if no bare quote is among them and no two
literals touch. -/
theorem scan_written {pieces : List Piece} (hquote : .bare '\'' ∉ pieces)
    (hapart : Apart IsLiteral pieces) : scan none (written pieces) = some pieces := by
  induction pieces with
  | nil => rfl
  | cons p rest ih =>
    have hrest := ih (fun hmem => hquote (List.mem_cons_of_mem p hmem)) hapart.tail
    cases p with
    | bare c =>
      have hc : c ≠ '\'' := by
        rintro rfl
        exact hquote List.mem_cons_self
      show scan none (c :: written rest) = _
      rw [scan_bare hc, hrest]
      rfl
    | literal s =>
      -- Behind a literal comes no quote: no bare one is there, and no literal touches this one.
      have hnext : (written rest).head? ≠ some '\'' := by
        cases rest with
        | nil => simp [written]
        | cons q later =>
          cases q with
          | bare c =>
            rintro ⟨⟩
            exact hquote (List.mem_cons_of_mem _ List.mem_cons_self)
          | literal t => exact absurd ⟨rfl, rfl⟩ (List.isChain_cons_cons.1 hapart).1
      have hsplit : written (.literal s :: rest) =
          '\'' :: (doubled s.toList ++ '\'' :: written rest) := by
        simp [written, Piece.chars, singleQuoted, doubled]
      rw [hsplit, scan, scan_doubled [] s.toList hnext, hrest]
      simp

end RowFlags.Text
