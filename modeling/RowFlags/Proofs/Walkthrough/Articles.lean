import RowFlags.Proofs.Store.Agreement
import RowFlags.Proofs.Store.Restore
import RowFlags.Walkthrough

/-!
# Stored articles

The walkthrough keeps articles 1, 2, 3 and so on in the slots of a store, each with its publication
date or without one. Such a store is known by the list of the dates (`shelf`), and what is done with
it is told by that list: which articles a condition finds, how many it counts, how long the snapshot
is, and that a restored snapshot is the same store again.
-/

set_option autoImplicit false

namespace RowFlags

/-! ## The bytes of digits -/

namespace Text

theorem utf8Size_of_isDigit {c : Char} (h : c.isDigit = true) : c.utf8Size = 1 := by
  rw [Char.utf8Size_eq_one_iff]
  simp only [Char.isDigit, Bool.and_eq_true, decide_eq_true_eq] at h
  exact UInt32.le_trans h.2 (by decide)

/-- A digit takes one byte. -/
theorem length_bytes_repr (n : Nat) : (bytes n.repr).length = n.repr.length := by
  have hdigits : ∀ c ∈ Nat.toDigits 10 n, (String.utf8EncodeChar c).length = 1 := by
    intro c hc
    rw [String.length_utf8EncodeChar]
    exact utf8Size_of_isDigit (Nat.isDigit_of_mem_toDigits (by decide) (by decide) hc)
  rw [Nat.repr, bytes_ofList, List.length_flatMap, List.map_congr_left hdigits, String.length_ofList]
  simp only [List.map_const', List.sum_replicate_nat, Nat.mul_one]

end Text

namespace Walkthrough

open Stored (encodeRow decodeRow ofInt ofNat)

/-! ## Articles as rows and objects -/

/-- The table of articles. -/
def articles : Table :=
  ⟨⟨1⟩, "article", [⟨"id", .int32⟩, ⟨"title", .varchar⟩, ⟨"published_at", .timestamp⟩],
    by decide, by decide⟩

/-- The column of the publication date. -/
def dateColumn : Column := ⟨⟨1⟩, 2, "article", "published_at", .timestamp⟩

/-- The class of articles. -/
def articleClass : Mapping where
  id := ⟨1⟩
  className := "Article"
  table := articles
  properties :=
    [⟨"id", ⟨⟨1⟩, 0, "article", "id", .int32⟩⟩, ⟨"title", ⟨⟨1⟩, 1, "article", "title", .varchar⟩⟩,
      ⟨dateName, dateColumn⟩]
  parent := none
  discriminator := none

/-- How many decimal digits a number has. -/
def digitCount (n : Nat) : Nat := n.repr.length

theorem digitCount_le {n : Nat} (h : n < UInt32.size) : digitCount n ≤ 10 := by
  rw [digitCount, Nat.repr, String.length_ofList,
    Nat.length_toDigits_le_iff (by decide) (by decide)]
  exact Nat.lt_trans h (by decide)

/-- The title of the article of a number. -/
def titleOf (number : Nat) : String := s!"Article {number}"

/-- A publication date as a value; a draft has none. -/
def dateValue : Option Instant → Value
  | none => .null
  | some t => .timestamp t

/-- The values of an article in column order. -/
def articleValues (number : Nat) (date : Option Instant) : List Value :=
  [.int32 (UInt32.ofNat number).toInt32, .string (titleOf number), dateValue date]

/-- An article as an object. -/
def article (number : Nat) (date : Option Instant) : Record where
  classId := ⟨1⟩
  attributes := NameMap.ofList
    [("id", .int32 (UInt32.ofNat number).toInt32), ("title", .string (titleOf number)),
      (dateName, dateValue date)]

/-- The bytes of a publication date. -/
def dateBytes : Option Instant → List UInt8
  | none => []
  | some t => ofInt 8 t.nanoseconds

/-- The stored form of an article. -/
def articleBytes (number : Nat) (date : Option Instant) : List UInt8 :=
  Stored.bitmap [false, false, date.isNone] ++
    (ofInt 4 (UInt32.ofNat number).toInt32.toInt ++
      (ofNat 4 (Text.bytes (titleOf number)).length ++ Text.bytes (titleOf number) ++
        (dateBytes date ++ [])))

theorem length_bytes_title (number : Nat) :
    (Text.bytes (titleOf number)).length = 8 + digitCount number := by
  have htitle : titleOf number = "Article " ++ number.repr := rfl
  rw [htitle, Text.bytes_append, List.length_append, Text.length_bytes_repr]
  rfl

theorem columnValues_article (s : Store) (h : s.table = articles) (number : Nat)
    (date : Option Instant) :
    s.columnValues articleClass (article number date) = articleValues number date := by
  unfold Store.columnValues
  rw [h]
  rfl

theorem decode_article (number : Nat) (date : Option Instant) :
    Store.decode articleClass (articleValues number date) = .ok (article number date) := rfl

/-- The date, if there is one, is one whose nanoseconds can be stored. -/
def Datable (date : Option Instant) : Prop := ∀ t ∈ date, Instant.Storable t.nanoseconds

theorem encodeRow_article (number : Nat) {date : Option Instant} (h : Datable date) :
    encodeRow articles.schema (articleValues number date) = .ok (articleBytes number date) := by
  cases date with
  | none => rfl
  | some t =>
    have hfield : Stored.fieldBytes .timestamp (.timestamp t) = .ok (ofInt 8 t.nanoseconds) := by
      unfold Stored.fieldBytes
      exact if_pos (h t rfl)
    refine Stored.encodeRow_eq_ok_iff.2 ⟨rfl, ?_, _, ?_, rfl⟩
    · exact List.forall_mem_cons.2
        ⟨rfl, List.forall_mem_cons.2 ⟨rfl, List.forall_mem_cons.2 ⟨rfl, List.forall_mem_nil _⟩⟩⟩
    · show Stored.fieldsBytes [(.int32, _), (.varchar, _), (.timestamp, .timestamp t)] = _
      simp only [Stored.fieldsBytes, hfield]
      rfl

theorem short_articleValues {number : Nat} (h : number < UInt32.size) (date : Option Instant) :
    ∀ v ∈ articleValues number date, v.Short := by
  have htitle : (Text.bytes (titleOf number)).length < UInt32.size := by
    have hdigits := digitCount_le h
    rw [length_bytes_title, show UInt32.size = 4294967296 from rfl]
    omega
  refine List.forall_mem_cons.2 ⟨trivial, List.forall_mem_cons.2 ⟨htitle, ?_⟩⟩
  refine List.forall_mem_cons.2 ⟨?_, List.forall_mem_nil _⟩
  cases date <;> exact trivial

/-- Stored dates are read back as instants outside of leap seconds. -/
theorem decodeRow_article {number : Nat} {date : Option Instant} (hnumber : number < UInt32.size)
    (h : Datable date) :
    decodeRow articles.schema (articleBytes number date) =
      .ok (articleValues number (date.map Instant.ordinary)) := by
  have hspells := Stored.spellsRow_of_encodeRow (encodeRow_article number h)
    (short_articleValues hnumber date)
  rw [hspells.decodeRow_eq]
  cases date <;> rfl

theorem length_articleBytes (number : Nat) (date : Option Instant) :
    (articleBytes number date).length =
      17 + digitCount number + if date.isSome then 8 else 0 := by
  have hdate : (dateBytes date).length = if date.isSome then 8 else 0 := by
    cases date with
    | none => rfl
    | some t => exact Stored.length_ofNat 8 _
  have hbitmap : (Stored.bitmap [false, false, date.isNone]).length = 1 := by
    rw [Stored.length_bitmap]
    show Stored.bitmapWidth 3 = 1
    decide
  have hid (n : Int) : (ofInt 4 n).length = 4 := Stored.length_ofNat 4 _
  rw [articleBytes, List.length_append, List.length_append, List.length_append, List.length_append,
    List.append_nil, hbitmap, hid, Stored.length_ofNat, length_bytes_title, hdate]
  omega

/-! ## The condition -/

/-- An article is published if it has a publication date. -/
def condition : Expr := .isNotNull (.column dateColumn)

/-- The program of the condition. -/
def published : Program :=
  ⟨condition, [.push .null, .load dateColumn, .operate (.binary .ne)]⟩

/-- The program of its negation. -/
def unpublished : Program :=
  ⟨condition.not, published.code ++ [.operate (.unary .invert)]⟩

theorem evaluateRow_published (number : Nat) (date : Option Instant) :
    Store.evaluateRow published (articleValues number date) = .ok (.boolean date.isSome) := by
  cases date <;> rfl

theorem evaluateRow_unpublished (number : Nat) (date : Option Instant) :
    Store.evaluateRow unpublished (articleValues number date) = .ok (.boolean date.isNone) := by
  cases date <;> rfl

/-! ## Shelves -/

/-- The slots of articles from the one after number `next` on. -/
def slotsFrom (next : Nat) : List (Option Instant) → List (Option (List UInt8))
  | [] => []
  | date :: rest => some (articleBytes (next + 1) date) :: slotsFrom (next + 1) rest

/-- The rows of articles from slot `next` on, with their values as they are read. -/
def rowsFrom (next : Nat) : List (Option Instant) → List (RowId × List Value)
  | [] => []
  | date :: rest =>
    (⟨next⟩, articleValues (next + 1) (date.map Instant.ordinary)) :: rowsFrom (next + 1) rest

/-- The drafts among articles from slot `next` on. -/
def draftsFrom (next : Nat) : List (Option Instant) → List (RowId × Record)
  | [] => []
  | none :: rest => (⟨next⟩, article (next + 1) none) :: draftsFrom (next + 1) rest
  | some _ :: rest => draftsFrom (next + 1) rest

/-- The store of articles with these publication dates. -/
def shelf (dates : List (Option Instant)) : Store := ⟨articles, (slotsFrom 0 dates).toArray⟩

/-- All dates can be stored, and there is a number for each article. -/
structure Shelvable (dates : List (Option Instant)) : Prop where
  datable : ∀ date ∈ dates, Datable date
  room : dates.length < UInt32.size

@[simp] theorem length_slotsFrom (next : Nat) (dates : List (Option Instant)) :
    (slotsFrom next dates).length = dates.length := by
  induction dates generalizing next with
  | nil => rfl
  | cons date rest ih => rw [slotsFrom, List.length_cons, List.length_cons, ih]

theorem slotsFrom_append (next : Nat) (dates : List (Option Instant)) (date : Option Instant) :
    slotsFrom next (dates ++ [date]) =
      slotsFrom next dates ++ [some (articleBytes (next + dates.length + 1) date)] := by
  induction dates generalizing next with
  | nil => rfl
  | cons first rest ih =>
    have hnext : next + 1 + rest.length + 1 = next + (first :: rest).length + 1 := by
      rw [List.length_cons]
      omega
    rw [List.cons_append, slotsFrom, slotsFrom, ih, List.cons_append, hnext]

theorem scanFrom_slotsFrom {next : Nat} {dates : List (Option Instant)}
    (h : ∀ date ∈ dates, Datable date) (hroom : next + dates.length < UInt32.size) :
    Store.scanFrom articles.schema next (slotsFrom next dates) = .ok (rowsFrom next dates) := by
  induction dates generalizing next with
  | nil => rfl
  | cons date rest ih =>
    rw [List.length_cons] at hroom
    have hnumber : next + 1 < UInt32.size := by omega
    have hfirst := decodeRow_article hnumber (h date List.mem_cons_self)
    have hrest := ih (fun other hother => h other (List.mem_cons_of_mem _ hother))
      (by omega : next + 1 + rest.length < UInt32.size)
    rw [slotsFrom, Store.scanFrom, hfirst, hrest]
    rfl

theorem scan_shelf {dates : List (Option Instant)} (h : Shelvable dates) :
    (shelf dates).scan = .ok (rowsFrom 0 dates) := by
  unfold Store.scan shelf
  exact scanFrom_slotsFrom h.datable (by simpa using h.room)

theorem tally_rowsFrom (next : Nat) (dates : List (Option Instant)) :
    Store.tally published (rowsFrom next dates) = .ok (dates.countP Option.isSome) := by
  induction dates generalizing next with
  | nil => rfl
  | cons date rest ih =>
    rw [rowsFrom, Store.tally, evaluateRow_published, ih]
    cases date with
    | none => rfl
    | some t =>
      rw [List.countP_cons_of_pos rfl]
      rfl

/-- The condition counts the articles with a date. -/
theorem count_shelf {dates : List (Option Instant)} (h : Shelvable dates) :
    (shelf dates).count condition = .ok (dates.countP Option.isSome) := by
  have hcompile : (shelf dates).compile condition = .ok published := rfl
  rw [Store.count, hcompile, Outcome.ok_bind, scan_shelf h, Outcome.ok_bind, tally_rowsFrom]

theorem choose_rowsFrom (next : Nat) (dates : List (Option Instant)) :
    Store.choose unpublished (fun _ => true) articleClass (rowsFrom next dates) =
      .ok (draftsFrom next dates) := by
  induction dates generalizing next with
  | nil => rfl
  | cons date rest ih =>
    rw [rowsFrom, Store.choose, evaluateRow_unpublished, decode_article, ih]
    cases date <;> rfl

/-- The negated condition finds the articles without a date. -/
theorem filter_shelf {dates : List (Option Instant)} (h : Shelvable dates) :
    (shelf dates).filter articleClass condition.not = .ok (draftsFrom 0 dates) := by
  have hclass : (shelf dates).checkClass articleClass = .ok () := rfl
  have hcompile : (shelf dates).compile condition.not = .ok unpublished := rfl
  have hvisible : Store.visible articleClass = .ok fun _ => true := rfl
  rw [Store.filter, hclass, Outcome.ok_bind, hcompile, Outcome.ok_bind, hvisible, Outcome.ok_bind,
    scan_shelf h, Outcome.ok_bind, choose_rowsFrom]

theorem encode_article (dates : List (Option Instant)) (number : Nat) {date : Option Instant}
    (h : Datable date) :
    (shelf dates).encode articleClass (article number date) = .ok (articleBytes number date) := by
  refine Store.encode_eq_ok_iff.2 ⟨rfl, ?_⟩
  rw [columnValues_article _ rfl]
  exact encodeRow_article number h

/-- The next article takes the next slot. -/
theorem insert_article (dates : List (Option Instant)) {date : Option Instant}
    (hdate : Datable date) (hroom : dates.length < UInt32.size) :
    (shelf dates).insert articleClass (article (dates.length + 1) date) =
      .ok (⟨dates.length⟩, shelf (dates ++ [date])) := by
  have hsize : (shelf dates).slots.size = dates.length := by simp [shelf]
  refine Store.insert_eq_ok_iff.2
    ⟨_, encode_article dates _ hdate, by rwa [hsize, Store.capacity], by rw [hsize], ?_⟩
  simp [shelf, slotsFrom_append]

/-- The first article is put in the place of the one before. -/
theorem update_first (old : Option Instant) {date : Option Instant} (rest : List (Option Instant))
    (h : Datable date) :
    (shelf (old :: rest)).update articleClass ⟨0⟩ (article 1 date) = .ok (shelf (date :: rest)) := by
  refine Store.update_eq_ok_iff.2 ⟨_, encode_article _ 1 h, ⟨articleBytes 1 old, rfl⟩, ?_⟩
  simp [shelf, slotsFrom]

theorem draftsFrom_eq_nil {next : Nat} {dates : List (Option Instant)}
    (h : ∀ date ∈ dates, date ≠ none) : draftsFrom next dates = [] := by
  induction dates generalizing next with
  | nil => rfl
  | cons date rest ih =>
    cases date with
    | none => exact absurd rfl (h none List.mem_cons_self)
    | some t => exact ih fun other hother => h other (List.mem_cons_of_mem _ hother)

/-! ## Snapshots of shelves -/

/-- How many decimal digits the numbers from 1 to a last one have together. -/
def digitsUpTo : Nat → Nat
  | 0 => 0
  | n + 1 => digitsUpTo n + digitCount (n + 1)

theorem length_slotBytes_article (number : Nat) (date : Option Instant) :
    (Stored.slotBytes (some (articleBytes number date))).length =
      26 + digitCount number + if date.isSome then 8 else 0 := by
  rw [Stored.slotBytes, List.length_cons, Stored.counted, List.length_append, Stored.length_ofNat,
    length_articleBytes]
  omega

theorem length_slotBytes_slotsFrom (next : Nat) (dates : List (Option Instant)) :
    ((slotsFrom next dates).flatMap Stored.slotBytes).length + digitsUpTo next =
      26 * dates.length + digitsUpTo (next + dates.length) + 8 * dates.countP Option.isSome := by
  induction dates generalizing next with
  | nil => simp [slotsFrom]
  | cons date rest ih =>
    have hrest := ih (next + 1)
    have hlast : next + 1 + rest.length = next + (date :: rest).length := by
      rw [List.length_cons]
      omega
    rw [hlast, digitsUpTo] at hrest
    rw [slotsFrom, List.flatMap_cons, List.length_append, length_slotBytes_article,
      List.countP_cons]
    rw [List.length_cons] at hrest ⊢
    split <;> omega

/-- The bytes of a snapshot are those of its counts, of the table's name and of the types, and those
of each article. -/
theorem length_snapshot_shelf (dates : List (Option Instant)) :
    (shelf dates).snapshot.length =
      34 + 26 * dates.length + digitsUpTo dates.length + 8 * dates.countP Option.isSome := by
  have hname : (Stored.counted (Text.bytes articles.name)).length = 15 := by
    rw [Stored.counted, List.length_append, Stored.length_ofNat]
    rfl
  have htypes : (Stored.counted (articles.schema.map ColumnType.code)).length = 11 := by
    rw [Stored.counted, List.length_append, Stored.length_ofNat]
    rfl
  show (Stored.counted (Text.bytes articles.name) ++
    Stored.counted (articles.schema.map ColumnType.code) ++ _ ++ _).length = _
  have hslots := length_slotBytes_slotsFrom 0 dates
  rw [digitsUpTo, Nat.add_zero, Nat.zero_add] at hslots
  rw [List.length_append, List.length_append, List.length_append, hname, htypes,
    Stored.length_ofNat, shelf, List.toList_toArray, hslots]
  omega

theorem mem_slotsFrom {next : Nat} {dates : List (Option Instant)} {slot : Option (List UInt8)}
    (h : slot ∈ slotsFrom next dates) :
    ∃ number date, number ≤ next + dates.length ∧ slot = some (articleBytes number date) := by
  induction dates generalizing next with
  | nil => cases h
  | cons date rest ih =>
    rw [List.length_cons]
    rcases List.mem_cons.1 h with rfl | hrest
    · exact ⟨next + 1, date, by omega, rfl⟩
    · obtain ⟨number, other, hnumber, rfl⟩ := ih hrest
      exact ⟨number, other, by omega, rfl⟩

/-- Every article has a row. -/
theorem size_shelf (dates : List (Option Instant)) : (shelf dates).size = dates.length := by
  have hall : ∀ slot ∈ slotsFrom 0 dates, slot.isSome = true := by
    intro slot hslot
    obtain ⟨number, date, -, rfl⟩ := mem_slotsFrom hslot
    rfl
  rw [Store.size, shelf, List.toList_toArray, List.countP_eq_length.2 hall, length_slotsFrom]

theorem fits_shelf {dates : List (Option Instant)} (h : Shelvable dates) : (shelf dates).Fits := by
  have hroom := h.room
  have hword : UInt32.size = 4294967296 := rfl
  have hbound : UInt64.size = 18446744073709551616 := rfl
  constructor
  case name =>
    show (Text.bytes "article").length < UInt64.size
    decide +kernel
  case columns =>
    show 3 < UInt64.size
    decide
  case slots =>
    rw [shelf, List.size_toArray, length_slotsFrom]
    omega
  case rows =>
    rintro slot hslot row rfl
    obtain ⟨number, date, hnumber, heq⟩ := mem_slotsFrom hslot
    cases heq
    have hdigits := digitCount_le (by omega : number < UInt32.size)
    rw [length_articleBytes]
    split <;> omega

/-- A snapshot of articles is restored to the articles. -/
theorem restore_shelf {dates : List (Option Instant)} (h : Shelvable dates) :
    Store.restore articles (shelf dates).snapshot = .ok (shelf dates) := by
  have hdecode : Stored.decodeSnapshot (shelf dates).snapshot = some (shelf dates).lasting :=
    Stored.decodeSnapshot_eq_some_iff.2 ⟨(fits_shelf h).lasting, [], (List.append_nil _).symm⟩
  rw [Store.restore_of_lasting hdecode]
  rfl

theorem load_first {rest : List (Option Instant)} :
    (shelf (none :: rest)).load articleClass ⟨0⟩ = .ok (article 1 none) := by
  have hrow : (shelf (none :: rest)).row? ⟨0⟩ = some (articleBytes 1 none) := rfl
  have hdecode : decodeRow articles.schema (articleBytes 1 none) = .ok (articleValues 1 none) :=
    decodeRow_article (by decide) fun t ht => nomatch ht
  have hvalues : (shelf (none :: rest)).values ⟨0⟩ = .ok (articleValues 1 none) :=
    Store.values_eq_ok_iff.2 ⟨_, hrow, hdecode⟩
  rw [Store.load_eq_bind rfl, hvalues]
  exact decode_article 1 none

end Walkthrough

end RowFlags
