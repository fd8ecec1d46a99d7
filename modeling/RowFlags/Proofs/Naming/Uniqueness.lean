import Mathlib.Data.List.Destutter
import Mathlib.Data.List.Sort
import RowFlags.Proofs.Naming.Recording

/-!
# The only name among names

The names of a column are put in byte order without repetition, and what is left decides. There is
one list in rising order with given members (`eq_distinct_iff`); it is what is left when the names
are sorted and then each is dropped that equals the one before it (`distinct_eq_destutter`). So
neither the order in which names are given nor how often each is given can show: no names, one name
and several names are told apart by the names alone (`uniqueName_by_members`).
-/

set_option autoImplicit false

namespace RowFlags

section Distinct

variable {α : Type} (cmp : α → α → Ordering) [Std.TransCmp cmp] [Std.LawfulEqCmp cmp]
variable {xs ys : List α}

/-- Two rising lists with the same members are the same list. -/
theorem eq_of_rising (hxs : xs.Pairwise (cmp · · = .lt)) (hys : ys.Pairwise (cmp · · = .lt))
    (h : ∀ a, a ∈ xs ↔ a ∈ ys) : xs = ys := by
  have : Std.Irrefl (cmp · · = .lt) := ⟨fun a hlt => by simp [Std.ReflCmp.compare_self] at hlt⟩
  have : Std.Antisymm (cmp · · = .lt) := ⟨fun a b hab hba => by
    rw [Std.OrientedCmp.gt_of_lt hab] at hba
    cases hba⟩
  exact hxs.eq_of_mem_iff hys h

theorem eq_distinct_iff :
    ys = distinct cmp xs ↔ ys.Pairwise (cmp · · = .lt) ∧ ∀ a, a ∈ ys ↔ a ∈ xs := by
  constructor
  · rintro rfl
    exact ⟨pairwise_distinct cmp xs, fun a => mem_distinct_iff cmp⟩
  · rintro ⟨hrising, hmem⟩
    apply eq_of_rising cmp hrising (pairwise_distinct cmp xs)
    intro a
    rw [hmem, mem_distinct_iff]

/-- Sorting first and then dropping what equals the item before it leaves the same list. -/
theorem distinct_eq_destutter [DecidableEq α] :
    distinct cmp xs = (xs.mergeSort fun a b => (cmp a b).isLE).destutter (· ≠ ·) := by
  have htotal (a b : α) : (cmp a b).isLE || (cmp b a).isLE := by
    rw [Bool.or_eq_true, ← Std.OrientedCmp.isGE_iff_isLE (a := a) (b := b)]
    cases cmp a b <;> decide
  have hsorted : (xs.mergeSort fun a b => (cmp a b).isLE).Pairwise fun a b => (cmp a b).isLE :=
    List.pairwise_mergeSort (fun _ _ _ => Std.TransCmp.isLE_trans) htotal xs
  have : Std.Antisymm fun a b => (cmp a b).isLE :=
    ⟨fun a b hab hba => Std.LawfulEqCmp.eq_of_compare (Std.OrientedCmp.isLE_antisymm hab hba)⟩
  rw [hsorted.destutter_eq_dedup, eq_comm, eq_distinct_iff]
  constructor
  · refine ((hsorted.sublist (List.dedup_sublist _)).and (List.nodup_dedup _)).imp ?_
    rintro a b ⟨hle, hne⟩
    rcases Ordering.isLE_iff_eq_lt_or_eq_eq.1 hle with hlt | heq
    · exact hlt
    · exact absurd (Std.LawfulEqCmp.eq_of_compare heq) hne
  · intro a
    rw [List.mem_dedup, List.mem_mergeSort]

theorem distinct_congr (h : ∀ a, a ∈ xs ↔ a ∈ ys) : distinct cmp xs = distinct cmp ys := by
  rw [eq_distinct_iff]
  refine ⟨pairwise_distinct cmp xs, fun a => ?_⟩
  rw [mem_distinct_iff, h]

omit [Std.TransCmp cmp] in
theorem distinct_eq_nil_iff : distinct cmp xs = [] ↔ xs = [] := by
  rw [List.eq_nil_iff_forall_not_mem, List.eq_nil_iff_forall_not_mem]
  simp only [mem_distinct_iff]

/-- One member is left of a list in which it alone occurs, however often. -/
theorem distinct_eq_singleton_iff {a : α} :
    distinct cmp xs = [a] ↔ xs ≠ [] ∧ ∀ b ∈ xs, b = a := by
  rw [eq_comm, eq_distinct_iff]
  constructor
  · rintro ⟨-, hmem⟩
    refine ⟨List.ne_nil_of_mem ((hmem a).1 (List.mem_singleton_self a)), ?_⟩
    intro b hb
    exact List.mem_singleton.1 ((hmem b).2 hb)
  · rintro ⟨hne, hall⟩
    refine ⟨List.pairwise_singleton _ a, fun b => ?_⟩
    rw [List.mem_singleton]
    refine ⟨?_, hall b⟩
    rintro rfl
    obtain ⟨c, hc⟩ := List.exists_mem_of_ne_nil xs hne
    exact hall c hc ▸ hc

end Distinct

variable {classId : ClassId} {c : Column} {names : List String}

/-- No name, one name or several: what is left of the names when repetitions are dropped. -/
theorem uniqueName_cases (classId : ClassId) (c : Column) (names : List String) :
    (names = [] ∧ uniqueName classId c names = .error (.unmapped classId c)) ∨
    (∃ name, (names ≠ [] ∧ ∀ other ∈ names, other = name) ∧
      uniqueName classId c names = .ok name) ∨
    ((∃ a ∈ names, ∃ b ∈ names, a ≠ b) ∧
      uniqueName classId c names = .error (.ambiguous classId c (distinct Text.order names))) := by
  unfold uniqueName
  match hleft : distinct Text.order names with
  | [] => exact .inl ⟨(distinct_eq_nil_iff Text.order).1 hleft, rfl⟩
  | [name] => exact .inr (.inl ⟨name, (distinct_eq_singleton_iff Text.order).1 hleft, rfl⟩)
  | a :: b :: rest =>
    refine .inr (.inr ⟨?_, rfl⟩)
    have hmem {name : String} (h : name ∈ a :: b :: rest) : name ∈ names :=
      (mem_distinct_iff Text.order).1 (hleft ▸ h)
    have hrising := hleft ▸ pairwise_distinct Text.order names
    refine ⟨a, hmem (by simp), b, hmem (by simp), ?_⟩
    rintro rfl
    have hlt := (List.pairwise_cons.1 hrising).1 a List.mem_cons_self
    rw [Text.order_self] at hlt
    cases hlt

theorem uniqueName_eq_ok_iff {name : String} :
    uniqueName classId c names = .ok name ↔ names ≠ [] ∧ ∀ other ∈ names, other = name := by
  rcases uniqueName_cases classId c names with ⟨rfl, h⟩ | ⟨only, ⟨hne, hall⟩, h⟩ |
    ⟨⟨a, ha, b, hb, hab⟩, h⟩
  · simp [h]
  · rw [h, Except.ok.injEq]
    constructor
    · rintro rfl
      exact ⟨hne, hall⟩
    · rintro ⟨-, hname⟩
      obtain ⟨other, hother⟩ := List.exists_mem_of_ne_nil names hne
      exact (hall other hother).symm.trans (hname other hother)
  · rw [h]
    refine ⟨fun hok => (by cases hok), ?_⟩
    rintro ⟨-, hall⟩
    exact absurd ((hall a ha).trans (hall b hb).symm) hab

theorem uniqueName_eq_unmapped_iff {k : ClassId} {d : Column} :
    uniqueName classId c names = .error (.unmapped k d) ↔ names = [] ∧ k = classId ∧ d = c := by
  rcases uniqueName_cases classId c names with ⟨rfl, h⟩ | ⟨only, ⟨hne, -⟩, h⟩ | ⟨⟨a, ha, -⟩, h⟩
  · simp [h, eq_comm]
  · simp [h, hne]
  · simp [h, List.ne_nil_of_mem ha]

/-- Several names are refused together, as they stand without order and repetition. -/
theorem uniqueName_eq_ambiguous_iff {k : ClassId} {d : Column} {several : List String} :
    uniqueName classId c names = .error (.ambiguous k d several) ↔
      (∃ a ∈ names, ∃ b ∈ names, a ≠ b) ∧ k = classId ∧ d = c ∧
        several = distinct Text.order names := by
  rcases uniqueName_cases classId c names with ⟨rfl, h⟩ | ⟨only, ⟨-, hall⟩, h⟩ | ⟨hseveral, h⟩
  · simp [h]
  · rw [h]
    refine ⟨fun herror => (by cases herror), ?_⟩
    rintro ⟨⟨a, ha, b, hb, hab⟩, -⟩
    exact absurd ((hall a ha).trans (hall b hb).symm) hab
  · rw [h, Except.error.injEq, FlagError.ambiguous.injEq]
    constructor
    · rintro ⟨rfl, rfl, rfl⟩
      exact ⟨hseveral, rfl, rfl, rfl⟩
    · rintro ⟨-, rfl, rfl, rfl⟩
      exact ⟨rfl, rfl, rfl⟩

/-- What a column is called on a class depends on the set of its names. It is the only name, if all
that are given are equal; without names it is unmapped, and several names are refused with all of
them, each once and in the order of their bytes. -/
theorem uniqueName_by_members (classId : ClassId) (c : Column) (names : List String) :
    (∀ name, uniqueName classId c names = .ok name ↔
      names ≠ [] ∧ ∀ other ∈ names, other = name) ∧
    (∀ k d, uniqueName classId c names = .error (.unmapped k d) ↔
      names = [] ∧ k = classId ∧ d = c) ∧
    ((∃ a ∈ names, ∃ b ∈ names, a ≠ b) → ∃ several,
      uniqueName classId c names = .error (.ambiguous classId c several)) ∧
    (∀ k d several, uniqueName classId c names = .error (.ambiguous k d several) ↔
      (∃ a ∈ names, ∃ b ∈ names, a ≠ b) ∧ k = classId ∧ d = c ∧
        several.Pairwise (Text.bytes · < Text.bytes ·) ∧ ∀ name, name ∈ several ↔ name ∈ names) ∧
    ∀ others : List String, (∀ name, name ∈ others ↔ name ∈ names) →
      uniqueName classId c others = uniqueName classId c names := by
  refine ⟨fun name => uniqueName_eq_ok_iff, fun k d => uniqueName_eq_unmapped_iff, ?_, ?_, ?_⟩
  · intro hseveral
    exact ⟨_, uniqueName_eq_ambiguous_iff.2 ⟨hseveral, rfl, rfl, rfl⟩⟩
  · intro k d several
    rw [uniqueName_eq_ambiguous_iff, eq_distinct_iff]
    simp only [Text.order_eq_lt_iff]
  · intro others h
    unfold uniqueName
    rw [distinct_congr Text.order h]

/-- A name is given twice, with another one between. -/
def sampleNames : List String := ["value", "alias", "value"]

theorem uniqueName_by_members_sampleNames :
    (∃ a ∈ sampleNames, ∃ b ∈ sampleNames, a ≠ b) ∧
      uniqueName ⟨1⟩ ⟨⟨1⟩, 0, "t", "value", .varchar⟩ sampleNames =
        .error (.ambiguous ⟨1⟩ ⟨⟨1⟩, 0, "t", "value", .varchar⟩ ["alias", "value"]) ∧
      uniqueName ⟨1⟩ ⟨⟨1⟩, 0, "t", "value", .varchar⟩ ["value", "value"] = .ok "value" ∧
      (∀ name, name ∈ ["alias", "value"] ↔ name ∈ sampleNames) ∧
      uniqueName ⟨1⟩ ⟨⟨1⟩, 0, "t", "value", .varchar⟩ ["alias", "value"] =
        uniqueName ⟨1⟩ ⟨⟨1⟩, 0, "t", "value", .varchar⟩ sampleNames := by
  have hdiffer : ∃ a ∈ sampleNames, ∃ b ∈ sampleNames, a ≠ b := by decide
  have hmembers : ∀ name, name ∈ ["alias", "value"] ↔ name ∈ sampleNames := by
    intro name
    grind [sampleNames]
  have hrising : ["alias", "value"].Pairwise (Text.bytes · < Text.bytes ·) := by decide
  obtain ⟨-, -, -, hambiguous, hothers⟩ :=
    uniqueName_by_members ⟨1⟩ ⟨⟨1⟩, 0, "t", "value", .varchar⟩ sampleNames
  obtain ⟨hname, -⟩ :=
    uniqueName_by_members ⟨1⟩ ⟨⟨1⟩, 0, "t", "value", .varchar⟩ ["value", "value"]
  exact ⟨hdiffer, (hambiguous _ _ _).2 ⟨hdiffer, rfl, rfl, hrising, hmembers⟩,
    (hname "value").2 ⟨by decide, by decide⟩, hmembers, hothers _ hmembers⟩

end RowFlags
