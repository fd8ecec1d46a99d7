import Mathlib.Data.List.Nodup
import RowFlags.Proofs.Outcome
import RowFlags.Schema.Table

/-!
# Tables and their columns

A table is made of exactly what it carries (`Table.create_eq_ok_iff`), and a column of it is one of
the declarations at its place (`Table.mem_columns_iff`). So within a table a column is known by its
name, and by its place, and the column of a name is the declaration of that name
(`Table.column_eq_ok_iff`).
-/

set_option autoImplicit false

namespace RowFlags.Table

theorem firstRepeated_eq_none_iff {seen names : List String} :
    firstRepeated seen names = none ↔ names.Nodup ∧ ∀ name ∈ names, name ∉ seen := by
  refine ⟨nodup_of_firstRepeated, ?_⟩
  rintro ⟨hnodup, hseen⟩
  induction names generalizing seen with
  | nil => rfl
  | cons name rest ih =>
    obtain ⟨hother, hrest⟩ := List.nodup_cons.1 hnodup
    rw [firstRepeated, if_neg (hseen name List.mem_cons_self)]
    refine ih hrest fun other hmem hold => ?_
    rcases List.mem_cons.1 hold with rfl | hold
    · exact hother hmem
    · exact hseen other (List.mem_cons_of_mem _ hmem) hold

/-- A table is made exactly of what it carries. -/
theorem create_eq_ok_iff {id : TableId} {name : String} {declared : List ColumnDeclaration}
    {t : Table} :
    create id name declared = .ok t ↔ t.id = id ∧ t.name = name ∧ t.declared = declared := by
  constructor
  · intro h
    unfold create at h
    split at h
    · cases h
    · split at h
      · cases h
      · cases h
        exact ⟨rfl, rfl, rfl⟩
  · rintro ⟨rfl, rfl, rfl⟩
    have hrepeated : firstRepeated [] (t.declared.map ColumnDeclaration.name) = none :=
      firstRepeated_eq_none_iff.2 ⟨t.nodup, fun _ _ hmem => nomatch hmem⟩
    unfold create
    rw [dif_neg t.nonempty]
    split
    · next hsome =>
      rw [hrepeated] at hsome
      cases hsome
    · rfl

/-- A column of a table is a declaration at its place. -/
theorem mem_columns_iff {t : Table} {c : Column} :
    c ∈ t.columns ↔
      ∃ i d, t.declared[i]? = some d ∧ c = ⟨t.id, i, t.name, d.name, d.type⟩ := by
  rw [List.mem_iff_getElem?]
  constructor
  · rintro ⟨i, hi⟩
    rw [columns_getElem?, Option.map_eq_some_iff] at hi
    obtain ⟨d, hd, rfl⟩ := hi
    exact ⟨i, d, hd, rfl⟩
  · rintro ⟨i, d, hd, rfl⟩
    exact ⟨i, by rw [columns_getElem?, hd]; rfl⟩

theorem table_of_mem_columns {t : Table} {c : Column} (h : c ∈ t.columns) : c.table = t.id := by
  obtain ⟨i, d, -, rfl⟩ := mem_columns_iff.1 h
  rfl

/-- What a column has of its declaration, listed. -/
theorem map_columns {α : Type} (t : Table) {f : Column → α} {g : ColumnDeclaration → α}
    (h : ∀ i d, f ⟨t.id, i, t.name, d.name, d.type⟩ = g d) :
    t.columns.map f = t.declared.map g := by
  apply List.ext_getElem?
  intro i
  rw [List.getElem?_map, columns_getElem?, List.getElem?_map, Option.map_map]
  exact congrArg (t.declared[i]?.map ·) (funext (h i))

/-- The column that stands at a place is the only one that knows the place as its own. -/
theorem columns_position {t : Table} {c : Column} (h : c ∈ t.columns) :
    t.columns[c.position]? = some c := by
  obtain ⟨i, d, hd, rfl⟩ := mem_columns_iff.1 h
  rw [columns_getElem?, hd]
  rfl

theorem position_of_getElem? {t : Table} {i : Nat} {c : Column} (h : t.columns[i]? = some c) :
    c.position = i := by
  rw [columns_getElem?, Option.map_eq_some_iff] at h
  obtain ⟨d, -, rfl⟩ := h
  rfl

theorem nodup_name_columns (t : Table) : (t.columns.map Column.name).Nodup := by
  rw [t.map_columns fun _ _ => rfl]
  exact t.nodup

/-- No two columns of a table have one name. -/
theorem eq_of_name_eq {t : Table} {c d : Column} (hc : c ∈ t.columns) (hd : d ∈ t.columns)
    (hname : c.name = d.name) : c = d :=
  List.inj_on_of_nodup_map t.nodup_name_columns hc hd hname

/-- Columns of one table are told apart by their places. -/
theorem eq_of_identity_eq {t : Table} {c d : Column} (hc : c ∈ t.columns) (hd : d ∈ t.columns)
    (h : c.identity = d.identity) : c = d := by
  have hplace : c.position = d.position := (Prod.ext_iff.1 h).2
  have hfound := columns_position hc
  rw [hplace, columns_position hd] at hfound
  exact (Option.some.inj hfound).symm

/-- A column is found by its name, and nothing else is. -/
theorem column_eq_ok_iff_mem {t : Table} {name : String} {c : Column} :
    t.column name = .ok c ↔ c ∈ t.columns ∧ c.name = name := by
  have hfind : t.column name = .ok c ↔ t.column? name = some c := by
    unfold column
    cases t.column? name <;> simp
  rw [hfind, column?]
  constructor
  · intro h
    exact ⟨List.mem_of_find?_eq_some h, by simpa using List.find?_some h⟩
  · rintro ⟨hmem, rfl⟩
    cases hfound : t.columns.find? (·.name = c.name) with
    | none => simpa using List.find?_eq_none.1 hfound c hmem
    | some d =>
      have hname : d.name = c.name := by simpa using List.find?_some hfound
      rw [eq_of_name_eq (List.mem_of_find?_eq_some hfound) hmem hname]

/-- The column of a name is one of the table's. -/
theorem mem_columns_of_column {t : Table} {name : String} {c : Column}
    (h : t.column name = .ok c) : c ∈ t.columns := (column_eq_ok_iff_mem.1 h).1

theorem name_of_column {t : Table} {name : String} {c : Column} (h : t.column name = .ok c) :
    c.name = name := (column_eq_ok_iff_mem.1 h).2

/-- A column is found by the name that it was declared with, at its place and with its type. -/
theorem column_eq_ok_iff {t : Table} {name : String} {c : Column} :
    t.column name = .ok c ↔ ∃ i d, t.declared[i]? = some d ∧ d.name = name ∧
      c = ⟨t.id, i, t.name, d.name, d.type⟩ := by
  rw [column_eq_ok_iff_mem, mem_columns_iff]
  constructor
  · rintro ⟨⟨i, d, hd, rfl⟩, hname⟩
    exact ⟨i, d, hd, hname, rfl⟩
  · rintro ⟨i, d, hd, hname, rfl⟩
    exact ⟨⟨i, d, hd, rfl⟩, hname⟩

/-- What belongs to a table by its number and place is a column of it. -/
theorem contains_iff {t u : Table} {c : Column} (hc : c ∈ u.columns)
    (hsame : u.id = t.id → u = t) : t.contains c = true ↔ c ∈ t.columns := by
  unfold contains
  rw [Bool.and_eq_true, decide_eq_true_eq, decide_eq_true_eq]
  constructor
  · rintro ⟨htable, -⟩
    rwa [← hsame ((table_of_mem_columns hc).symm.trans htable)]
  · intro hmem
    obtain ⟨hplace, -⟩ := List.getElem?_eq_some_iff.1 (columns_position hmem)
    rw [length_columns] at hplace
    exact ⟨table_of_mem_columns hmem, hplace⟩

theorem contains_of_mem {t : Table} {c : Column} (hc : c ∈ t.columns) : t.contains c = true :=
  (contains_iff hc fun _ => rfl).2 hc

end RowFlags.Table
