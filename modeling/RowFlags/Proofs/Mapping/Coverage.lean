import Mathlib.Data.List.Nodup
import RowFlags.Proofs.Mapping.WellFormed

/-!
# What a draft maps

The properties of a mapping are those of the parent, then one for each entry of the draft, then, if
every column is asked for, one for each column that is left and whose name is free
(`Draft.exists_properties`). The parent's properties are so the first of the class's own. A column
is passed over only because another one has its name for an attribute
(`Draft.mapsColumn_eq_false_iff`).
-/

set_option autoImplicit false

namespace RowFlags

namespace Mapping

theorem mapsColumn_eq_false_iff {m : Mapping} {c : Column} :
    m.mapsColumn c = false ↔ ∀ p ∈ m.properties, p.column ≠ c := by
  simp [mapsColumn]

end Mapping

namespace Draft

/-- The column is mapped, or its name is an attribute. -/
def taken (properties : List Property) (c : Column) : Bool :=
  properties.any fun p => p.column = c || p.key = c.name

theorem taken_eq_false_iff {properties : List Property} {c : Column} :
    taken properties c = false ↔ ∀ p ∈ properties, p.column ≠ c ∧ p.key ≠ c.name := by
  simp [taken]

theorem addColumn_eq (properties : List Property) (c : Column) :
    addColumn properties c =
      if taken properties c then properties else properties ++ [⟨c.name, c⟩] := rfl

/-- The columns that are not taken, each under its own name. -/
def leftover (properties : List Property) (columns : List Column) : List Property :=
  (columns.filter fun c => !taken properties c).map fun c => ⟨c.name, c⟩

theorem mem_leftover_iff {properties : List Property} {columns : List Column} {p : Property} :
    p ∈ leftover properties columns ↔
      p.column ∈ columns ∧ taken properties p.column = false ∧ p.key = p.column.name := by
  simp only [leftover, List.mem_map, List.mem_filter, Bool.not_eq_true']
  constructor
  · rintro ⟨c, ⟨hc, hfree⟩, rfl⟩
    exact ⟨hc, hfree, rfl⟩
  · rintro ⟨hc, hfree, hkey⟩
    exact ⟨p.column, ⟨hc, hfree⟩, by rw [← hkey]⟩

/-- Columns of different names do not take each other's place: those are added that are not taken
from the start. -/
theorem foldl_addColumn_eq {columns : List Column} (hnames : (columns.map Column.name).Nodup)
    (properties : List Property) :
    columns.foldl addColumn properties = properties ++ leftover properties columns := by
  induction columns generalizing properties with
  | nil => simp [leftover]
  | cons c rest ih =>
    rw [List.map_cons, List.nodup_cons] at hnames
    obtain ⟨hother, hrest⟩ := hnames
    rw [List.foldl_cons, ih hrest, addColumn_eq]
    cases htaken : taken properties c with
    | true => simp [leftover, htaken]
    | false =>
      have hleft : leftover (properties ++ [⟨c.name, c⟩]) rest = leftover properties rest := by
        unfold leftover
        congr 1
        apply List.filter_congr
        intro d hd
        have hname : c.name ≠ d.name := fun heq => hother (heq ▸ List.mem_map_of_mem hd)
        have hcolumn : c ≠ d := fun heq => hname (congrArg Column.name heq)
        simp [taken, hname, hcolumn]
      rw [if_neg Bool.false_ne_true, hleft, List.append_assoc]
      congr 1
      simp [leftover, htaken]

/-- A property for the entry of a draft. -/
def Answers (d : Draft) (entry : String × String) (p : Property) : Prop :=
  p.key = entry.1 ∧ d.table.column entry.2 = .ok p.column

theorem exists_of_addEntries {d : Draft} {entries : List (String × String)}
    {properties result : List Property} (h : d.addEntries properties entries = .ok result) :
    ∃ named, List.Forall₂ d.Answers entries named ∧ result = properties ++ named := by
  induction entries generalizing properties with
  | nil =>
    cases h
    exact ⟨[], .nil, (List.append_nil _).symm⟩
  | cons entry rest ih =>
    unfold addEntries at h
    split at h
    · cases h
    · obtain ⟨c, hc, h⟩ := Outcome.bind_eq_ok_iff.1 h
      obtain ⟨named, hnamed, rfl⟩ := ih h
      exact ⟨⟨entry.1, c⟩ :: named, .cons ⟨rfl, hc⟩ hnamed, by simp⟩

/-- The properties that a draft starts from. -/
def start (d : Draft) : List Property := (d.parent.map Mapping.properties).getD []

theorem eq_start_of_inherited {d : Draft} {properties : List Property}
    (h : d.inherited = .ok properties) :
    properties = d.start ∧ ∀ parent, d.parent = some parent → parent.table.id = d.table.id := by
  unfold inherited at h
  unfold start
  split at h
  · next hnone =>
    cases h
    rw [hnone]
    exact ⟨rfl, fun parent hparent => by cases hparent⟩
  · next parent hsome =>
    split at h
    · next htable =>
      cases h
      rw [hsome]
      refine ⟨rfl, ?_⟩
      rintro _ ⟨⟩
      exact htable
    · cases h

/-- The properties of a mapping are the parent's, those of the entries, and, if every column is
asked for, those of the columns that are left. -/
theorem exists_properties {d : Draft} {id : ClassId} {m : Mapping} (h : d.build id = .ok m) :
    ∃ named, List.Forall₂ d.Answers d.entries named ∧
      m.properties = d.start ++ named ++
        if d.allColumns then leftover (d.start ++ named) d.table.columns else [] := by
  obtain ⟨properties, hstart, h⟩ := Outcome.bind_eq_ok_iff.1 h
  obtain ⟨result, hresult, h⟩ := Outcome.bind_eq_ok_iff.1 h
  obtain ⟨discriminator, -, h⟩ := Outcome.bind_eq_ok_iff.1 h
  cases h
  obtain ⟨rfl, -⟩ := eq_start_of_inherited hstart
  obtain ⟨named, hnamed, rfl⟩ := exists_of_addEntries hresult
  refine ⟨named, hnamed, ?_⟩
  dsimp only
  split
  · exact foldl_addColumn_eq d.table.nodup_name_columns _
  · exact (List.append_nil _).symm

/-- A class shows what its parent shows, in the same order, before anything of its own. -/
theorem start_prefix {d : Draft} {id : ClassId} {m : Mapping} (h : d.build id = .ok m) :
    d.start <+: m.properties := by
  obtain ⟨named, -, hproperties⟩ := exists_properties h
  rw [hproperties, List.append_assoc]
  exact List.prefix_append _ _

theorem table_of_parent {d : Draft} {id : ClassId} {m : Mapping} (h : d.build id = .ok m)
    {parent : Mapping} (hparent : d.parent = some parent) : parent.table.id = m.table.id := by
  obtain ⟨-, htable, -⟩ := of_build h
  obtain ⟨properties, hstart, -⟩ := Outcome.bind_eq_ok_iff.1 h
  rw [htable]
  exact (eq_start_of_inherited hstart).2 parent hparent

/-- No entry maps a column exactly if no entry gives its name. -/
theorem forall_column_ne_iff {d : Draft} {entries : List (String × String)} {named : List Property}
    (h : List.Forall₂ d.Answers entries named) {c : Column} (hc : c ∈ d.table.columns) :
    (∀ p ∈ named, p.column ≠ c) ↔ ∀ entry ∈ entries, entry.2 ≠ c.name := by
  induction h with
  | nil => simp
  | @cons entry p entries named hanswers _ ih =>
    rw [List.forall_mem_cons, List.forall_mem_cons, ih]
    refine and_congr_left fun _ => not_congr ?_
    obtain ⟨-, hcolumn⟩ := hanswers
    have hname := Table.name_of_column hcolumn
    constructor
    · rintro rfl
      exact hname.symm
    · intro heq
      exact Table.eq_of_name_eq (Table.mem_columns_of_column hcolumn) hc (hname.trans heq)

/-- A draft of every column leaves out those that neither the parent nor an entry maps and whose
names are attributes of other columns. -/
theorem mapsColumn_eq_false_iff {d : Draft} {id : ClassId} {m : Mapping} (h : d.build id = .ok m)
    (hall : d.allColumns = true) {c : Column} (hc : c ∈ d.table.columns) :
    m.mapsColumn c = false ↔
      (∀ parent, d.parent = some parent → parent.mapsColumn c = false) ∧
        (∀ entry ∈ d.entries, entry.2 ≠ c.name) ∧
        ∃ p ∈ m.properties, p.key = c.name ∧ p.column ≠ c := by
  obtain ⟨named, hnamed, hproperties⟩ := exists_properties h
  rw [if_pos hall] at hproperties
  have hstart : (∀ parent, d.parent = some parent → parent.mapsColumn c = false) ↔
      ∀ p ∈ d.start, p.column ≠ c := by
    unfold start
    cases d.parent with
    | none => simp
    | some parent => simp [Mapping.mapsColumn_eq_false_iff]
  rw [hstart, ← forall_column_ne_iff hnamed hc, ← and_assoc, ← List.forall_mem_append,
    Mapping.mapsColumn_eq_false_iff]
  simp only [hproperties]
  rw [List.forall_mem_append]
  constructor
  · rintro ⟨hearly, hlate⟩
    refine ⟨hearly, ?_⟩
    -- the column was not added, so its name was an attribute before
    have htaken : taken (d.start ++ named) c = true := by
      rw [← Bool.not_eq_false]
      intro hfree
      exact hlate ⟨c.name, c⟩ (mem_leftover_iff.2 ⟨hc, hfree, rfl⟩) rfl
    obtain ⟨p, hp, htakes⟩ := List.any_eq_true.1 htaken
    have hne : p.column ≠ c := hearly p hp
    refine ⟨p, List.mem_append_left _ hp, ?_, hne⟩
    simpa [hne] using htakes
  · rintro ⟨hearly, q, hq, hkey, hother⟩
    refine ⟨hearly, ?_⟩
    rintro p hp rfl
    obtain ⟨-, hfree, -⟩ := mem_leftover_iff.1 hp
    rcases List.mem_append.1 hq with hq | hq
    · exact (taken_eq_false_iff.1 hfree q hq).2 hkey
    · -- two columns that are added under one name are one column
      obtain ⟨hcolumn, -, hname⟩ := mem_leftover_iff.1 hq
      exact hother (Table.eq_of_name_eq hcolumn hc (hname.symm.trans hkey))

end Draft

end RowFlags
