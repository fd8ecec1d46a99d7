import RowFlags.Mapping.Catalog
import RowFlags.Proofs.Schema.Table

/-!
# Well-formed mappings

Mappings that come from drafts bind each attribute once, bind columns of their own table only, and
keep their discriminator among their attributes (`Mapping.WellFormed`). A draft takes this over from
its parent and adds to it, one property at a time.
-/

set_option autoImplicit false

namespace RowFlags

/-- Properties that bind each attribute once, to columns of a table. -/
structure BindsOnce (t : Table) (properties : List Property) : Prop where
  nodup : (properties.map Property.key).Nodup
  own : ∀ p ∈ properties, p.column ∈ t.columns

theorem BindsOnce.append {t : Table} {properties : List Property} (h : BindsOnce t properties)
    {key : String} {c : Column} (hkey : ∀ p ∈ properties, p.key ≠ key) (hc : c ∈ t.columns) :
    BindsOnce t (properties ++ [⟨key, c⟩]) := by
  constructor
  · rw [List.map_append, List.nodup_append]
    refine ⟨h.nodup, by simp, ?_⟩
    intro a ha b hb
    obtain ⟨p, hp, rfl⟩ := List.mem_map.1 ha
    obtain rfl : b = key := by simpa using hb
    exact hkey p hp
  · intro p hp
    rcases List.mem_append.1 hp with hp | hp
    · exact h.own p hp
    · obtain rfl := List.mem_singleton.1 hp
      exact hc

/-- What drafts make of mappings. -/
structure Mapping.WellFormed (m : Mapping) : Prop where
  binds : BindsOnce m.table m.properties
  identified : ∀ d, m.discriminator = some d → m.hasAttribute d.key = true

namespace Mapping

theorem hasAttribute_iff {m : Mapping} {key : String} :
    m.hasAttribute key = true ↔ ∃ p ∈ m.properties, p.key = key := by
  simp [hasAttribute, property?]

/-- The only attribute of a column. -/
theorem exists_of_namesOf_eq_singleton {m : Mapping} {c : Column} {key : String}
    (h : m.namesOf c = [key]) : ∃ p ∈ m.properties, p.column = c ∧ p.key = key :=
  mem_namesOf_iff.1 (by rw [h]; exact List.mem_singleton_self key)

end Mapping

namespace Draft

theorem bindsOnce_addEntries {d : Draft} {entries : List (String × String)}
    {properties result : List Property} (h : BindsOnce d.table properties)
    (hadd : d.addEntries properties entries = .ok result) : BindsOnce d.table result := by
  induction entries generalizing properties with
  | nil =>
    cases hadd
    exact h
  | cons entry rest ih =>
    unfold addEntries at hadd
    split at hadd
    · cases hadd
    · next hfree =>
      obtain ⟨c, hc, hadd⟩ := Outcome.bind_eq_ok_iff.1 hadd
      refine ih (h.append ?_ (Table.mem_columns_of_column hc)) hadd
      simpa using hfree

theorem bindsOnce_addColumn {t : Table} {properties : List Property}
    (h : BindsOnce t properties) {c : Column} (hc : c ∈ t.columns) :
    BindsOnce t (addColumn properties c) := by
  unfold addColumn
  split
  · exact h
  · next hfree =>
    refine h.append ?_ hc
    intro p hp hkey
    simp only [List.any_eq_true, Bool.or_eq_true, decide_eq_true_eq, not_exists, not_and] at hfree
    exact hfree p hp (.inr hkey)

theorem bindsOnce_foldl_addColumn {t : Table} {columns : List Column}
    (hcolumns : ∀ c ∈ columns, c ∈ t.columns) {properties : List Property}
    (h : BindsOnce t properties) : BindsOnce t (columns.foldl addColumn properties) := by
  induction columns generalizing properties with
  | nil => exact h
  | cons c rest ih =>
    rw [List.foldl_cons]
    exact ih (fun other hother => hcolumns other (List.mem_cons_of_mem _ hother))
      (bindsOnce_addColumn h (hcolumns c List.mem_cons_self))

theorem bindsOnce_inherited {d : Draft} {properties : List Property}
    (h : d.inherited = .ok properties)
    (hparent : ∀ parent, d.parent = some parent → parent.WellFormed ∧
      (parent.table.id = d.table.id → parent.table = d.table)) :
    BindsOnce d.table properties := by
  unfold inherited at h
  split at h
  · cases h
    refine ⟨List.nodup_nil, ?_⟩
    intro p hp
    cases hp
  · next parent heq =>
    split at h
    · next htable =>
      cases h
      obtain ⟨hwell, hsame⟩ := hparent parent heq
      rw [← hsame htable]
      exact hwell.binds
    · cases h

theorem mem_of_discriminator {d : Draft} {properties : List Property} {r : Option Discriminator}
    (h : d.discriminator properties = .ok r) {x : Discriminator} (hx : r = some x) :
    ∃ p ∈ properties, p.key = x.key := by
  subst hx
  unfold discriminator at h
  split at h
  · cases h
  · split at h
    · cases h
    · split at h
      · next hany =>
        cases h
        simpa using hany
      · cases h

/-- The mapping of a draft is well formed, if the parent is and shares the draft's table. -/
theorem wellFormed_of_build {d : Draft} {id : ClassId} {m : Mapping} (h : d.build id = .ok m)
    (hparent : ∀ parent, d.parent = some parent → parent.WellFormed ∧
      (parent.table.id = d.table.id → parent.table = d.table)) : m.WellFormed := by
  obtain ⟨start, hstart, h⟩ := Outcome.bind_eq_ok_iff.1 h
  obtain ⟨named, hnamed, h⟩ := Outcome.bind_eq_ok_iff.1 h
  obtain ⟨discriminator, hdiscriminator, h⟩ := Outcome.bind_eq_ok_iff.1 h
  cases h
  constructor
  · have hbinds := bindsOnce_addEntries (bindsOnce_inherited hstart hparent) hnamed
    dsimp only
    split
    · exact bindsOnce_foldl_addColumn (fun c hc => hc) hbinds
    · exact hbinds
  · intro x hx
    rw [Mapping.hasAttribute_iff]
    exact mem_of_discriminator hdiscriminator hx

theorem of_build {d : Draft} {id : ClassId} {m : Mapping} (h : d.build id = .ok m) :
    m.id = id ∧ m.table = d.table ∧ m.parent = d.parent.map Mapping.id := by
  obtain ⟨start, -, h⟩ := Outcome.bind_eq_ok_iff.1 h
  obtain ⟨named, -, h⟩ := Outcome.bind_eq_ok_iff.1 h
  obtain ⟨discriminator, -, h⟩ := Outcome.bind_eq_ok_iff.1 h
  cases h
  exact ⟨rfl, rfl, rfl⟩

end Draft

end RowFlags
