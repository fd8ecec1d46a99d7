import RowFlags.Proofs.Session.Held
import RowFlags.Proofs.Store.Agreement

/-!
# Inherited flags

A model may carry on the flags of another, on a class that inherits from the other's. The flag is
shared, but it is registered with each class on its own, and the classes may show different
attributes. Still it reads the same of a row through both models (`Store.getFlag_inherited`): a class
shows what its parent shows, and since both models could be built, neither class shows a column of
the flag under two attributes.
-/

set_option autoImplicit false

namespace RowFlags

/-! ## One attribute a column -/

namespace Mapping

/-- A column that has a unique name among attributes that are bound once has one attribute. -/
theorem WellFormed.namesOf_eq_singleton {m : Mapping} (h : m.WellFormed) {c : Column} {key : String}
    (hunique : uniqueName m.id c (m.namesOf c) = .ok key) : m.namesOf c = [key] := by
  have hnodup : (m.namesOf c).Nodup :=
    h.binds.nodup.sublist (List.filter_sublist.map Property.key)
  have honly : ∀ other ∈ m.namesOf c, other = key := by
    intro other hother
    unfold uniqueName at hunique
    split at hunique
    · cases hunique
    · next only hone =>
      cases hunique
      have hlisted := (mem_distinct_iff Text.order).2 hother
      rw [hone] at hlisted
      exact List.mem_singleton.1 hlisted
    · cases hunique
  have hsame := List.eq_replicate_of_mem honly
  have hmem := mem_of_uniqueName hunique
  rw [hsame] at hnodup hmem ⊢
  have hle := List.nodup_replicate.1 hnodup
  have hpos : (m.namesOf c).length ≠ 0 := (List.mem_replicate.1 hmem).1
  obtain hone : (m.namesOf c).length = 1 := by omega
  rw [hone]
  rfl

end Mapping

namespace Session

/-- The class of a model shows a column of its prefetching flag under one attribute, if at all. -/
theorem Built.exists_namesOf_eq_singleton {before now : Session} {catalogName : String}
    {model : Model} (h : Built before catalogName model now) {name : String} {f : Flag}
    (hf : model.flag name = .ok f) (hprefetched : f.resolver.strategy = .prefetched)
    (hhand : (f.id, model.mapping.id) ∉ before.byHand) {c : Column} (hc : c ∈ f.columns)
    (hmapped : c ∈ model.mapping.columns) : ∃ key, model.mapping.namesOf c = [key] := by
  obtain ⟨names, -, hcollect⟩ := h.exists_recorded hf hprefetched hhand
  have htracked : c ∈ model.mapping.columns.filter (· ∈ f.columns) :=
    List.mem_filter.2 ⟨hmapped, by simpa using hc⟩
  obtain ⟨key, hkey, -⟩ := Registry.lookup_of_collect hcollect htracked
  exact ⟨key, h.wellFormed.namesOf_eq_singleton hkey⟩

/-! ## Chains of classes and models -/

/-- The class inherits from the root, directly or through others, in the catalog. -/
inductive Descends (s : Session) (catalogName : String) (root : Mapping) : Mapping → Prop
  | refl : Descends s catalogName root root
  | step {m child : Mapping} (h : Descends s catalogName root m) (hheld : s.Holds catalogName child)
      (hparent : child.parent = some m.id) : Descends s catalogName root child

/-- The model carries on the flags of the root, directly or through others, and none of them puts
another flag in the place of `name`. -/
inductive CarriesOn (s : Session) (catalogName name : String) (root : Model) : Model → Prop
  | refl : CarriesOn s catalogName name root root
  | step {model : Model} (h : CarriesOn s catalogName name root model) {m : Mapping}
      (hm : s.Descends catalogName model.mapping m) {own : List (String × Flag)}
      (hown : ∀ entry ∈ own, entry.1 ≠ name) :
      CarriesOn s catalogName name root ⟨m, model.carryOn own⟩

section Chains

variable {s : Session} {catalogName name : String}

/-- A class shows what its parent shows, on the same table. -/
theorem Reached.table_and_prefix (hs : s.Reached) {m child : Mapping}
    (hm : s.Holds catalogName m) (hheld : s.Holds catalogName child)
    (hparent : child.parent = some m.id) :
    m.table = child.table ∧ m.properties <+: child.properties := by
  obtain ⟨before, draft, hmaps⟩ := hs.exists_maps hheld
  obtain ⟨parent, -, hfind, htable, -, hprefix⟩ := hmaps.orderly.parent m.id hparent
  obtain rfl : m = parent := Option.some.inj ((hs.sound.mapping?_eq hm).symm.trans hfind)
  exact ⟨htable, hprefix⟩

theorem Descends.trans {root m n : Mapping} (h : s.Descends catalogName root m)
    (k : s.Descends catalogName m n) : s.Descends catalogName root n := by
  induction k with
  | refl => exact h
  | step _ hheld hparent ih => exact ih.step hheld hparent

/-- A class shows what the root of its chain shows, on the same table. -/
theorem Descends.inherits {root m : Mapping} (h : s.Descends catalogName root m) (hs : s.Reached)
    (hroot : s.Holds catalogName root) :
    s.Holds catalogName m ∧ root.table = m.table ∧ root.properties <+: m.properties := by
  induction h with
  | refl => exact ⟨hroot, rfl, List.prefix_refl _⟩
  | step _ hheld hparent ih =>
    obtain ⟨hm, htable, hprefix⟩ := ih
    obtain ⟨hsame, hmore⟩ := hs.table_and_prefix hm hheld hparent
    exact ⟨hheld, htable.trans hsame, hprefix.trans hmore⟩

/-- Flags of other names leave a flag in its place. -/
theorem get?_carryOn {model : Model} {own : List (String × Flag)}
    (hown : ∀ entry ∈ own, entry.1 ≠ name) :
    (model.carryOn own).get? name = model.flags.get? name := by
  unfold Model.carryOn
  generalize model.flags = flags
  induction own generalizing flags with
  | nil => rfl
  | cons entry rest ih =>
    rw [List.foldl_cons, ih fun other hother => hown other (List.mem_cons_of_mem _ hother),
      NameMap.get?_insert, if_neg (hown entry List.mem_cons_self)]

theorem CarriesOn.descends {root model : Model} (h : s.CarriesOn catalogName name root model) :
    s.Descends catalogName root.mapping model.mapping := by
  induction h with
  | refl => exact .refl
  | step _ hm _ ih => exact ih.trans hm

theorem CarriesOn.flag_eq {root model : Model} (h : s.CarriesOn catalogName name root model)
    {f : Flag} (hf : root.flag name = .ok f) : model.flag name = .ok f := by
  induction h with
  | refl => exact hf
  | step _ _ hown ih =>
    rw [Model.flag_eq_ok_iff] at ih ⊢
    exact (get?_carryOn hown).trans ih

end Chains

end Session

/-! ## Reading through both models -/

namespace Store

theorem length_of_values {s : Store} {row : RowId} {values : List Value}
    (h : s.values row = .ok values) : values.length = s.table.declared.length := by
  obtain ⟨data, -, hdecode⟩ := values_eq_ok_iff.1 h
  rw [Stored.length_of_decodeRow hdecode, Table.length_schema]

variable {beforeRoot beforeModel now : Session} {catalogName name : String} {root model : Model}
  {f : Flag}

/-- A row that loads through one of two models of a chain loads through the other, and the flag that
they share reads the same of both objects, or fails in the same way, and then in its condition. The
flag must prefetch, not be registered by hand with either class, and ask for columns that the class
of the root shows. -/
theorem getFlag_inherited (hroot : beforeRoot.Built catalogName root now)
    (hmodel : beforeModel.Built catalogName model now)
    (hchain : now.CarriesOn catalogName name root model) (hflag : root.flag name = .ok f)
    (hprefetched : f.resolver.strategy = .prefetched)
    (hhandRoot : (f.id, root.mapping.id) ∉ beforeRoot.byHand)
    (hhandModel : (f.id, model.mapping.id) ∉ beforeModel.byHand)
    (hmapped : ∀ c ∈ f.columns, c ∈ root.mapping.columns) {s : Store}
    (htable : s.table = root.mapping.table) (row : RowId) :
    ((∃ r, s.load root.mapping row = .ok r) ↔ ∃ r, s.load model.mapping row = .ok r) ∧
      ∀ r own, s.load root.mapping row = .ok r → s.load model.mapping row = .ok own →
        model.getFlag now.workspace own name = root.getFlag now.workspace r name ∧
          ((∃ on, root.getFlag now.workspace r name = .ok on) ∨
            ∃ cause, root.getFlag now.workspace r name = .error (.eval cause)) := by
  obtain ⟨-, hsame, hprefix⟩ := hchain.descends.inherits hroot.reached_now hroot.holds_now
  have hmodelFlag := hchain.flag_eq hflag
  have hrootNames : ∀ c ∈ f.columns, ∃ key, root.mapping.namesOf c = [key] := fun c hc =>
    hroot.exists_namesOf_eq_singleton hflag hprefetched hhandRoot hc (hmapped c hc)
  have hmodelNames : ∀ c ∈ f.columns, ∃ key, model.mapping.namesOf c = [key] := by
    intro c hc
    obtain ⟨p, hp, hcolumn⟩ := Mapping.mem_columns_iff.1 (hmapped c hc)
    exact hmodel.exists_namesOf_eq_singleton hmodelFlag hprefetched hhandModel hc
      (Mapping.mem_columns_iff.2 ⟨p, hprefix.subset hp, hcolumn⟩)
  have hmodelTable : s.table = model.mapping.table := htable.trans hsame
  refine ⟨?_, ?_⟩
  · rw [exists_load_iff hroot.wellFormed htable.symm,
      exists_load_iff hmodel.wellFormed hmodelTable.symm]
  · intro r own hr hown
    rw [load_eq_bind htable.symm] at hr
    rw [load_eq_bind hmodelTable.symm] at hown
    obtain ⟨values, hvalues, hdecode⟩ := Outcome.bind_eq_ok_iff.1 hr
    rw [hvalues, Outcome.ok_bind] at hown
    have hlength := length_of_values hvalues
    rw [getFlag_eq_mapError hmodel hmodelFlag (.inl ⟨hprefetched, hhandModel⟩) hmodelNames
        (hmodelTable ▸ hlength) hown,
      getFlag_eq_mapError hroot hflag (.inl ⟨hprefetched, hhandRoot⟩) hrootNames
        (htable ▸ hlength) hdecode]
    refine ⟨rfl, ?_⟩
    cases evaluateRow f.program values with
    | ok v => exact .inl ⟨v.truthy, rfl⟩
    | error cause => exact .inr ⟨cause, rfl⟩

/-- Crates are boxes, and show the kind under a second attribute. -/
def sampleCrateDraft : Draft :=
  { className := "Crate", table := sampleTable, parent := some sampleBox
    entries := [("label", "kind")], identity := some ⟨none, .string "crate"⟩ }

def sampleCrate : Mapping where
  id := ⟨3⟩
  className := "Crate"
  table := sampleTable
  properties := sampleItem.properties ++ [⟨"label", ⟨⟨1⟩, 0, "item", "kind", .varchar⟩⟩]
  parent := some ⟨2⟩
  discriminator := some ⟨"kind", .string "crate"⟩

/-- Items with the flag. -/
def sampleItems : Model := ⟨sampleItem, NameMap.empty.insert "light" sampleFlag⟩

/-- Boxes, with the flag under another name as well. -/
def sampleBoxes : Model := ⟨sampleBox, sampleItems.carryOn [("easy", sampleFlag)]⟩

def sampleCrates : Model := ⟨sampleCrate, sampleBoxes.carryOn []⟩

/-- The session before the models are built. -/
def sampleClasses : Session := sampleSession.step (.mapClass "main" sampleCrateDraft)

/-- The session after items and boxes are built. -/
def sampleBuilt : Session :=
  (sampleClasses.step (.buildModel sampleItem sampleItems.flags "main")).step
    (.buildModel sampleBox sampleBoxes.flags "main")

/-- The session after all three models are built. -/
def sampleStacked : Session :=
  sampleBuilt.step (.buildModel sampleCrate sampleCrates.flags "main")

theorem reached_sampleClasses : sampleClasses.Reached := by
  refine reached_sampleSession.step _ ⟨by decide, ?_⟩
  intro parent h
  cases h
  exact ⟨"main", by show sampleBox ∈ _; decide⟩

theorem mem_flags_sample {entries : List (String × Flag)} {count : Nat}
    (h : entries.map Prod.snd = List.replicate count sampleFlag) :
    ∀ entry ∈ entries, entry.2 ∈ [sampleFlag] := by
  intro entry hentry
  have hmem : entry.2 ∈ List.replicate count sampleFlag := h ▸ List.mem_map_of_mem hentry
  exact List.mem_singleton.2 (List.eq_of_mem_replicate hmem)

theorem allows_sampleItems :
    sampleClasses.Allows (.buildModel sampleItem sampleItems.flags "main") :=
  ⟨by show sampleItem ∈ _; decide, mem_flags_sample (rfl : _ = List.replicate 1 sampleFlag)⟩

theorem later_sampleBuilt :
    Session.Later (sampleClasses.step (.buildModel sampleItem sampleItems.flags "main"))
      sampleBuilt :=
  .step .refl _
    ⟨by show sampleBox ∈ _; decide, mem_flags_sample (rfl : _ = List.replicate 2 sampleFlag)⟩

theorem allows_sampleCrates :
    sampleBuilt.Allows (.buildModel sampleCrate sampleCrates.flags "main") :=
  ⟨by show sampleCrate ∈ _; decide, mem_flags_sample (rfl : _ = List.replicate 2 sampleFlag)⟩

theorem built_sampleItems : sampleClasses.Built "main" sampleItems sampleStacked where
  reached := reached_sampleClasses
  allows := allows_sampleItems
  built := rfl
  later := later_sampleBuilt.step _ allows_sampleCrates

theorem built_sampleCrates : sampleBuilt.Built "main" sampleCrates sampleStacked where
  reached := .trans (reached_sampleClasses.step _ allows_sampleItems) later_sampleBuilt
  allows := allows_sampleCrates
  built := rfl
  later := .refl

theorem carriesOn_sampleCrates : sampleStacked.CarriesOn "main" "light" sampleItems sampleCrates :=
  .step (.step .refl (.step .refl (by show sampleBox ∈ _; decide) rfl) (by simp))
    (.step .refl (by show sampleCrate ∈ _; decide) rfl) (by simp)

/-- The flag of items is true of a light row also through crates, and fails on the row without
weight through both. -/
theorem getFlag_inherited_sampleCrates :
    ∃ light weightless,
      sampleStore.load sampleCrate ⟨0⟩ = .ok light ∧
      sampleStore.load sampleCrate ⟨1⟩ = .ok weightless ∧
      sampleCrates.getFlag sampleStacked.workspace light "light" = .ok true ∧
      sampleCrates.getFlag sampleStacked.workspace weightless "light" =
        .error (.eval .divisionByZero) := by
  have hmapped : ∀ c ∈ sampleFlag.columns, c ∈ sampleItem.columns := by decide
  have hsame := getFlag_inherited built_sampleItems built_sampleCrates carriesOn_sampleCrates rfl rfl
    (by decide) (by decide) hmapped (rfl : sampleStore.table = sampleItem.table)
  obtain ⟨first, hfirst⟩ : ∃ r, sampleStore.load sampleItem ⟨0⟩ = .ok r := ⟨_, rfl⟩
  obtain ⟨second, hsecond⟩ : ∃ r, sampleStore.load sampleItem ⟨1⟩ = .ok r := ⟨_, rfl⟩
  obtain ⟨light, hlight⟩ := (hsame ⟨0⟩).1.1 ⟨first, hfirst⟩
  obtain ⟨weightless, hweightless⟩ := (hsame ⟨1⟩).1.1 ⟨second, hsecond⟩
  refine ⟨light, weightless, hlight, hweightless, ?_, ?_⟩
  · rw [((hsame ⟨0⟩).2 first light hfirst hlight).1]
    cases hfirst
    rfl
  · rw [((hsame ⟨1⟩).2 second weightless hsecond hweightless).1]
    cases hsecond
    rfl

end Store

end RowFlags
