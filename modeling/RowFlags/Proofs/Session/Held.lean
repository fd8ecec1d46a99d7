import RowFlags.Proofs.Mapping.Coverage
import RowFlags.Proofs.Session.Sound

/-!
# Classes held by catalogs

Every class that a catalog holds was mapped there once, of some draft (`Session.Reached.exists_maps`),
and only mapping changes what a catalog holds. So what a draft makes of a class, and what the session
of that time says of its parent, is true of the class ever after (`Session.Reached.classes_orderly`).
-/

set_option autoImplicit false

namespace RowFlags

/-! ## What acts do to the classes of a catalog -/

namespace Catalog

theorem mapping?_of_mapClass {c result : Catalog} {id : ClassId} {draft : Draft} {m : Mapping}
    (h : c.mapClass id draft = .ok (m, result)) {parent : ClassId} (hparent : m.parent = some parent) :
    ∃ n, c.mapping? parent = some n := by
  obtain ⟨built, hbuilt, h⟩ := Outcome.bind_eq_ok_iff.1 h
  split at h
  · next found hfound =>
    split at h
    · next hheld =>
      cases h
      obtain rfl := Option.some.inj (hfound.symm.trans hparent)
      exact Option.isSome_iff_exists.1 hheld
    · cases h
  · next hnone =>
    cases h
    rw [hnone] at hparent
    cases hparent

end Catalog

namespace Workspace

/-- A class is refused and no catalog changes, or its catalog holds it beside its other classes. -/
theorem mapClass_cases (w : Workspace) (catalogName : String) (draft : Draft) :
    (∃ e, (w.mapClass catalogName draft).1 = .error e ∧
        (w.mapClass catalogName draft).2.catalogs = w.catalogs) ∨
      ∃ m c, (w.mapClass catalogName draft).1 = .ok m ∧
        (w.catalog catalogName).mapClass ⟨w.nextClass⟩ draft = .ok (m, c) ∧
        (w.mapClass catalogName draft).2.catalogs = w.catalogs.insert catalogName c := by
  unfold mapClass
  split
  · next e _ => exact .inl ⟨e, rfl, rfl⟩
  · next m c hmap => exact .inr ⟨m, c, rfl, hmap, rfl⟩

theorem catalogs_of_register {w next : Workspace} {f : Flag} {d : Directory} {classId : ClassId}
    (h : w.register f d classId = .ok next) : next.catalogs = w.catalogs := by
  obtain ⟨registry, -, rfl⟩ := of_register h
  rfl

end Workspace

namespace Session

theorem catalogs_registerAll (s : Session) (m : Mapping) (d : Directory)
    (entries : List (String × Flag)) :
    (Model.registerAll m d entries s.workspace).2.catalogs = s.workspace.catalogs := by
  refine Model.registerAll_keeps (P := fun w => w.catalogs = s.workspace.catalogs) ?_ rfl
  intro entry _ v next hkept hregister
  exact (Workspace.catalogs_of_register hregister).trans hkept

/-- A catalog holds no classes but those that it held before or that are mapped in it. -/
theorem holds_of_holds_step {s : Session} {act : Act} {name : String} {m : Mapping}
    (h : (s.step act).Holds name m) :
    s.Holds name m ∨
      ∃ draft, act = .mapClass name draft ∧ (s.workspace.mapClass name draft).1 = .ok m := by
  have hchanges := s.changes_step act
  generalize s.step act = t at h hchanges
  unfold Holds at h
  cases hchanges with
  | refused | refusedClass | makeTable _ | makeFlag _ | assignFlag => exact .inl h
  | createTable hcreate =>
    dsimp only at h
    rw [Workspace.catalog_of_insert rfl] at h
    split at h
    · next heq =>
      subst heq
      exact .inl h
    · exact .inl h
  | @mapClass catalogName draft made c hmap =>
    dsimp only at h
    rw [Workspace.catalog_of_insert rfl] at h
    split at h
    · next heq =>
      subst heq
      rw [(Catalog.of_mapClass hmap).2.1] at h
      rcases List.mem_append.1 h with hold | hnew
      · exact .inl hold
      · obtain rfl := List.mem_singleton.1 hnew
        refine .inr ⟨draft, rfl, ?_⟩
        rw [Workspace.mapClass, hmap]
    · exact .inl h
  | register hregister =>
    rw [Workspace.catalog_congr (Workspace.catalogs_of_register hregister)] at h
    exact .inl h
  | @buildModel built flags catalogName =>
    have hcatalogs := s.catalogs_registerAll built
      (s.workspace.directoryOf (.catalog catalogName)) flags.entries
    rw [Workspace.catalog_congr hcatalogs] at h
    exact .inl h

/-- The class was mapped of the draft in the first session, and the second is one after that. -/
structure Maps (before : Session) (catalogName : String) (draft : Draft) (m : Mapping)
    (now : Session) : Prop where
  reached : before.Reached
  allows : before.Allows (.mapClass catalogName draft)
  mapped : (before.workspace.mapClass catalogName draft).1 = .ok m
  later : Later (before.step (.mapClass catalogName draft)) now

/-- A class that a catalog holds was mapped in it. -/
theorem Reached.exists_maps {now : Session} (h : now.Reached) {catalogName : String} {m : Mapping}
    (hm : now.Holds catalogName m) : ∃ before draft, Maps before catalogName draft m now := by
  induction h with
  | refl => cases hm
  | @step t ht act hallows ih =>
    rcases holds_of_holds_step hm with hold | ⟨draft, rfl, hmade⟩
    · obtain ⟨before, draft, hmaps⟩ := ih hold
      exact ⟨before, draft, hmaps.reached, hmaps.allows, hmaps.mapped, hmaps.later.step act hallows⟩
    · exact ⟨t, draft, ht, hallows, hmade, .refl⟩

namespace Maps

variable {before now : Session} {catalogName : String} {draft : Draft} {m : Mapping}

theorem exists_mapClass (h : Maps before catalogName draft m now) :
    ∃ c, (before.workspace.catalog catalogName).mapClass ⟨before.workspace.nextClass⟩ draft =
        .ok (m, c) ∧
      (before.workspace.mapClass catalogName draft).2.catalogs =
        before.workspace.catalogs.insert catalogName c := by
  rcases before.workspace.mapClass_cases catalogName draft with
    ⟨e, hrefused, -⟩ | ⟨made, c, hmade, hmap, hcatalogs⟩
  · rw [h.mapped] at hrefused
    cases hrefused
  · obtain rfl := Except.ok.inj (h.mapped.symm.trans hmade)
    exact ⟨c, hmap, hcatalogs⟩

/-- The class is what its draft makes under the number that was next. -/
theorem build_eq (h : Maps before catalogName draft m now) :
    draft.build ⟨before.workspace.nextClass⟩ = .ok m := by
  obtain ⟨c, hmap, -⟩ := h.exists_mapClass
  exact (Catalog.of_mapClass hmap).1

theorem holds (h : Maps before catalogName draft m now) : now.Holds catalogName m := by
  obtain ⟨c, hmap, hcatalogs⟩ := h.exists_mapClass
  refine h.later.extends.holds catalogName m ?_
  unfold Holds
  simp only [step]
  rw [Workspace.catalog_of_insert hcatalogs, if_pos rfl, (Catalog.of_mapClass hmap).2.1]
  exact List.mem_append_right _ (List.mem_singleton_self m)

/-- The parent of the draft was held by the catalog before the class was mapped. -/
theorem holds_parent (h : Maps before catalogName draft m now) {parent : Mapping}
    (hparent : draft.parent = some parent) : before.Holds catalogName parent := by
  obtain ⟨c, hmap, -⟩ := h.exists_mapClass
  obtain ⟨-, -, hdraft⟩ := Draft.of_build h.build_eq
  rw [hparent] at hdraft
  obtain ⟨n, hn⟩ := Catalog.mapping?_of_mapClass hmap hdraft
  have hheld : before.Holds catalogName n := List.mem_of_find?_eq_some hn
  -- numbers tell the classes of all catalogs apart
  obtain ⟨other, hother⟩ := h.allows.2 parent hparent
  rwa [← h.reached.sound.mapping_eq hheld hother (Catalog.id_of_mapping? hn)]

end Maps

end Session

/-! ## Directories -/

theorem nodup_eraseDups {α : Type} [DecidableEq α] (xs : List α) : xs.eraseDups.Nodup := by
  match xs with
  | [] => simp
  | a :: rest =>
    rw [List.eraseDups_cons, List.nodup_cons]
    exact ⟨by simp, nodup_eraseDups _⟩
termination_by xs.length
decreasing_by exact Nat.lt_succ_of_le (List.length_filter_le _ _)

/-- The columns of a class are listed once each. -/
theorem Mapping.WellFormed.nodup_columns {m : Mapping} (h : m.WellFormed) :
    (m.columns.map Column.identity).Nodup := by
  refine List.Nodup.map_on ?_ (nodup_eraseDups _)
  intro c hc d hd
  obtain ⟨p, hp, rfl⟩ := mem_columns_iff.1 hc
  obtain ⟨q, hq, rfl⟩ := mem_columns_iff.1 hd
  exact Table.eq_of_identity_eq (h.binds.own p hp) (h.binds.own q hq)

namespace Session

/-- What is true of a class that a catalog holds, if it was mapped of the draft. -/
structure Orderly (s : Session) (catalogName : String) (draft : Draft) (m : Mapping) : Prop where
  keys : (m.properties.map Property.key).Nodup
  columns : ∀ p ∈ m.properties, m.table.columns[p.column.position]? = some p.column
  discriminator : ∀ d, m.discriminator = some d → ∃ p ∈ m.properties, p.key = d.key
  parent : ∀ id, m.parent = some id → ∃ parent, draft.parent = some parent ∧
    (s.workspace.catalog catalogName).mapping? id = some parent ∧ parent.table = m.table ∧
    id.number < m.id.number ∧ parent.properties <+: m.properties
  leftOut : draft.allColumns = true → ∀ c ∈ m.table.columns,
    (m.mapsColumn c = false ↔
      (∀ parent, draft.parent = some parent → parent.mapsColumn c = false) ∧
        (∀ entry ∈ draft.entries, entry.2 ≠ c.name) ∧
        ∃ p ∈ m.properties, p.key = c.name ∧ p.column ≠ c)

theorem Maps.orderly {before now : Session} {catalogName : String} {draft : Draft} {m : Mapping}
    (h : Maps before catalogName draft m now) : now.Orderly catalogName draft m := by
  have hnow : now.Sound := h.later.sound (h.reached.sound.step h.allows)
  have hwell : m.WellFormed := (hnow.mapping catalogName m h.holds).2
  obtain ⟨hid, htable, hdraft⟩ := Draft.of_build h.build_eq
  constructor
  case keys => exact hwell.binds.nodup
  case columns => exact fun p hp => Table.columns_position (hwell.binds.own p hp)
  case discriminator => exact fun d hd => Mapping.hasAttribute_iff.1 (hwell.identified d hd)
  case parent =>
    intro id hparent
    rw [hdraft, Option.map_eq_some_iff] at hparent
    obtain ⟨parent, hparent, rfl⟩ := hparent
    have hbefore := h.holds_parent hparent
    have hheld : now.Holds catalogName parent :=
      h.later.extends.holds _ _ ((extends_step before _).holds _ _ hbefore)
    refine ⟨parent, hparent, hnow.mapping?_eq hheld, ?_, ?_, ?_⟩
    · exact hnow.table_eq (hnow.mapping _ _ hheld).1 (hnow.mapping _ _ h.holds).1
        (Draft.table_of_parent h.build_eq hparent)
    · rw [hid]
      exact h.reached.sound.mappings.lt parent ⟨catalogName, hbefore⟩
    · have hstart : draft.start = parent.properties := by
        rw [Draft.start, hparent]
        rfl
      rw [← hstart]
      exact Draft.start_prefix h.build_eq
  case leftOut =>
    intro hall c hc
    rw [htable] at hc
    exact Draft.mapsColumn_eq_false_iff h.build_eq hall hc

/-- In every session reached, each class of a catalog was mapped of some draft and is as that draft
and the parent, which the catalog holds as well, make it. The directory lists the columns of a class
once each, those that attributes are bound to. A refused class changes no catalog. -/
theorem Reached.classes_orderly {s : Session} (h : s.Reached) (catalogName : String) :
    (∀ m, s.Holds catalogName m → ∃ before draft, Maps before catalogName draft m s) ∧
      (∀ before draft m, Maps before catalogName draft m s →
        s.Holds catalogName m ∧ s.Orderly catalogName draft m) ∧
      (∀ id, (((s.workspace.catalog catalogName).directory.columnsOf id).map
          Column.identity).Nodup ∧
        ∀ c, c ∈ (s.workspace.catalog catalogName).directory.columnsOf id ↔
          (s.workspace.catalog catalogName).directory.namesOf id c ≠ []) ∧
      ∀ draft e, (s.workspace.mapClass catalogName draft).1 = .error e →
        ∀ name, (s.workspace.mapClass catalogName draft).2.catalog name = s.workspace.catalog name := by
  refine ⟨fun m => h.exists_maps, fun before draft m hmaps => ⟨hmaps.holds, hmaps.orderly⟩, ?_, ?_⟩
  · intro id
    cases hfind : (s.workspace.catalog catalogName).mapping? id with
    | none => simp [Catalog.directory, hfind]
    | some m =>
      have hheld : s.Holds catalogName m := List.mem_of_find?_eq_some hfind
      simp only [Catalog.directory, hfind]
      refine ⟨(h.sound.mapping catalogName m hheld).2.nodup_columns, ?_⟩
      exact fun c => Mapping.namesOf_ne_nil_iff.symm
  · intro draft e hrefused name
    rcases s.workspace.mapClass_cases catalogName draft with
      ⟨_, -, hcatalogs⟩ | ⟨m, c, hmade, -, -⟩
    · exact Workspace.catalog_congr hcatalogs name
    · rw [hmade] at hrefused
      cases hrefused

/-- Documents with a title and a note. -/
def sampleDocuments : Table :=
  ⟨⟨1⟩, "doc", [⟨"id", .int32⟩, ⟨"title", .varchar⟩, ⟨"note", .varchar⟩], by decide, by decide⟩

/-- The class that shows the title as a note. -/
def sampleTitled : Mapping where
  id := ⟨1⟩
  className := "Titled"
  table := sampleDocuments
  properties := [⟨"note", ⟨⟨1⟩, 1, "doc", "title", .varchar⟩⟩]
  parent := none
  discriminator := none

/-- A page is titled, and is to show every column. -/
def samplePageDraft : Draft :=
  { className := "Page", table := sampleDocuments, parent := some sampleTitled, allColumns := true }

/-- Pages cannot show the note, whose name the title has taken. -/
def samplePage : Mapping where
  id := ⟨3⟩
  className := "Page"
  table := sampleDocuments
  properties := sampleTitled.properties ++ [⟨"id", ⟨⟨1⟩, 0, "doc", "id", .int32⟩⟩]
  parent := some ⟨1⟩
  discriminator := none

/-- The session before pages are mapped. A class without a column of its name was refused, and took
the second number. -/
def sampleShelf : Session :=
  ((({ : Session }.step (.createTable "main" "doc" sampleDocuments.declared)).step
    (.mapClass "main"
      { className := "Titled", table := sampleDocuments, entries := [("note", "title")] })).step
    (.mapClass "main"
      { className := "Lost", table := sampleDocuments, entries := [("lost", "lost")] }))

theorem reached_sampleShelf : sampleShelf.Reached := by
  refine .step (.step (.step .refl _ ?_) _ ?_) _ ?_
  · trivial
  · exact ⟨by decide, fun parent h => by cases h⟩
  · exact ⟨by decide, fun parent h => by cases h⟩

theorem maps_samplePage : sampleShelf.Maps "main" samplePageDraft samplePage
    (sampleShelf.step (.mapClass "main" samplePageDraft)) where
  reached := reached_sampleShelf
  allows := by
    refine ⟨by decide, ?_⟩
    intro parent h
    cases h
    exact ⟨"main", by show sampleTitled ∈ _; decide⟩
  mapped := rfl
  later := .refl

/-- A page keeps the title as its note, so that the note itself is left out. -/
theorem classes_orderly_samplePage :
    (sampleShelf.step (.mapClass "main" samplePageDraft)).Orderly "main" samplePageDraft
        samplePage ∧
      samplePage.mapsColumn ⟨⟨1⟩, 2, "doc", "note", .varchar⟩ = false ∧
      sampleTitled.properties <+: samplePage.properties := by
  have hreached : (sampleShelf.step (.mapClass "main" samplePageDraft)).Reached :=
    reached_sampleShelf.step _ maps_samplePage.allows
  obtain ⟨-, hclasses, -, -⟩ := hreached.classes_orderly "main"
  have horderly := (hclasses _ _ _ maps_samplePage).2
  refine ⟨horderly, ?_, ?_⟩
  · refine (horderly.leftOut rfl _ (by decide)).2 ⟨?_, by decide, by decide⟩
    rintro _ ⟨⟩
    decide
  · obtain ⟨parent, hparent, -, -, -, hprefix⟩ := horderly.parent ⟨1⟩ rfl
    obtain rfl := Option.some.inj hparent
    exact hprefix

end Session

end RowFlags
