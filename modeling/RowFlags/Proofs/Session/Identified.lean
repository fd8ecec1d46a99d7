import RowFlags.Proofs.Session.Held

/-!
# Inherited discriminators

The identity of a draft is looked at last, after everything that the class is to show
(`Draft.build_eq_bind`). A class has a discriminator only if its own draft gives an identity, and
takes from its parent no more than the attribute for it. So an attribute reaches a class only by a
line of parents each of which gives an identity (`Session.Line`), and where the line is broken, a
draft that gives its identity alone is refused (`Session.Reached.discriminators`).
-/

set_option autoImplicit false

namespace RowFlags

namespace Draft

/-- The same draft with no identity. -/
def anonymous (d : Draft) : Draft := { d with identity := none }

/-- The discriminator attribute of the parent. -/
def parentKey (d : Draft) : Option String :=
  (d.parent.bind Mapping.discriminator).map Discriminator.key

theorem addEntries_anonymous (d : Draft) (properties : List Property)
    (entries : List (String × String)) :
    d.anonymous.addEntries properties entries = d.addEntries properties entries := by
  induction entries generalizing properties with
  | nil => rfl
  | cons entry rest ih =>
    unfold addEntries
    split
    · rfl
    · exact bind_congr fun column => ih (properties ++ [⟨entry.1, column⟩])

/-- A class is made as if it had no identity, and is then given its discriminator. -/
theorem build_eq_bind (d : Draft) (id : ClassId) :
    d.build id = d.anonymous.build id >>= fun m =>
      (fun x => { m with discriminator := x }) <$> d.discriminator m.properties := by
  unfold build
  rw [show d.anonymous.inherited = d.inherited from rfl]
  cases d.inherited with
  | error e => rfl
  | ok start =>
    simp only [Outcome.ok_bind]
    rw [show d.anonymous.entries = d.entries from rfl, addEntries_anonymous]
    cases d.addEntries start d.entries <;> rfl

theorem discriminator_of_anonymous {d : Draft} {properties : List Property}
    (h : d.identity = none) : d.discriminator properties = .ok none := by
  simp only [discriminator, h]

/-- The attribute of the draft goes before the parent's. -/
theorem discriminator_eq {d : Draft} {identity : Identity} (h : d.identity = some identity)
    (properties : List Property) :
    d.discriminator properties =
      match identity.key <|> d.parentKey with
      | none => .error (.noDiscriminator d.className)
      | some key =>
        if properties.any (·.key = key) then .ok (some ⟨key, identity.value⟩)
        else .error (.discriminatorUnmapped key d.className) := by
  unfold discriminator
  rw [h]
  rfl

theorem exists_of_discriminator {d : Draft} {identity : Identity}
    (h : d.identity = some identity) {properties : List Property} {x : Option Discriminator}
    (hx : d.discriminator properties = .ok x) :
    ∃ key, (identity.key <|> d.parentKey) = some key ∧ x = some ⟨key, identity.value⟩ := by
  rw [discriminator_eq h] at hx
  split at hx
  · cases hx
  · next key hkey =>
    split at hx
    · exact ⟨key, hkey, (Except.ok.inj hx).symm⟩
    · cases hx

theorem addEntries_ne_noDiscriminator {d : Draft} {properties : List Property}
    {entries : List (String × String)} {name : String} :
    d.addEntries properties entries ≠ .error (.noDiscriminator name) := by
  induction entries generalizing properties with
  | nil => simp [addEntries]
  | cons entry rest ih =>
    unfold addEntries
    split
    · simp
    · intro h
      rcases Outcome.bind_eq_error_iff.1 h with hcolumn | ⟨column, -, hrest⟩
      · unfold Table.column at hcolumn
        split at hcolumn <;> simp at hcolumn
      · exact ih hrest

/-- Without an identity, no discriminator is asked for. -/
theorem build_anonymous_ne_noDiscriminator {d : Draft} {id : ClassId} {name : String} :
    d.anonymous.build id ≠ .error (.noDiscriminator name) := by
  intro h
  rcases Outcome.bind_eq_error_iff.1 h with hinherited | ⟨start, -, h⟩
  · unfold inherited at hinherited
    split at hinherited
    · simp at hinherited
    · split at hinherited <;> simp at hinherited
  · rcases Outcome.bind_eq_error_iff.1 h with hentries | ⟨named, -, h⟩
    · exact addEntries_ne_noDiscriminator hentries
    · simp [anonymous, discriminator] at h

/-- A draft that gives its identity alone is made as without it, in the attribute of its parent. -/
theorem build_of_parentKey {d : Draft} {parent : Mapping} {v : Value} {x : Discriminator}
    (hparent : d.parent = some parent) (hidentity : d.identity = some ⟨none, v⟩)
    (hx : parent.discriminator = some x) (hmapped : parent.hasAttribute x.key = true)
    (id : ClassId) :
    d.build id =
      (fun m => { m with discriminator := some ⟨x.key, v⟩ }) <$> d.anonymous.build id := by
  rw [build_eq_bind]
  cases hbuild : d.anonymous.build id with
  | error e => rfl
  | ok m =>
    have hkey : (none <|> d.parentKey) = some x.key := by
      simp [parentKey, hparent, hx]
    have hany : m.properties.any (·.key = x.key) = true := by
      obtain ⟨p, hp, hkey⟩ := Mapping.hasAttribute_iff.1 hmapped
      have hprefix : parent.properties <+: m.properties := by
        have hstart := start_prefix hbuild
        simpa [start, anonymous, hparent] using hstart
      simpa using ⟨p, hprefix.subset hp, hkey⟩
    rw [Outcome.ok_bind, discriminator_eq hidentity, hkey]
    simp [hany]

theorem build_of_parentKey_eq_none {d : Draft} {v : Value}
    (hidentity : d.identity = some ⟨none, v⟩) (hkey : d.parentKey = none) (id : ClassId) :
    d.build id = d.anonymous.build id >>= fun _ => .error (.noDiscriminator d.className) := by
  rw [build_eq_bind]
  refine bind_congr fun m => ?_
  rw [discriminator_eq hidentity, hkey]
  rfl

end Draft

namespace Workspace

/-- Below a class of the catalog, a draft is refused for itself only. -/
theorem mapClass_eq_build {w : Workspace} {catalogName : String} (draft : Draft) {parent : Mapping}
    (hparent : draft.parent = some parent)
    (hheld : (w.catalog catalogName).mapping? parent.id = some parent) :
    (w.mapClass catalogName draft).1 = draft.build ⟨w.nextClass⟩ := by
  cases hbuild : draft.build ⟨w.nextClass⟩ with
  | error e =>
    have hmap : (w.catalog catalogName).mapClass ⟨w.nextClass⟩ draft = .error e := by
      rw [Catalog.mapClass, hbuild]
      rfl
    rw [mapClass, hmap]
  | ok m =>
    obtain ⟨-, -, hm⟩ := Draft.of_build hbuild
    rw [hparent] at hm
    have hmap : ∃ c, (w.catalog catalogName).mapClass ⟨w.nextClass⟩ draft = .ok (m, c) := by
      rw [Catalog.mapClass, hbuild]
      simp [hm, hheld, pure, Except.pure]
    obtain ⟨c, hmap⟩ := hmap
    rw [mapClass, hmap]

end Workspace

namespace Session

/-- The attribute comes down to the class: some draft in the line of its parents names it, and every
draft from there on gives its identity alone. -/
inductive Line (s : Session) (catalogName key : String) : Mapping → Prop
  | named {before : Session} {draft : Draft} {m : Mapping} {v : Value}
    (hmaps : Maps before catalogName draft m s) (hidentity : draft.identity = some ⟨some key, v⟩) :
    Line s catalogName key m
  | inherited {parent : Mapping} (hline : Line s catalogName key parent) {before : Session}
    {draft : Draft} {m : Mapping} {v : Value} (hmaps : Maps before catalogName draft m s)
    (hparent : draft.parent = some parent) (hidentity : draft.identity = some ⟨none, v⟩) :
    Line s catalogName key m

variable {s before : Session} {catalogName key : String} {draft : Draft} {m : Mapping}

theorem Maps.discriminator_eq_ok (h : Maps before catalogName draft m s) :
    draft.discriminator m.properties = .ok m.discriminator := by
  have hbuild := h.build_eq
  rw [Draft.build_eq_bind] at hbuild
  obtain ⟨shown, -, hbuild⟩ := Outcome.bind_eq_ok_iff.1 hbuild
  obtain ⟨x, hx, rfl⟩ := Outcome.map_eq_ok_iff.1 hbuild
  exact hx

/-- A class whose draft gives no identity has no discriminator, whatever its parent has. -/
theorem Maps.discriminator_eq_none (h : Maps before catalogName draft m s)
    (hidentity : draft.identity = none) : m.discriminator = none := by
  have hok := h.discriminator_eq_ok
  rw [Draft.discriminator_of_anonymous hidentity] at hok
  exact (Except.ok.inj hok).symm

theorem Maps.exists_discriminator (h : Maps before catalogName draft m s) {identity : Identity}
    (hidentity : draft.identity = some identity) :
    ∃ own, (identity.key <|> draft.parentKey) = some own ∧
      m.discriminator = some ⟨own, identity.value⟩ :=
  Draft.exists_of_discriminator hidentity h.discriminator_eq_ok

theorem Line.holds (h : s.Line catalogName key m) : s.Holds catalogName m := by
  cases h with
  | named hmaps _ => exact hmaps.holds
  | inherited _ hmaps _ _ => exact hmaps.holds

theorem Line.exists_discriminator (h : s.Line catalogName key m) :
    ∃ v, m.discriminator = some ⟨key, v⟩ := by
  induction h with
  | @named before draft m v hmaps hidentity =>
    obtain ⟨own, hown, hm⟩ := hmaps.exists_discriminator hidentity
    obtain rfl : key = own := by simpa using hown
    exact ⟨v, hm⟩
  | @inherited parent _ before draft m v hmaps hparent hidentity ih =>
    obtain ⟨value, hvalue⟩ := ih
    obtain ⟨own, hown, hm⟩ := hmaps.exists_discriminator hidentity
    obtain rfl : key = own := by simpa [Draft.parentKey, hparent, hvalue] using hown
    exact ⟨v, hm⟩

/-- The parent is held as well, under a smaller number. -/
theorem Maps.parent_before (h : Maps before catalogName draft m s) {parent : Mapping}
    (hparent : draft.parent = some parent) :
    s.Holds catalogName parent ∧ parent.id.number < m.id.number := by
  obtain ⟨-, -, hdraft⟩ := Draft.of_build h.build_eq
  rw [hparent] at hdraft
  obtain ⟨other, hother, hheld, -, hless, -⟩ := h.orderly.parent parent.id hdraft
  obtain rfl := Option.some.inj (hparent.symm.trans hother)
  exact ⟨List.mem_of_find?_eq_some hheld, hless⟩

/-- The attribute of a class is the one that its own draft names, or else its parent's, whose number
is smaller. -/
theorem Reached.line_of_discriminator (h : s.Reached) (hm : s.Holds catalogName m) {v : Value}
    (hv : m.discriminator = some ⟨key, v⟩) : s.Line catalogName key m := by
  induction hnumber : m.id.number using Nat.strongRecOn generalizing m v with
  | _ number ih =>
    subst hnumber
    obtain ⟨before, draft, hmaps⟩ := h.exists_maps hm
    cases hidentity : draft.identity with
    | none =>
      rw [hmaps.discriminator_eq_none hidentity] at hv
      cases hv
    | some identity =>
      obtain ⟨own, hown, hmade⟩ := hmaps.exists_discriminator hidentity
      obtain ⟨rfl, rfl⟩ : own = key ∧ identity.value = v := by simpa [hmade] using hv
      obtain ⟨named, v⟩ := identity
      cases named with
      | some named =>
        obtain rfl : named = own := by simpa using hown
        exact .named hmaps hidentity
      | none =>
        obtain ⟨x, hx, rfl⟩ := Option.map_eq_some_iff.1 hown
        obtain ⟨parent, hparent, hx⟩ := Option.bind_eq_some_iff.1 hx
        obtain ⟨hheld, hless⟩ := hmaps.parent_before hparent
        exact .inherited (ih _ hless hheld hx rfl) hmaps hparent hidentity

/-- A class has a discriminator in the attribute exactly if the attribute comes down to it. -/
theorem Reached.exists_discriminator_iff (h : s.Reached) (hm : s.Holds catalogName m) :
    (∃ v, m.discriminator = some ⟨key, v⟩) ↔ s.Line catalogName key m :=
  ⟨fun ⟨_, hv⟩ => h.line_of_discriminator hm hv, Line.exists_discriminator⟩

section Alone

variable {parent : Mapping} {v : Value}

theorem Reached.mapClass_of_line (h : s.Reached) (hline : s.Line catalogName key parent)
    (hparent : draft.parent = some parent) (hidentity : draft.identity = some ⟨none, v⟩) :
    (s.workspace.mapClass catalogName draft).1 =
      (fun m => { m with discriminator := some ⟨key, v⟩ }) <$>
        (s.workspace.mapClass catalogName draft.anonymous).1 := by
  obtain ⟨value, hvalue⟩ := hline.exists_discriminator
  have hwell := (h.sound.mapping catalogName parent hline.holds).2
  have hheld := h.sound.mapping?_eq hline.holds
  rw [Workspace.mapClass_eq_build draft hparent hheld,
    Workspace.mapClass_eq_build draft.anonymous hparent hheld]
  exact Draft.build_of_parentKey hparent hidentity hvalue (hwell.identified _ hvalue) _

theorem Reached.mapClass_of_not_line (h : s.Reached) (hheld : s.Holds catalogName parent)
    (hbroken : ∀ key, ¬ s.Line catalogName key parent) (hparent : draft.parent = some parent)
    (hidentity : draft.identity = some ⟨none, v⟩) :
    (s.workspace.mapClass catalogName draft).1 =
      (s.workspace.mapClass catalogName draft.anonymous).1 >>= fun _ =>
        .error (.noDiscriminator draft.className) := by
  have hnone : parent.discriminator = none := by
    cases hx : parent.discriminator with
    | none => rfl
    | some x => exact absurd (h.line_of_discriminator hheld hx) (hbroken x.key)
  have hfound := h.sound.mapping?_eq hheld
  rw [Workspace.mapClass_eq_build draft hparent hfound,
    Workspace.mapClass_eq_build draft.anonymous hparent hfound]
  exact Draft.build_of_parentKey_eq_none hidentity (by simp [Draft.parentKey, hparent, hnone]) _

theorem Reached.mapClass_anonymous_ne (h : s.Reached) (hheld : s.Holds catalogName parent)
    (hparent : draft.parent = some parent) (name : String) :
    (s.workspace.mapClass catalogName draft.anonymous).1 ≠ .error (.noDiscriminator name) := by
  rw [Workspace.mapClass_eq_build draft.anonymous hparent (h.sound.mapping?_eq hheld)]
  exact Draft.build_anonymous_ne_noDiscriminator

end Alone

/-- In every session reached, a class has a discriminator only if its own draft gives an identity:
it is that identity, in the attribute that the draft names or else in its parent's. So the classes
with a discriminator are those that an attribute comes down to. Below such a class, a draft that
gives its identity alone is made as it would be without, and has the attribute; below any other
class of the catalog, it is refused for want of an attribute, if for nothing else. -/
theorem Reached.discriminators (h : s.Reached) (catalogName : String) :
    (∀ before draft m, Maps before catalogName draft m s →
        (draft.identity = none → m.discriminator = none) ∧
          ∀ identity, draft.identity = some identity →
            ∃ key, (identity.key <|> draft.parentKey) = some key ∧
              m.discriminator = some ⟨key, identity.value⟩) ∧
      (∀ m, s.Holds catalogName m → ∀ key,
        (∃ v, m.discriminator = some ⟨key, v⟩) ↔ s.Line catalogName key m) ∧
      ∀ parent, s.Holds catalogName parent → ∀ draft v, draft.parent = some parent →
        draft.identity = some ⟨none, v⟩ →
        (∀ key, s.Line catalogName key parent →
            (s.workspace.mapClass catalogName draft).1 =
                (fun m => { m with discriminator := some ⟨key, v⟩ }) <$>
                  (s.workspace.mapClass catalogName draft.anonymous).1 ∧
              ∀ name, (s.workspace.mapClass catalogName draft).1 ≠ .error (.noDiscriminator name)) ∧
          ((∀ key, ¬ s.Line catalogName key parent) →
            (s.workspace.mapClass catalogName draft).1 =
              (s.workspace.mapClass catalogName draft.anonymous).1 >>= fun _ =>
                .error (.noDiscriminator draft.className)) := by
  refine ⟨?_, fun m hm key => h.exists_discriminator_iff hm, ?_⟩
  · intro before draft m hmaps
    exact ⟨hmaps.discriminator_eq_none, fun identity => hmaps.exists_discriminator⟩
  · intro parent hheld draft v hparent hidentity
    refine ⟨?_, fun hbroken => h.mapClass_of_not_line hheld hbroken hparent hidentity⟩
    intro key hline
    have hmade := h.mapClass_of_line hline hparent hidentity
    refine ⟨hmade, fun name hrefused => ?_⟩
    rw [hmade, Outcome.map_eq_error_iff] at hrefused
    exact h.mapClass_anonymous_ne hheld hparent name hrefused

/-- Goods of a kind, with their price. -/
def sampleGoods : Table :=
  ⟨⟨1⟩, "goods", [⟨"kind", .varchar⟩, ⟨"price", .int32⟩], by decide, by decide⟩

/-- Goods are told apart by their kind. -/
def sampleGood : Mapping where
  id := ⟨1⟩
  className := "Good"
  table := sampleGoods
  properties := [⟨"kind", ⟨⟨1⟩, 0, "goods", "kind", .varchar⟩⟩,
    ⟨"price", ⟨⟨1⟩, 1, "goods", "price", .int32⟩⟩]
  parent := none
  discriminator := some ⟨"kind", .string "good"⟩

/-- A parcel is a good, of no kind of its own. -/
def sampleParcelDraft : Draft :=
  { className := "Parcel", table := sampleGoods, parent := some sampleGood }

def sampleParcel : Mapping :=
  { sampleGood with id := ⟨2⟩, className := "Parcel", parent := some ⟨1⟩, discriminator := none }

/-- A draft of a further kind below a class. -/
def sampleKindDraft (parent : Mapping) : Draft :=
  { className := "Crate", table := sampleGoods, parent := some parent,
    identity := some ⟨none, .string "crate"⟩ }

/-- The session in which goods are mapped. -/
def sampleYard : Session :=
  (({ : Session }.step (.createTable "main" "goods" sampleGoods.declared)).step
    (.mapClass "main" { className := "Good", table := sampleGoods, allColumns := true,
                        identity := some ⟨some "kind", .string "good"⟩ }))

/-- The session in which parcels are mapped as well. -/
def sampleDepot : Session := sampleYard.step (.mapClass "main" sampleParcelDraft)

theorem reached_sampleYard : sampleYard.Reached := by
  refine .step (.step .refl _ ?_) _ ?_
  · trivial
  · exact ⟨by decide, fun parent h => by cases h⟩

theorem maps_sampleParcel : sampleYard.Maps "main" sampleParcelDraft sampleParcel sampleDepot where
  reached := reached_sampleYard
  allows := by
    refine ⟨by decide, ?_⟩
    rintro _ ⟨⟩
    exact ⟨"main", by show sampleGood ∈ _; decide⟩
  mapped := rfl
  later := .refl

theorem holds_sampleGood : sampleDepot.Holds "main" sampleGood := by
  show sampleGood ∈ _
  decide

/-- A crate below goods has its kind in the attribute of goods; a crate below parcels is refused. -/
theorem discriminators_sampleDepot :
    sampleParcel.discriminator = none ∧
      sampleDepot.Line "main" "kind" sampleGood ∧
      (sampleDepot.workspace.mapClass "main" (sampleKindDraft sampleGood)).1 =
        .ok { sampleGood with
          id := ⟨3⟩, className := "Crate", parent := some ⟨1⟩,
          discriminator := some ⟨"kind", .string "crate"⟩ } ∧
      (sampleDepot.workspace.mapClass "main" (sampleKindDraft sampleParcel)).1 =
        .error (.noDiscriminator "Crate") := by
  have hreached : sampleDepot.Reached := reached_sampleYard.step _ maps_sampleParcel.allows
  obtain ⟨hmaps, hline, halone⟩ := hreached.discriminators "main"
  have hparcel := (hmaps _ _ _ maps_sampleParcel).1 rfl
  have hgood := (hline _ holds_sampleGood "kind").1 ⟨_, rfl⟩
  refine ⟨hparcel, hgood, ?_, ?_⟩
  · exact ((halone _ holds_sampleGood _ _ rfl rfl).1 "kind" hgood).1
  · refine (halone _ maps_sampleParcel.holds _ _ rfl rfl).2 ?_
    intro key hbroken
    obtain ⟨v, hv⟩ := hbroken.exists_discriminator
    cases hv

/-- A parent with a discriminator does not give it to a child without identity, and a draft of a
grandchild that gives its identity alone is refused. -/
theorem sampleParcel_loses_discriminator :
    sampleDepot.Reached ∧
      sampleYard.Maps "main" sampleParcelDraft sampleParcel sampleDepot ∧
      sampleParcelDraft.parent = some sampleGood ∧
      sampleGood.discriminator = some ⟨"kind", .string "good"⟩ ∧
      sampleParcel.discriminator = none ∧
      (sampleDepot.workspace.mapClass "main" (sampleKindDraft sampleParcel)).1 =
        .error (.noDiscriminator "Crate") :=
  ⟨reached_sampleYard.step _ maps_sampleParcel.allows, maps_sampleParcel, rfl, rfl, rfl, rfl⟩

end Session

end RowFlags
