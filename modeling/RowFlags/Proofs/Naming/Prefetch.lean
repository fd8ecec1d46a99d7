import RowFlags.Proofs.Session.Basic

/-!
# Recorded names and asked names

A prefetching resolver registers classes against a catalog that goes on growing; an inspecting one
asks the catalog each time. A class stays mapped as it was first mapped (`Prefetching.Later.keeps`),
and what is recorded of a class is what its mapping says (`Prefetching.Later.sound`). So from its
registration on, the two name the tracked columns of a class alike, and a class whose registration
was refused for an ambiguous column stays refused (`prefetched_agrees`).
-/

set_option autoImplicit false

namespace RowFlags

/-! ## Mappings stay -/

namespace Workspace

/-- A class that a catalog finds is found after a catalog is replaced by one with more classes. -/
theorem mapping?_of_insert {w next : Workspace} {other : String} {c : Catalog}
    {more : List Mapping} (hcatalogs : next.catalogs = w.catalogs.insert other c)
    (hmappings : c.mappings = (w.catalog other).mappings ++ more) {catalogName : String}
    {id : ClassId} {m : Mapping} (hm : (w.catalog catalogName).mapping? id = some m) :
    (next.catalog catalogName).mapping? id = some m := by
  rw [catalog_of_insert hcatalogs]
  split
  · next heq =>
    subst heq
    exact Catalog.mapping?_append hmappings hm
  · exact hm

theorem mapping?_of_createTable {w next : Workspace} {other name : String}
    {declared : List ColumnDeclaration} {t : Table}
    (h : w.createTable other name declared = .ok (t, next)) {catalogName : String} {id : ClassId}
    {m : Mapping} (hm : (w.catalog catalogName).mapping? id = some m) :
    (next.catalog catalogName).mapping? id = some m := by
  obtain ⟨-, -, hnext⟩ := createTable_eq_ok_iff.1 h
  exact mapping?_of_insert (congrArg Workspace.catalogs hnext) (List.append_nil _).symm hm

theorem mapping?_mapClass (w : Workspace) (other : String) (draft : Draft) {catalogName : String}
    {id : ClassId} {m : Mapping} (hm : (w.catalog catalogName).mapping? id = some m) :
    ((w.mapClass other draft).2.catalog catalogName).mapping? id = some m := by
  unfold mapClass
  split
  · exact hm
  · next made c hmap =>
    obtain ⟨-, hmappings, -⟩ := Catalog.of_mapClass hmap
    exact mapping?_of_insert rfl hmappings hm

end Workspace

/-! ## Histories -/

/-- A workspace beside what a prefetching resolver has recorded. -/
structure Prefetching where
  workspace : Workspace
  known : Registry := {}

namespace Prefetching

/-- What can be done: tables and classes are made in any catalog, and a class is registered against
the one catalog. -/
inductive Act where
  | createTable (catalogName name : String) (declared : List ColumnDeclaration)
  | mapClass (catalogName : String) (draft : Draft)
  | register (classId : ClassId)

variable (catalogName : String) (columns : List Column)

/-- The mapping of a class in the catalog. -/
def mapping? (s : Prefetching) (classId : ClassId) : Option Mapping :=
  (s.workspace.catalog catalogName).mapping? classId

/-- The naming of the resolver that records the columns. -/
def recordedNaming (s : Prefetching) : Naming :=
  Resolver.naming ⟨columns, .prefetched⟩ s.known s.workspace.directoryOf

/-- The naming of a resolver that asks the catalog each time. -/
def askedNaming (s : Prefetching) : Naming :=
  Resolver.naming ⟨columns, .onDemand (.catalog catalogName)⟩ s.known s.workspace.directoryOf

/-- What is recorded once a class is registered. -/
def register (s : Prefetching) (classId : ClassId) : Except FlagError Registry :=
  Resolver.register ⟨columns, .prefetched⟩ s.known
    (s.workspace.directoryOf (.catalog catalogName)) classId

/-- The state after an act. -/
def step (s : Prefetching) : Act → Prefetching
  | .createTable other name declared =>
    match s.workspace.createTable other name declared with
    | .ok (_, w) => { s with workspace := w }
    | .error _ => s
  | .mapClass other draft => { s with workspace := (s.workspace.mapClass other draft).2 }
  | .register classId =>
    match s.register catalogName columns classId with
    | .ok known => { s with known }
    | .error _ => s

/-- A class is registered only after it was mapped. -/
def Allows (s : Prefetching) : Act → Prop
  | .register classId => ∃ m, s.mapping? catalogName classId = some m
  | _ => True

/-- The second state comes from the first by such acts. -/
inductive Later (s : Prefetching) : Prefetching → Prop
  | refl : Later s s
  | step {t : Prefetching} (h : Later s t) (act : Act) (hallows : t.Allows catalogName act) :
    Later s (t.step catalogName columns act)

/-- What is recorded of a class is what its mapping in the catalog says. -/
def Sound (s : Prefetching) : Prop :=
  ∀ classId names, s.known.names? classId = some names →
    ∃ m, s.mapping? catalogName classId = some m ∧
      Registry.collect m.directory classId (m.columns.filter (· ∈ columns)) = .ok names

section Steps

variable {catalogName : String} {columns : List Column} {s t : Prefetching}

/-- No act changes how a class is mapped. -/
theorem mapping?_step {classId : ClassId} {m : Mapping}
    (hm : s.mapping? catalogName classId = some m) (act : Act) :
    (s.step catalogName columns act).mapping? catalogName classId = some m := by
  cases act with
  | createTable other name declared =>
    simp only [step]
    split
    · next hmade => exact Workspace.mapping?_of_createTable hmade hm
    · exact hm
  | mapClass other draft => exact s.workspace.mapping?_mapClass other draft hm
  | register other =>
    simp only [step]
    split <;> exact hm

/-- No act changes what is recorded of a class. -/
theorem names?_step {classId : ClassId} {names : List (Column × String)}
    (hnames : s.known.names? classId = some names) (act : Act) :
    (s.step catalogName columns act).known.names? classId = some names := by
  cases act with
  | createTable other name declared =>
    simp only [step]
    split <;> exact hnames
  | mapClass other draft => exact hnames
  | register other =>
    simp only [step]
    split
    · next hregister => exact Resolver.names?_of_register hregister hnames
    · exact hnames

/-- What registers a class is the mapping that the catalog holds of it. -/
theorem register_eq {classId : ClassId} {m : Mapping}
    (hm : s.mapping? catalogName classId = some m) :
    s.register catalogName columns classId =
      s.known.register columns m.directory classId := by
  obtain rfl := Catalog.id_of_mapping? hm
  exact s.known.register_congr columns (Catalog.speaksFor_of_mapping? hm)

/-- Registering a mapped class records what its mapping says, if anything new. -/
theorem names?_eq_of_register {classId other : ClassId} {m : Mapping}
    (hm : s.mapping? catalogName classId = some m) {known : Registry}
    (h : s.register catalogName columns classId = .ok known) {names : List (Column × String)}
    (hnames : known.names? other = some names) :
    s.known.names? other = some names ∨ other = classId ∧
      Registry.collect m.directory classId (m.columns.filter (· ∈ columns)) = .ok names := by
  rw [register_eq hm] at h
  exact Resolver.names?_eq_of_register (r := ⟨columns, .prefetched⟩) h hnames

theorem Sound.step (h : s.Sound catalogName columns) {act : Act}
    (hallows : s.Allows catalogName act) :
    (s.step catalogName columns act).Sound catalogName columns := by
  intro classId names hnames
  have hsource : ∃ m, s.mapping? catalogName classId = some m ∧
      Registry.collect m.directory classId (m.columns.filter (· ∈ columns)) = .ok names := by
    cases act with
    | createTable other name declared =>
      simp only [Prefetching.step] at hnames
      split at hnames <;> exact h classId names hnames
    | mapClass other draft => exact h classId names hnames
    | register other =>
      obtain ⟨m, hm⟩ := hallows
      simp only [Prefetching.step] at hnames
      split at hnames
      · next known hregister =>
        rcases names?_eq_of_register hm hregister hnames with hold | ⟨rfl, hcollect⟩
        · exact h classId names hold
        · exact ⟨m, hm, hcollect⟩
      · exact h classId names hnames
  obtain ⟨m, hm, hcollect⟩ := hsource
  exact ⟨m, mapping?_step hm act, hcollect⟩

namespace Later

theorem trans (h : Later catalogName columns s t) {u : Prefetching}
    (k : Later catalogName columns t u) : Later catalogName columns s u := by
  induction k with
  | refl => exact h
  | step _ act hallows ih => exact ih.step act hallows

theorem sound (h : Later catalogName columns s t) (hs : s.Sound catalogName columns) :
    t.Sound catalogName columns := by
  induction h with
  | refl => exact hs
  | step _ act hallows ih => exact ih.step hallows

/-- A class stays mapped as it was first mapped, and what is recorded of it stays. -/
theorem keeps (h : Later catalogName columns s t) {classId : ClassId} :
    (∀ m, s.mapping? catalogName classId = some m → t.mapping? catalogName classId = some m) ∧
      ∀ names, s.known.names? classId = some names → t.known.names? classId = some names := by
  induction h with
  | refl => exact ⟨fun _ hm => hm, fun _ hnames => hnames⟩
  | step _ act hallows ih =>
    exact ⟨fun m hm => mapping?_step (ih.1 m hm) act,
      fun names hnames => names?_step (ih.2 names hnames) act⟩

end Later

/-! ## Both namings -/

/-- What a mapped class asks for is what its mapping says. -/
theorem askedNaming_eq {classId : ClassId} {m : Mapping}
    (hm : s.mapping? catalogName classId = some m) (c : Column) :
    s.askedNaming catalogName columns classId c = m.directory.naming classId c := by
  obtain rfl := Catalog.id_of_mapping? hm
  exact (Catalog.speaksFor_of_mapping? hm).naming_eq c

/-- The namings agree on the columns for the objects of a class: on the attribute of each column, or
that there is none, on that of the only one, and on the values. -/
structure Agree (columns : List Column) (classId : ClassId) (n n' : Naming) : Prop where
  names : ∀ c ∈ columns, n classId c = n' classId c
  named : ∀ c ∈ columns,
    (∃ name, n' classId c = .ok name) ∨ n' classId c = .error (.unmapped classId c)
  single : n.single columns classId = n'.single columns classId
  values : ∀ r : Record, r.classId = classId → ∀ c ∈ columns, r.valueOf n c = r.valueOf n' c

/-- The recorded name of a tracked column is the one that the mapping gives. -/
theorem Sound.recordedNaming_eq (h : s.Sound catalogName columns) {classId : ClassId} {m : Mapping}
    (hm : s.mapping? catalogName classId = some m) {names : List (Column × String)}
    (hnames : s.known.names? classId = some names) {c : Column} (hc : c ∈ columns) :
    s.recordedNaming columns classId c = m.directory.naming classId c ∧
      ((∃ name, m.directory.naming classId c = .ok name) ∨
        m.directory.naming classId c = .error (.unmapped classId c)) := by
  obtain ⟨n, hn, hcollect⟩ := h classId names hnames
  obtain rfl := Option.some.inj (hn.symm.trans hm)
  by_cases hmapped : c ∈ n.columns
  · obtain ⟨name, hname, hlookup⟩ := Registry.lookup_of_collect hcollect
      (List.mem_filter.2 ⟨hmapped, decide_eq_true hc⟩)
    rw [hname]
    refine ⟨?_, .inl ⟨name, rfl⟩⟩
    simp only [recordedNaming, Resolver.naming, Registry.naming, hnames, hlookup]
  · have hlookup : names.lookup c = none :=
      Registry.lookup_eq_none_of_collect hcollect fun hmem => hmapped (List.mem_filter.1 hmem).1
    have hnone : n.namesOf c = [] := by
      by_contra hne
      exact hmapped (Mapping.namesOf_ne_nil_iff.1 hne)
    have hunmapped : n.directory.naming classId c = .error (.unmapped classId c) := by
      simp only [Directory.naming, Mapping.directory, hnone]
      rfl
    rw [hunmapped]
    refine ⟨?_, .inr rfl⟩
    simp only [recordedNaming, Resolver.naming, Registry.naming, hnames, hlookup]

/-- On a recorded class the namings agree. -/
theorem Sound.agree (h : s.Sound catalogName columns) {classId : ClassId} {m : Mapping}
    (hm : s.mapping? catalogName classId = some m) {names : List (Column × String)}
    (hnames : s.known.names? classId = some names) :
    Agree columns classId (s.recordedNaming columns) (s.askedNaming catalogName columns) := by
  have hsame : ∀ c ∈ columns, s.recordedNaming columns classId c =
      s.askedNaming catalogName columns classId c := by
    intro c hc
    rw [askedNaming_eq hm, (h.recordedNaming_eq hm hnames hc).1]
  refine ⟨hsame, ?_, ?_, ?_⟩
  · intro c hc
    rw [askedNaming_eq hm]
    exact (h.recordedNaming_eq hm hnames hc).2
  · unfold Naming.single
    split
    · next c => rw [hsame c (List.mem_singleton_self c)]
    · rfl
  · rintro r rfl c hc
    unfold Record.valueOf
    rw [hsame c hc]

/-- A refused class was refused for the first of its tracked columns that is ambiguous. -/
theorem exists_ambiguous {classId : ClassId} {m : Mapping}
    (hm : s.mapping? catalogName classId = some m) {e : FlagError}
    (h : s.register catalogName columns classId = .error e) :
    ∃ front c back, m.columns.filter (· ∈ columns) = front ++ c :: back ∧
      (∀ b ∈ front, ∃ name, s.askedNaming catalogName columns classId b = .ok name) ∧
      e = .ambiguous classId c (distinct Text.order (m.namesOf c)) ∧
      s.askedNaming catalogName columns classId c = .error e := by
  simp only [askedNaming_eq hm]
  rw [register_eq hm] at h
  obtain ⟨-, hcollect⟩ := Registry.register_eq_error_iff.1 h
  obtain ⟨front, c, back, hsplit, hfront, hc⟩ := Registry.exists_of_collect_eq_error hcollect
  refine ⟨front, c, back, hsplit, hfront, eq_ambiguous_of_uniqueName hc ?_, hc⟩
  have hmem : c ∈ m.columns.filter (· ∈ columns) := by
    rw [show m.columns.filter (· ∈ columns) = _ from hsplit]
    exact List.mem_append_right front List.mem_cons_self
  exact Mapping.namesOf_ne_nil_iff.2 (List.mem_filter.1 hmem).1

/-- A refused class is not registered, and refused for the same reason ever after. -/
theorem Later.refused (h : Later catalogName columns s t) (hs : s.Sound catalogName columns)
    {classId : ClassId} {m : Mapping} (hm : s.mapping? catalogName classId = some m)
    {e : FlagError} (hrefused : s.register catalogName columns classId = .error e) :
    t.known.isRegistered classId = false ∧
      t.register catalogName columns classId = .error e := by
  rw [register_eq hm] at hrefused
  obtain ⟨-, hcollect⟩ := Registry.register_eq_error_iff.1 hrefused
  have hlater := h.keeps.1 m hm
  have hnone : t.known.names? classId = none := by
    cases hnames : t.known.names? classId with
    | none => rfl
    | some names =>
      -- what is recorded later would have been recorded now
      obtain ⟨n, hn, hrecorded⟩ := h.sound hs classId names hnames
      obtain rfl := Option.some.inj (hn.symm.trans hlater)
      have hboth := hrecorded.symm.trans hcollect
      cases hboth
  rw [register_eq hlater]
  refine ⟨?_, Registry.register_eq_error_iff.2 ⟨hnone, hcollect⟩⟩
  rw [Registry.isRegistered, hnone]
  rfl

end Steps

/-- From its registration on, a prefetching resolver names the tracked columns of a class as one
that asks the catalog each time does. A class that is refused is refused for good: for the first of
its columns, in the order of its properties, that the other resolver finds ambiguous. -/
theorem prefetched_agrees (catalogName : String) (columns : List Column) {w : Workspace}
    {s : Prefetching} (hs : Later catalogName columns ⟨w, {}⟩ s) {classId : ClassId} {m : Mapping}
    (hm : s.mapping? catalogName classId = some m) :
    (∀ known, s.register catalogName columns classId = .ok known →
      ∀ t, Later catalogName columns (s.step catalogName columns (.register classId)) t →
        t.known.isRegistered classId = true ∧
          Agree columns classId (t.recordedNaming columns) (t.askedNaming catalogName columns)) ∧
    ∀ e, s.register catalogName columns classId = .error e →
      (∃ front c back, m.columns.filter (· ∈ columns) = front ++ c :: back ∧
        (∀ b ∈ front, ∃ name, s.askedNaming catalogName columns classId b = .ok name) ∧
        e = .ambiguous classId c (distinct Text.order (m.namesOf c)) ∧
        s.askedNaming catalogName columns classId c = .error e) ∧
      ∀ t, Later catalogName columns s t → t.known.isRegistered classId = false ∧
        t.register catalogName columns classId = .error e := by
  have hsound : s.Sound catalogName columns := hs.sound fun classId names h => by cases h
  constructor
  · intro known hregister t ht
    have hstep : Later catalogName columns s (s.step catalogName columns (.register classId)) :=
      Later.refl.step (.register classId) ⟨m, hm⟩
    obtain ⟨names, hnames⟩ := Resolver.exists_names?_of_register rfl hregister
    have hknown : (s.step catalogName columns (.register classId)).known = known := by
      simp only [step, hregister]
    have hlater : t.known.names? classId = some names := ht.keeps.2 names (hknown ▸ hnames)
    refine ⟨?_, ((hstep.trans ht).sound hsound).agree ((hstep.trans ht).keeps.1 m hm) hlater⟩
    rw [Registry.isRegistered, hlater]
    rfl
  · intro e hrefused
    exact ⟨exists_ambiguous hm hrefused, fun t ht => ht.refused hsound hm hrefused⟩

/-- A table of two texts. -/
def samplePair : Table :=
  ⟨⟨1⟩, "pair", [⟨"a", .varchar⟩, ⟨"b", .varchar⟩], by decide, by decide⟩

/-- Both texts. -/
def sampleColumns : List Column := samplePair.columns

/-- The class of pairs with one text, under a name of its own. -/
def sampleSingle : Mapping where
  id := ⟨1⟩
  className := "Single"
  table := samplePair
  properties := [⟨"x", ⟨⟨1⟩, 0, "pair", "a", .varchar⟩⟩]
  parent := none
  discriminator := none

/-- The class of pairs with the first text under two names. -/
def sampleTwice : Mapping :=
  { sampleSingle with
    id := ⟨3⟩
    className := "Twice"
    properties :=
      [⟨"y", ⟨⟨1⟩, 1, "pair", "b", .varchar⟩⟩, ⟨"z", ⟨⟨1⟩, 0, "pair", "a", .varchar⟩⟩,
        ⟨"x", ⟨⟨1⟩, 0, "pair", "a", .varchar⟩⟩] }

/-- Both classes, with a refused one between them that took a number. -/
def sampleState : Prefetching :=
  [.createTable "main" "pair" samplePair.declared,
    .mapClass "main" { className := "Single", table := samplePair, entries := [("x", "a")] },
    .mapClass "main" { className := "Broken", table := samplePair, entries := [("x", "c")] },
    .mapClass "main"
      { className := "Twice", table := samplePair
        entries := [("y", "b"), ("z", "a"), ("x", "a")] }].foldl
    (step "main" sampleColumns) ⟨{}, {}⟩

/-- The single text has its name, and the other one none; of the texts with two names the first one
stays refused. -/
theorem prefetched_agrees_sampleState :
    Later "main" sampleColumns ⟨{}, {}⟩ sampleState ∧
      sampleState.mapping? "main" ⟨1⟩ = some sampleSingle ∧
      sampleState.mapping? "main" ⟨3⟩ = some sampleTwice ∧
      Agree sampleColumns ⟨1⟩
        ((sampleState.step "main" sampleColumns (.register ⟨1⟩)).recordedNaming sampleColumns)
        ((sampleState.step "main" sampleColumns (.register ⟨1⟩)).askedNaming "main"
          sampleColumns) ∧
      sampleState.register "main" sampleColumns ⟨3⟩ =
        .error (.ambiguous ⟨3⟩ ⟨⟨1⟩, 0, "pair", "a", .varchar⟩ ["x", "z"]) ∧
      (sampleState.step "main" sampleColumns (.register ⟨3⟩)).known.isRegistered ⟨3⟩ = false := by
  have hlater : Later "main" sampleColumns ⟨{}, {}⟩ sampleState :=
    (((Later.refl.step (.createTable _ _ _) trivial).step (.mapClass _ _) trivial).step
      (.mapClass _ _) trivial).step (.mapClass _ _) trivial
  have hsingle : sampleState.mapping? "main" ⟨1⟩ = some sampleSingle := by decide +kernel
  have htwice : sampleState.mapping? "main" ⟨3⟩ = some sampleTwice := by decide +kernel
  obtain ⟨known, hknown⟩ :
      ∃ known, sampleState.register "main" sampleColumns ⟨1⟩ = .ok known := ⟨_, rfl⟩
  have hrefused : sampleState.register "main" sampleColumns ⟨3⟩ =
      .error (.ambiguous ⟨3⟩ ⟨⟨1⟩, 0, "pair", "a", .varchar⟩ ["x", "z"]) := rfl
  have hagree := ((prefetched_agrees "main" sampleColumns hlater hsingle).1 known hknown _ .refl).2
  have hstays := ((prefetched_agrees "main" sampleColumns hlater htwice).2 _ hrefused).2
  exact ⟨hlater, hsingle, htwice, hagree, hrefused,
    (hstays _ (Later.refl.step (.register ⟨3⟩) ⟨sampleTwice, htwice⟩)).1⟩

end Prefetching

end RowFlags
