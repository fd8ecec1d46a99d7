import RowFlags.Model
import RowFlags.Proofs.Naming.Recording

/-!
# Sessions

A session is a workspace together with what was made in it: tables, flags, and the classes that were
registered with flags by hand. It starts empty and goes from act to act (`Session.step`); a refused
act leaves what refusals leave. An act is proper if what it uses was made before. `Changes` says once
what can become of a session by an act, and what acts keep is read off it.

Building a model against the catalog that holds its class is an act of its own. Building it against
anything else comes to registering its flags by hand, one after the other.
-/

set_option autoImplicit false

namespace RowFlags

/-- A workspace, the tables and flags made in it, and the registrations done by hand. -/
structure Session where
  workspace : Workspace := {}
  tables : List Table := []
  flags : List Flag := []
  byHand : List (FlagId × ClassId) := []

/-- What can be done in a session. -/
inductive Act where
  | makeTable (name : String) (declared : List ColumnDeclaration)
  | createTable (catalogName name : String) (declared : List ColumnDeclaration)
  | mapClass (catalogName : String) (draft : Draft)
  | makeFlag (spec : FlagSpec)
  | register (f : Flag) (source : Source) (classId : ClassId)
  | buildModel (m : Mapping) (flags : NameMap Flag) (catalogName : String)
  | assignFlag (f : Flag) (r : Record) (v : Value)

namespace Session

/-- The catalog holds the mapping. -/
def Holds (s : Session) (catalogName : String) (m : Mapping) : Prop :=
  m ∈ (s.workspace.catalog catalogName).mappings

/-- What is recorded of a class for a flag. -/
def recorded (s : Session) (f : FlagId) (classId : ClassId) : Option (List (Column × String)) :=
  (s.workspace.memoryOf f).registry.names? classId

/-- The model of a class that the session's catalog holds, and the workspace after it is built. -/
def build (s : Session) (m : Mapping) (flags : NameMap Flag) (catalogName : String) :
    Except FlagError Model × Workspace :=
  Model.build m flags (s.workspace.directoryOf (.catalog catalogName)) s.workspace

/-- The session after an act. -/
def step (s : Session) : Act → Session
  | .makeTable name declared =>
    match s.workspace.makeTable name declared with
    | .ok (table, w) => { s with workspace := w, tables := table :: s.tables }
    | .error _ => s
  | .createTable catalogName name declared =>
    match s.workspace.createTable catalogName name declared with
    | .ok (table, w) => { s with workspace := w, tables := table :: s.tables }
    | .error _ => s
  | .mapClass catalogName draft =>
    { s with workspace := (s.workspace.mapClass catalogName draft).2 }
  | .makeFlag spec =>
    match s.workspace.makeFlag spec with
    | .ok (flag, w) => { s with workspace := w, flags := flag :: s.flags }
    | .error _ => s
  | .register f source classId =>
    match s.workspace.register f (s.workspace.directoryOf source) classId with
    | .ok w => { s with workspace := w, byHand := (f.id, classId) :: s.byHand }
    | .error _ => s
  | .buildModel m flags catalogName => { s with workspace := (s.build m flags catalogName).2 }
  | .assignFlag f r v => { s with workspace := (s.workspace.assignFlag f r v).2 }

/-- The act uses only what was made before: tables of drafts and of the columns in conditions,
parents of drafts, flags, and the class of a model. -/
def Allows (s : Session) : Act → Prop
  | .makeTable _ _ => True
  | .createTable _ _ _ => True
  | .mapClass _ draft =>
    draft.table ∈ s.tables ∧ ∀ parent, draft.parent = some parent → ∃ name, s.Holds name parent
  | .makeFlag spec =>
    ∀ p, Program.ofExpr spec.condition.asCondition = .ok p →
      ∀ c, .load c ∈ p.code → ∃ t ∈ s.tables, c ∈ t.columns
  | .register f _ _ => f ∈ s.flags
  | .buildModel m flags catalogName =>
    s.Holds catalogName m ∧ ∀ entry ∈ flags.entries, entry.2 ∈ s.flags
  | .assignFlag f _ _ => f ∈ s.flags

/-- The second session comes from the first by proper acts. -/
inductive Later (s : Session) : Session → Prop
  | refl : Later s s
  | step {t : Session} (h : Later s t) (act : Act) (hallows : t.Allows act) : Later s (t.step act)

theorem Later.trans {s t u : Session} (h : Later s t) (k : Later t u) : Later s u := by
  induction k with
  | refl => exact h
  | step _ act hallows ih => exact ih.step act hallows

/-- The session comes from nothing by proper acts. -/
def Reached (s : Session) : Prop := Later {} s

/-- Nothing that was made or recorded in the first session is gone in the second. -/
structure Extends (s t : Session) : Prop where
  holds : ∀ name m, s.Holds name m → t.Holds name m
  recorded : ∀ f classId names, s.recorded f classId = some names →
    t.recorded f classId = some names

theorem Extends.refl (s : Session) : Extends s s := ⟨fun _ _ h => h, fun _ _ _ h => h⟩

theorem Extends.trans {s t u : Session} (h : Extends s t) (k : Extends t u) : Extends s u :=
  ⟨fun name m hm => k.holds name m (h.holds name m hm),
    fun f classId names hn => k.recorded f classId names (h.recorded f classId names hn)⟩

end Session

/-! ## What acts do to the workspace -/

namespace Catalog

/-- A table is made in a catalog if its name is free there, and stands behind the others. -/
theorem createTable_eq_ok_iff {c result : Catalog} {id : TableId} {name : String}
    {declared : List ColumnDeclaration} {t : Table} :
    c.createTable id name declared = .ok (t, result) ↔
      (∀ u ∈ c.tables, u.name ≠ name) ∧ Table.create id name declared = .ok t ∧
        result = { c with tables := c.tables ++ [t] } := by
  have hfree : (c.table? name).isSome = true ↔ ¬∀ u ∈ c.tables, u.name ≠ name := by
    simp [table?]
  unfold createTable
  split
  · next htaken => simpa using fun h => absurd h (hfree.1 htaken)
  · next hnot =>
    rw [Outcome.bind_eq_ok_iff]
    constructor
    · rintro ⟨made, hmade, heq⟩
      cases heq
      exact ⟨not_not.1 (mt hfree.2 hnot), hmade, rfl⟩
    · rintro ⟨-, hmade, rfl⟩
      exact ⟨t, hmade, rfl⟩

theorem of_mapClass {c result : Catalog} {id : ClassId} {draft : Draft} {m : Mapping}
    (h : c.mapClass id draft = .ok (m, result)) :
    draft.build id = .ok m ∧ result.mappings = c.mappings ++ [m] ∧ result.tables = c.tables := by
  obtain ⟨built, hbuilt, h⟩ := Outcome.bind_eq_ok_iff.1 h
  split at h
  · split at h
    · cases h
      exact ⟨hbuilt, rfl, rfl⟩
    · cases h
  · cases h
    exact ⟨hbuilt, rfl, rfl⟩

theorem id_of_mapping? {c : Catalog} {id : ClassId} {m : Mapping} (h : c.mapping? id = some m) :
    m.id = id := by
  simpa using List.find?_some h

/-- A catalog speaks for the mappings that it finds. -/
theorem speaksFor_of_mapping? {c : Catalog} {m : Mapping} (h : c.mapping? m.id = some m) :
    c.directory.SpeaksFor m := by
  constructor
  · simp [directory, h]
  · intro column
    simp [directory, h]

/-- A class that is found is found, whatever is mapped after it. -/
theorem mapping?_append {c result : Catalog} {more : List Mapping}
    (hmappings : result.mappings = c.mappings ++ more) {id : ClassId} {m : Mapping}
    (h : c.mapping? id = some m) : result.mapping? id = some m := by
  unfold mapping? at h ⊢
  rw [hmappings, List.find?_append, h]
  rfl

end Catalog

namespace Flag

/-- A flag that was made has its number, and the program of its condition. -/
theorem of_build {id : FlagId} {spec : FlagSpec} {f : Flag} (h : build id spec = .ok f) :
    f.id = id ∧ ∃ p, Program.ofExpr spec.condition.asCondition = .ok p ∧ f.program = p ∧
      f.columns = p.columns ∧ f.resolver.strategy = spec.strategy := by
  obtain ⟨p, hp, h⟩ := Outcome.bind_eq_ok_iff.1 h
  obtain ⟨default, -, h⟩ := Outcome.bind_eq_ok_iff.1 h
  cases h
  exact ⟨rfl, p, Outcome.mapError_eq_ok_iff.1 hp, rfl, rfl, rfl⟩

/-- The program of a flag is its rephrased condition with the code of that. -/
theorem program_of_build {id : FlagId} {spec : FlagSpec} {f : Flag} (h : build id spec = .ok f) :
    ∃ code, spec.condition.asCondition.compile = .ok code ∧
      f.program = ⟨spec.condition.asCondition, code⟩ := by
  obtain ⟨-, p, hp, hprogram, -, -⟩ := of_build h
  obtain ⟨code, hcode, hcompiled⟩ := Outcome.bind_eq_ok_iff.1 hp
  cases hcompiled
  exact ⟨code, hcode, hprogram⟩

end Flag

namespace Workspace

theorem catalog_congr {w next : Workspace} (h : next.catalogs = w.catalogs) (name : String) :
    next.catalog name = w.catalog name := by
  unfold catalog
  rw [h]

/-- A catalog put in place of one is that of its name. -/
theorem catalog_of_insert {w next : Workspace} {catalogName : String} {c : Catalog}
    (h : next.catalogs = w.catalogs.insert catalogName c) (name : String) :
    next.catalog name = if catalogName = name then c else w.catalog name := by
  unfold catalog
  rw [h, NameMap.get?_insert]
  split <;> rfl

theorem makeTable_eq_ok_iff {w next : Workspace} {name : String}
    {declared : List ColumnDeclaration} {table : Table} :
    w.makeTable name declared = .ok (table, next) ↔
      Table.create ⟨w.nextTable⟩ name declared = .ok table ∧
        next = { w with nextTable := w.nextTable + 1 } := by
  refine Outcome.bind_eq_ok_iff.trans ?_
  constructor
  · rintro ⟨made, hmade, heq⟩
    cases heq
    exact ⟨hmade, rfl⟩
  · rintro ⟨hmade, rfl⟩
    exact ⟨table, hmade, rfl⟩

theorem createTable_eq_ok_iff {w next : Workspace} {catalogName name : String}
    {declared : List ColumnDeclaration} {table : Table} :
    w.createTable catalogName name declared = .ok (table, next) ↔
      (∀ t ∈ (w.catalog catalogName).tables, t.name ≠ name) ∧
        Table.create ⟨w.nextTable⟩ name declared = .ok table ∧
          next = { w with
            catalogs := w.catalogs.insert catalogName
              { w.catalog catalogName with tables := (w.catalog catalogName).tables ++ [table] }
            nextTable := w.nextTable + 1 } := by
  refine Outcome.bind_eq_ok_iff.trans ?_
  constructor
  · rintro ⟨⟨made, c⟩, hmade, heq⟩
    cases heq
    obtain ⟨hfree, hcreate, rfl⟩ := Catalog.createTable_eq_ok_iff.1 hmade
    exact ⟨hfree, hcreate, rfl⟩
  · rintro ⟨hfree, hcreate, rfl⟩
    exact ⟨_, Catalog.createTable_eq_ok_iff.2 ⟨hfree, hcreate, rfl⟩, rfl⟩

theorem of_makeFlag {w next : Workspace} {spec : FlagSpec} {f : Flag}
    (h : w.makeFlag spec = .ok (f, next)) :
    Flag.build ⟨w.nextFlag⟩ spec = .ok f ∧ next = { w with nextFlag := w.nextFlag + 1 } := by
  obtain ⟨made, hmade, h⟩ := Outcome.bind_eq_ok_iff.1 h
  cases h
  exact ⟨hmade, rfl⟩

theorem of_register {w next : Workspace} {f : Flag} {d : Directory} {classId : ClassId}
    (h : w.register f d classId = .ok next) :
    ∃ registry, f.resolver.register (w.memoryOf f.id).registry d classId = .ok registry ∧
      next = w.remember f.id { w.memoryOf f.id with registry } := by
  obtain ⟨registry, hregistry, h⟩ := Outcome.bind_eq_ok_iff.1 h
  cases h
  exact ⟨registry, hregistry, rfl⟩

/-- Assigning a flag leaves what is recorded of names. -/
theorem namingOf_assignFlag (w : Workspace) (f g : Flag) (r : Record) (v : Value) :
    (w.assignFlag f r v).2.namingOf g = w.namingOf g := by
  unfold assignFlag namingOf
  dsimp only
  rw [memoryOf_remember]
  split
  · next heq =>
    rw [heq]
    rfl
  · rfl

end Workspace

namespace Model

/-- What each registration of a flag keeps is kept by registering flags one after the other, also if
one of them is refused. -/
theorem registerAll_keeps {P : Workspace → Prop} {m : Mapping} {d : Directory}
    {entries : List (String × Flag)}
    (hkeeps : ∀ entry ∈ entries, ∀ v next, P v → v.register entry.2 d m.id = .ok next → P next)
    {w : Workspace} (h : P w) : P (registerAll m d entries w).2 := by
  induction entries generalizing w with
  | nil => exact h
  | cons entry rest ih =>
    obtain ⟨key, f⟩ := entry
    unfold registerAll
    split
    · exact h
    · split
      · exact h
      · next next hregister =>
        refine ih (fun other hother => hkeeps other (List.mem_cons_of_mem _ hother)) ?_
        exact hkeeps _ List.mem_cons_self w next h hregister

/-- Building a model leaves the workspace as registering its flags does. -/
theorem build_snd (m : Mapping) (flags : NameMap Flag) (d : Directory) (w : Workspace) :
    (build m flags d w).2 = (registerAll m d flags.entries w).2 := by
  unfold build
  split
  · next hregister => rw [hregister]
  · next hregister => rw [hregister]

end Model

namespace Session

/-! ## What acts do to the session -/

/-- What becomes of a session by an act. -/
inductive Changes (s : Session) : Act → Session → Prop
  /-- Nothing does, if the act is refused; assigning a flag is counted all the same, -/
  | refused {act : Act} (h : ∀ f r v, act ≠ .assignFlag f r v) : Changes s act s
  /-- and mapping a class takes a number. -/
  | refusedClass {catalogName : String} {draft : Draft} :
    Changes s (.mapClass catalogName draft)
      { s with workspace := { s.workspace with nextClass := s.workspace.nextClass + 1 } }
  | makeTable {name : String} {declared : List ColumnDeclaration} {t : Table}
    (hcreate : Table.create ⟨s.workspace.nextTable⟩ name declared = .ok t) :
    Changes s (.makeTable name declared)
      { s with
        workspace := { s.workspace with nextTable := s.workspace.nextTable + 1 }
        tables := t :: s.tables }
  | createTable {catalogName name : String} {declared : List ColumnDeclaration} {t : Table}
    (hcreate : Table.create ⟨s.workspace.nextTable⟩ name declared = .ok t) :
    Changes s (.createTable catalogName name declared)
      { s with
        workspace := { s.workspace with
          catalogs := s.workspace.catalogs.insert catalogName
            { s.workspace.catalog catalogName with
              tables := (s.workspace.catalog catalogName).tables ++ [t] }
          nextTable := s.workspace.nextTable + 1 }
        tables := t :: s.tables }
  | mapClass {catalogName : String} {draft : Draft} {m : Mapping} {c : Catalog}
    (hmap : (s.workspace.catalog catalogName).mapClass ⟨s.workspace.nextClass⟩ draft =
      .ok (m, c)) :
    Changes s (.mapClass catalogName draft)
      { s with workspace := { s.workspace with
          catalogs := s.workspace.catalogs.insert catalogName c
          nextClass := s.workspace.nextClass + 1 } }
  | makeFlag {spec : FlagSpec} {f : Flag}
    (hbuild : Flag.build ⟨s.workspace.nextFlag⟩ spec = .ok f) :
    Changes s (.makeFlag spec)
      { s with
        workspace := { s.workspace with nextFlag := s.workspace.nextFlag + 1 }
        flags := f :: s.flags }
  | register {f : Flag} {source : Source} {classId : ClassId} {w : Workspace}
    (hregister : s.workspace.register f (s.workspace.directoryOf source) classId = .ok w) :
    Changes s (.register f source classId)
      { s with workspace := w, byHand := (f.id, classId) :: s.byHand }
  /-- The flags of a model are registered one after the other, up to the first that is refused. -/
  | buildModel {m : Mapping} {flags : NameMap Flag} {catalogName : String} :
    Changes s (.buildModel m flags catalogName)
      { s with workspace := (Model.registerAll m
          (s.workspace.directoryOf (.catalog catalogName)) flags.entries s.workspace).2 }
  | assignFlag {f : Flag} {r : Record} {v : Value} :
    Changes s (.assignFlag f r v) { s with workspace := (s.workspace.assignFlag f r v).2 }

theorem changes_step (s : Session) (act : Act) : s.Changes act (s.step act) := by
  cases act with
  | makeTable name declared =>
    rw [step]
    split
    · next t w hmake =>
      obtain ⟨hcreate, rfl⟩ := Workspace.makeTable_eq_ok_iff.1 hmake
      exact .makeTable hcreate
    · exact .refused fun _ _ _ heq => by cases heq
  | createTable catalogName name declared =>
    rw [step]
    split
    · next t w hmake =>
      obtain ⟨-, hcreate, rfl⟩ := Workspace.createTable_eq_ok_iff.1 hmake
      exact .createTable hcreate
    · exact .refused fun _ _ _ heq => by cases heq
  | mapClass catalogName draft =>
    rw [step, Workspace.mapClass]
    split
    · exact .refusedClass
    · next m c hmap => exact .mapClass hmap
  | makeFlag spec =>
    rw [step]
    split
    · next f w hmake =>
      obtain ⟨hbuild, rfl⟩ := Workspace.of_makeFlag hmake
      exact .makeFlag hbuild
    · exact .refused fun _ _ _ heq => by cases heq
  | register f source classId =>
    rw [step]
    split
    · next w hregister => exact .register hregister
    · exact .refused fun _ _ _ heq => by cases heq
  | buildModel m flags catalogName =>
    rw [step, build, Model.build_snd]
    exact .buildModel
  | assignFlag f r v => exact .assignFlag

end Session

end RowFlags
