import RowFlags.Proofs.Session.Basic

/-!
# What holds in every session

Numbers tell tables, classes and flags apart; mappings are well formed; and what is recorded of a
class for a flag, unless it was registered by hand, is what the mapping of the class says
(`Session.Sound`). Every proper act keeps this and loses nothing (`Sound.step`), so it holds in
every session reached, and a class stays under its number in the catalog that took it in.
-/

set_option autoImplicit false

namespace RowFlags

/-- What was made has numbers below the next one, each its own. -/
structure Numbered {α : Type} (number : α → Nat) (made : α → Prop) (next : Nat) : Prop where
  lt : ∀ x, made x → number x < next
  unique : ∀ x y, made x → made y → number x = number y → x = y

namespace Numbered

variable {α : Type} {number : α → Nat} {made : α → Prop} {next : Nat}

theorem empty (h : ∀ x, ¬ made x) : Numbered number made next :=
  ⟨fun x hx => absurd hx (h x), fun x _ hx => absurd hx (h x)⟩

/-- One more may be made under the next number. -/
theorem add (h : Numbered number made next) {x : α} (hx : number x = next) {now : α → Prop}
    (hnow : ∀ y, now y → made y ∨ y = x) : Numbered number now (next + 1) := by
  constructor
  · intro y hy
    rcases hnow y hy with hy | rfl
    · exact Nat.lt_succ_of_lt (h.lt y hy)
    · rw [hx]
      exact Nat.lt_succ_self _
  · intro y z hy hz heq
    rcases hnow y hy with hy | rfl
    · rcases hnow z hz with hz | rfl
      · exact h.unique y z hy hz heq
      · have hlt := h.lt y hy
        omega
    · rcases hnow z hz with hz | rfl
      · have hlt := h.lt z hz
        omega
      · rfl

/-- A number may be passed over. -/
theorem skip (h : Numbered number made next) {now : α → Prop} (hnow : ∀ y, now y → made y) :
    Numbered number now (next + 1) :=
  ⟨fun y hy => Nat.lt_succ_of_lt (h.lt y (hnow y hy)),
    fun y z hy hz => h.unique y z (hnow y hy) (hnow z hz)⟩

end Numbered

namespace Session

/-- The names are what some mapping that was made says of the columns of some flag. -/
def Vouched (s : Session) (id : FlagId) (classId : ClassId) (names : List (Column × String)) :
    Prop :=
  ∃ f ∈ s.flags, f.id = id ∧ ∃ name m, s.Holds name m ∧ m.id = classId ∧
    Registry.collect m.directory m.id (m.columns.filter (· ∈ f.columns)) = .ok names

/-- What is true of every session reached. -/
structure Sound (s : Session) : Prop where
  tables : Numbered (fun t : Table => t.id.number) (· ∈ s.tables) s.workspace.nextTable
  mappings : Numbered (fun m : Mapping => m.id.number) (fun m => ∃ name, s.Holds name m)
    s.workspace.nextClass
  flags : Numbered (fun f : Flag => f.id.number) (· ∈ s.flags) s.workspace.nextFlag
  mapping : ∀ name m, s.Holds name m → m.table ∈ s.tables ∧ m.WellFormed
  flag : ∀ f ∈ s.flags, (∃ spec, Flag.build f.id spec = .ok f) ∧
    ∀ c, .load c ∈ f.program.code → ∃ t ∈ s.tables, c ∈ t.columns
  vouched : ∀ id classId names, (id, classId) ∉ s.byHand → s.recorded id classId = some names →
    s.Vouched id classId names

theorem Vouched.mono {s t : Session} (hflags : ∀ f ∈ s.flags, f ∈ t.flags)
    (hholds : ∀ name m, s.Holds name m → t.Holds name m) {id : FlagId} {classId : ClassId}
    {names : List (Column × String)} (h : s.Vouched id classId names) :
    t.Vouched id classId names := by
  obtain ⟨f, hf, hid, name, m, hm, hclass, hcollect⟩ := h
  exact ⟨f, hflags f hf, hid, name, m, hholds name m hm, hclass, hcollect⟩

/-- The session without anything. -/
theorem sound_empty : Sound {} where
  tables := Numbered.empty fun t ht => by cases ht
  mappings := Numbered.empty fun m hm => by
    obtain ⟨name, hm⟩ := hm
    cases hm
  flags := Numbered.empty fun f hf => by cases hf
  mapping _ _ hm := by cases hm
  flag _ hf := by cases hf
  vouched _ _ _ _ h := by cases h

section Sound

variable {s : Session}

theorem Sound.table_eq (h : s.Sound) {t u : Table} (ht : t ∈ s.tables) (hu : u ∈ s.tables)
    (hid : t.id = u.id) : t = u :=
  h.tables.unique t u ht hu (congrArg TableId.number hid)

theorem Sound.mapping_eq (h : s.Sound) {name other : String} {m n : Mapping}
    (hm : s.Holds name m) (hn : s.Holds other n) (hid : m.id = n.id) : m = n :=
  h.mappings.unique m n ⟨name, hm⟩ ⟨other, hn⟩ (congrArg ClassId.number hid)

theorem Sound.flag_eq (h : s.Sound) {f g : Flag} (hf : f ∈ s.flags) (hg : g ∈ s.flags)
    (hid : f.id = g.id) : f = g :=
  h.flags.unique f g hf hg (congrArg FlagId.number hid)

/-- A catalog that holds a mapping finds it under its number. -/
theorem Sound.mapping?_eq (h : s.Sound) {name : String} {m : Mapping} (hm : s.Holds name m) :
    (s.workspace.catalog name).mapping? m.id = some m := by
  unfold Catalog.mapping?
  cases hfind : (s.workspace.catalog name).mappings.find? (·.id = m.id) with
  | none => simpa using List.find?_eq_none.1 hfind m hm
  | some n =>
    have hid : n.id = m.id := by simpa using List.find?_some hfind
    have hn : s.Holds name n := List.mem_of_find?_eq_some hfind
    rw [h.mapping_eq hn hm hid]

/-- A catalog speaks for the mappings that it holds. -/
theorem Sound.speaksFor (h : s.Sound) {name : String} {m : Mapping} (hm : s.Holds name m) :
    (s.workspace.directoryOf (.catalog name)).SpeaksFor m :=
  Catalog.speaksFor_of_mapping? (h.mapping?_eq hm)

/-! ## Acts that make something -/

/-- A table more, under the next number. -/
theorem Sound.addTable (h : s.Sound) {t : Table} {w : Workspace}
    (ht : t.id = ⟨s.workspace.nextTable⟩) (htable : w.nextTable = s.workspace.nextTable + 1)
    (hclass : w.nextClass = s.workspace.nextClass) (hflag : w.nextFlag = s.workspace.nextFlag)
    (hmemory : w.memory = s.workspace.memory)
    (hmappings : ∀ name, (w.catalog name).mappings = (s.workspace.catalog name).mappings) :
    Sound { s with workspace := w, tables := t :: s.tables } := by
  have hholds (name : String) (m : Mapping) :
      Holds { s with workspace := w, tables := t :: s.tables } name m ↔ s.Holds name m := by
    unfold Holds
    dsimp only
    rw [hmappings]
  refine ⟨?_, ?_, ?_, ?_, ?_, ?_⟩
  · have hadd := h.tables.add (x := t) (congrArg TableId.number ht)
      (fun u hu => (List.mem_cons.1 hu).symm)
    rwa [← htable] at hadd
  · simp only [hholds, hclass]
    exact h.mappings
  · rw [show w.nextFlag = _ from hflag]
    exact h.flags
  · intro name m hm
    obtain ⟨htable, hwell⟩ := h.mapping name m ((hholds name m).1 hm)
    exact ⟨List.mem_cons_of_mem t htable, hwell⟩
  · intro f hf
    obtain ⟨hbuild, hcolumns⟩ := h.flag f hf
    refine ⟨hbuild, ?_⟩
    intro c hc
    obtain ⟨u, hu, hmem⟩ := hcolumns c hc
    exact ⟨u, List.mem_cons_of_mem t hu, hmem⟩
  · intro id classId names hhand hnames
    have hnames : s.recorded id classId = some names := by
      rw [← hnames]
      unfold recorded Workspace.memoryOf
      dsimp only
      rw [hmemory]
    refine (h.vouched id classId names hhand hnames).mono ?_ ?_
    · exact fun f hf => hf
    · exact fun name m hm => (hholds name m).2 hm

theorem Sound.mapClass (h : s.Sound) {catalogName : String} {draft : Draft}
    (hallows : s.Allows (.mapClass catalogName draft)) {m : Mapping} {c : Catalog}
    (hmap : (s.workspace.catalog catalogName).mapClass ⟨s.workspace.nextClass⟩ draft =
      .ok (m, c)) :
    Sound { s with workspace := { s.workspace with
      catalogs := s.workspace.catalogs.insert catalogName c
      nextClass := s.workspace.nextClass + 1 } } := by
  obtain ⟨htable, hparent⟩ := hallows
  obtain ⟨hbuild, hmappings, -⟩ := Catalog.of_mapClass hmap
  obtain ⟨hid, hdraft, -⟩ := Draft.of_build hbuild
  have hholds {other : String} {n : Mapping} : Holds
      { s with workspace := { s.workspace with
        nextClass := s.workspace.nextClass + 1
        catalogs := s.workspace.catalogs.insert catalogName c } } other n ↔
      s.Holds other n ∨ catalogName = other ∧ n = m := by
    unfold Holds
    dsimp only
    rw [Workspace.catalog_of_insert rfl]
    split
    · next heq =>
      subst heq
      rw [hmappings, List.mem_append, List.mem_singleton]
      simp
    · next hne => simp [hne]
  refine ⟨h.tables, ?_, h.flags, ?_, h.flag, ?_⟩
  · refine h.mappings.add (x := m) (congrArg ClassId.number hid) ?_
    rintro n ⟨other, hn⟩
    exact (hholds.1 hn).imp (fun hn => ⟨other, hn⟩) And.right
  · intro other n hn
    rcases hholds.1 hn with hn | ⟨-, rfl⟩
    · exact h.mapping other n hn
    · rw [← hdraft] at htable
      refine ⟨htable, Draft.wellFormed_of_build hbuild ?_⟩
      rw [← hdraft]
      intro parent hsome
      obtain ⟨name, hheld⟩ := hparent parent hsome
      obtain ⟨hmade, hwell⟩ := h.mapping name parent hheld
      exact ⟨hwell, h.table_eq hmade htable⟩
  · intro id classId names hhand hnames
    refine (h.vouched id classId names hhand hnames).mono ?_ ?_
    · exact fun f hf => hf
    · exact fun other n hn => hholds.2 (.inl hn)

theorem Sound.makeFlag (h : s.Sound) {spec : FlagSpec} (hallows : s.Allows (.makeFlag spec))
    {f : Flag} (hbuild : Flag.build ⟨s.workspace.nextFlag⟩ spec = .ok f) :
    Sound { s with
      workspace := { s.workspace with nextFlag := s.workspace.nextFlag + 1 }
      flags := f :: s.flags } := by
  obtain ⟨hid, p, hp, hprogram, -, -⟩ := Flag.of_build hbuild
  refine ⟨h.tables, h.mappings, ?_, h.mapping, ?_, ?_⟩
  · exact h.flags.add (x := f) (congrArg FlagId.number hid) fun g hg => (List.mem_cons.1 hg).symm
  · intro g hg
    rcases List.mem_cons.1 hg with rfl | hg
    · have hmade : Flag.build g.id spec = .ok g := by rwa [hid]
      refine ⟨⟨spec, hmade⟩, ?_⟩
      rw [hprogram]
      exact hallows p hp
    · exact h.flag g hg
  · intro id classId names hhand hnames
    refine (h.vouched id classId names hhand hnames).mono ?_ ?_
    · exact fun g hg => List.mem_cons_of_mem f hg
    · exact fun name m hm => hm

/-! ## Acts that change what flags remember -/

/-- What is recorded anew must be vouched for, unless it was registered by hand. -/
theorem Sound.remember (h : s.Sound) {id : FlagId} {memory : FlagMemory}
    {byHand : List (FlagId × ClassId)} (hhand : ∀ entry ∈ s.byHand, entry ∈ byHand)
    (hmemory : ∀ classId names, (id, classId) ∉ byHand →
      memory.registry.names? classId = some names →
      s.recorded id classId = some names ∨ s.Vouched id classId names) :
    Sound { s with workspace := s.workspace.remember id memory, byHand } := by
  refine ⟨h.tables, h.mappings, h.flags, h.mapping, h.flag, ?_⟩
  intro other classId names hnot hnames
  have hnot' : (other, classId) ∉ s.byHand := fun hmem => hnot (hhand _ hmem)
  show s.Vouched other classId names
  unfold Session.recorded at hnames
  rw [Workspace.memoryOf_remember] at hnames
  split at hnames
  · next heq =>
    subst heq
    rcases hmemory classId names hnot hnames with hold | hnew
    · exact h.vouched other classId names hnot' hold
    · exact hnew
  · exact h.vouched other classId names hnot' hnames

/-- Registering a class that a catalog holds, against a directory that speaks for it. -/
theorem Sound.registerHeld (h : s.Sound) {f : Flag} (hf : f ∈ s.flags) {name : String}
    {m : Mapping} (hm : s.Holds name m) {d : Directory} (hd : d.SpeaksFor m) {w : Workspace}
    (hregister : s.workspace.register f d m.id = .ok w) : Sound { s with workspace := w } := by
  obtain ⟨registry, hregistry, rfl⟩ := Workspace.of_register hregister
  refine h.remember (fun _ hmem => hmem) ?_
  intro classId names _ hnames
  rcases Resolver.names?_eq_of_register hregistry hnames with hold | ⟨rfl, hcollect⟩
  · exact .inl hold
  · rw [hd.columns, Registry.collect_congr hd.naming_eq] at hcollect
    exact .inr ⟨f, hf, rfl, name, m, hm, rfl, hcollect⟩

theorem Sound.register (h : s.Sound) {f : Flag} {d : Directory} {classId : ClassId}
    {w : Workspace} (hregister : s.workspace.register f d classId = .ok w) :
    Sound { s with workspace := w, byHand := (f.id, classId) :: s.byHand } := by
  obtain ⟨registry, hregistry, rfl⟩ := Workspace.of_register hregister
  refine h.remember (fun _ hmem => List.mem_cons_of_mem _ hmem) ?_
  intro other names hnot hnames
  rcases Resolver.names?_eq_of_register hregistry hnames with hold | ⟨rfl, -⟩
  · exact .inl hold
  · exact absurd List.mem_cons_self hnot

theorem Sound.registerAll {m : Mapping} {d : Directory} (hd : d.SpeaksFor m)
    {entries : List (String × Flag)} (h : s.Sound) (hflags : ∀ entry ∈ entries, entry.2 ∈ s.flags)
    {name : String} (hm : s.Holds name m) :
    Sound { s with workspace := (Model.registerAll m d entries s.workspace).2 } := by
  -- the class stays held, since registrations leave the catalogs alone
  let kept (w : Workspace) : Prop :=
    Sound { s with workspace := w } ∧ Holds { s with workspace := w } name m
  have hkept : kept (Model.registerAll m d entries s.workspace).2 := by
    refine Model.registerAll_keeps ?_ ⟨h, hm⟩
    rintro entry hentry v next ⟨hsound, hheld⟩ hregister
    refine ⟨hsound.registerHeld (hflags entry hentry) hheld hd hregister, ?_⟩
    obtain ⟨registry, -, rfl⟩ := Workspace.of_register hregister
    exact hheld
  exact hkept.1

/-- Every proper act keeps what is true of sessions. -/
theorem Sound.step (h : s.Sound) {act : Act} (hallows : s.Allows act) : (s.step act).Sound := by
  have hchanges := s.changes_step act
  generalize s.step act = t at hchanges
  cases hchanges with
  | refused => exact h
  | refusedClass =>
    exact ⟨h.tables, h.mappings.skip fun m hm => hm, h.flags, h.mapping, h.flag, h.vouched⟩
  | makeTable hcreate =>
    exact h.addTable (Table.create_eq_ok_iff.1 hcreate).1 rfl rfl rfl rfl fun _ => rfl
  | createTable hcreate =>
    refine h.addTable (Table.create_eq_ok_iff.1 hcreate).1 rfl rfl rfl rfl ?_
    intro other
    rw [Workspace.catalog_of_insert rfl]
    split
    · next heq =>
      subst heq
      rfl
    · rfl
  | mapClass hmap => exact h.mapClass hallows hmap
  | makeFlag hbuild => exact h.makeFlag hallows hbuild
  | register hregister => exact h.register hregister
  | buildModel =>
    obtain ⟨hm, hflags⟩ := hallows
    exact Sound.registerAll (h.speaksFor hm) h hflags hm
  | assignFlag => exact h.remember (fun _ hmem => hmem) fun _ _ _ hnames => .inl hnames

end Sound

theorem Later.sound {s t : Session} (h : Later s t) (hs : s.Sound) : t.Sound := by
  induction h with
  | refl => exact hs
  | step _ act hallows ih => exact ih.step hallows

theorem Reached.sound {s : Session} (h : s.Reached) : s.Sound :=
  Later.sound h sound_empty

/-! ## Nothing is lost -/

theorem extends_remember (s : Session) {id : FlagId} {memory : FlagMemory}
    (byHand : List (FlagId × ClassId))
    (h : ∀ classId names, s.recorded id classId = some names →
      memory.registry.names? classId = some names) :
    s.Extends { s with workspace := s.workspace.remember id memory, byHand } := by
  refine ⟨fun _ _ hm => hm, ?_⟩
  intro other classId names hnames
  unfold recorded
  rw [Workspace.memoryOf_remember]
  split
  · next heq =>
    subst heq
    exact h classId names hnames
  · exact hnames

theorem extends_register (s : Session) {f : Flag} {d : Directory} {classId : ClassId}
    {w : Workspace} (byHand : List (FlagId × ClassId))
    (h : s.workspace.register f d classId = .ok w) :
    s.Extends { s with workspace := w, byHand } := by
  obtain ⟨registry, hregistry, rfl⟩ := Workspace.of_register h
  exact s.extends_remember byHand fun _ _ => Resolver.names?_of_register hregistry

theorem extends_registerAll (s : Session) (m : Mapping) (d : Directory)
    (entries : List (String × Flag)) :
    s.Extends { s with workspace := (Model.registerAll m d entries s.workspace).2 } := by
  refine Model.registerAll_keeps (P := fun w => s.Extends { s with workspace := w }) ?_ (.refl s)
  intro entry _ v next hextends hregister
  exact hextends.trans (extends_register { s with workspace := v } s.byHand hregister)

/-- Catalogs are changed by what only adds mappings. -/
theorem extends_insert (s : Session) (catalogName : String) (c : Catalog)
    (h : ∀ m ∈ (s.workspace.catalog catalogName).mappings, m ∈ c.mappings) {w : Workspace}
    (hcatalogs : w.catalogs = s.workspace.catalogs.insert catalogName c)
    (hmemory : w.memory = s.workspace.memory) (tables : List Table) :
    s.Extends { s with workspace := w, tables } := by
  constructor
  · intro other m hm
    unfold Holds
    dsimp only
    rw [Workspace.catalog_of_insert hcatalogs]
    split
    · next heq =>
      subst heq
      exact h m hm
    · exact hm
  · intro id classId names hnames
    unfold recorded Workspace.memoryOf
    dsimp only
    rw [hmemory]
    exact hnames

/-- No act loses anything. -/
theorem extends_step (s : Session) (act : Act) : s.Extends (s.step act) := by
  have hchanges := s.changes_step act
  generalize s.step act = t at hchanges
  cases hchanges with
  | refused => exact .refl s
  | refusedClass | makeTable _ | makeFlag _ => exact ⟨fun _ _ h => h, fun _ _ _ h => h⟩
  | @createTable catalogName name declared t hcreate =>
    refine s.extends_insert catalogName
      { s.workspace.catalog catalogName with
        tables := (s.workspace.catalog catalogName).tables ++ [t] } ?_ ?_ ?_ (t :: s.tables)
    · exact fun m hm => hm
    · rfl
    · rfl
  | @mapClass catalogName draft m c hmap =>
    obtain ⟨-, hmappings, -⟩ := Catalog.of_mapClass hmap
    refine s.extends_insert catalogName c ?_ ?_ ?_ s.tables
    · intro n hn
      rw [hmappings]
      exact List.mem_append_left [m] hn
    · rfl
    · rfl
  | register hregister => exact s.extends_register _ hregister
  | buildModel => exact s.extends_registerAll _ _ _
  | assignFlag => exact s.extends_remember s.byHand fun _ _ h => h

theorem Later.extends {s t : Session} (h : Later s t) : s.Extends t := by
  induction h with
  | refl => exact .refl s
  | step _ act _ ih => exact ih.trans (extends_step _ act)

end Session

end RowFlags
