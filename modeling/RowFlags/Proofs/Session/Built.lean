import RowFlags.Proofs.Session.Sound

/-!
# Built models

A model that was built against the catalog holding its class knows its flags' columns as the mapping
of the class does, in the session it was built in and in every later one
(`Session.Built.namingOf_eq_uniqueName`): a prefetching flag by what was recorded when the model was
built, an on-demand flag by asking the catalog, which still holds the mapping. Writing through the
model goes on to such a session (`Session.Built.exists_write`).
-/

set_option autoImplicit false

namespace RowFlags

theorem Session.recorded_of_register {s : Session} {f : Flag} {d : Directory} {classId : ClassId}
    {w : Workspace} (h : s.workspace.register f d classId = .ok w)
    (hprefetched : f.resolver.strategy = .prefetched) :
    ∃ names, recorded { s with workspace := w } f.id classId = some names := by
  obtain ⟨registry, hregistry, rfl⟩ := Workspace.of_register h
  obtain ⟨names, hnames⟩ := Resolver.exists_names?_of_register hprefetched hregistry
  refine ⟨names, ?_⟩
  show ((s.workspace.remember f.id _).memoryOf f.id).registry.names? classId = some names
  rw [Workspace.memoryOf_remember, if_pos rfl]
  exact hnames

namespace Model

theorem flag_eq_ok_iff {m : Model} {name : String} {f : Flag} :
    m.flag name = .ok f ↔ m.flags.get? name = some f := by
  unfold flag
  cases m.flags.get? name <;> simp

/-- Flags that are registered by prefetching are recorded, those that were registered first too. -/
theorem recorded_of_registerAll {m : Mapping} {d : Directory} {entries : List (String × Flag)}
    {s : Session} (h : (registerAll m d entries s.workspace).1 = .ok ()) {entry : String × Flag}
    (hentry : entry ∈ entries) (hprefetched : entry.2.resolver.strategy = .prefetched) :
    ∃ names, Session.recorded { s with workspace := (registerAll m d entries s.workspace).2 }
      entry.2.id m.id = some names := by
  induction entries generalizing s with
  | nil => cases hentry
  | cons first rest ih =>
    obtain ⟨key, f⟩ := first
    unfold registerAll at h ⊢
    split at h
    · cases h
    · next hfree =>
      rw [if_neg hfree]
      split at h
      · cases h
      · next w hregister =>
        rcases List.mem_cons.1 hentry with rfl | hrest
        · obtain ⟨names, hnames⟩ := Session.recorded_of_register hregister hprefetched
          exact ⟨names, (Session.extends_registerAll _ m d rest).recorded _ _ _ hnames⟩
        · exact ih (s := { s with workspace := w }) h hrest

end Model

namespace Session

/-- Flags that were made stay. -/
theorem mem_flags_step {s : Session} {f : Flag} (h : f ∈ s.flags) (act : Act) :
    f ∈ (s.step act).flags := by
  have hchanges := s.changes_step act
  generalize s.step act = t at hchanges
  cases hchanges with
  | makeFlag hbuild => exact List.mem_cons_of_mem _ h
  | _ => exact h

theorem Later.mem_flags {s t : Session} (h : Later s t) {f : Flag} (hf : f ∈ s.flags) :
    f ∈ t.flags := by
  induction h with
  | refl => exact hf
  | step _ act _ ih => exact mem_flags_step ih act

/-- The model was built in the first session, against the catalog that holds its class, and the
second session is one after that. -/
structure Built (before : Session) (catalogName : String) (model : Model) (now : Session) :
    Prop where
  reached : before.Reached
  allows : before.Allows (.buildModel model.mapping model.flags catalogName)
  built : (before.build model.mapping model.flags catalogName).1 = .ok model
  later : Later (before.step (.buildModel model.mapping model.flags catalogName)) now

/-- The flag names its columns through the model: it prefetches and was not registered with the
class by hand before, or asks the catalog on demand. -/
def NamesThrough (before : Session) (catalogName : String) (model : Model) (f : Flag) : Prop :=
  f.resolver.strategy = .prefetched ∧ (f.id, model.mapping.id) ∉ before.byHand ∨
    f.resolver.strategy = .onDemand (.catalog catalogName)

/-- The columns that a flag asks for are its columns. -/
theorem Sound.mem_columns {s : Session} (h : s.Sound) {f : Flag} (hf : f ∈ s.flags) {c : Column}
    (hc : .load c ∈ f.program.code) : c ∈ f.columns := by
  obtain ⟨⟨spec, hbuild⟩, hcolumns⟩ := h.flag f hf
  obtain ⟨-, p, -, hprogram, hsame, -⟩ := Flag.of_build hbuild
  obtain ⟨d, hd, hidentity⟩ := Program.exists_mem_columns hc
  obtain ⟨t, ht, hct⟩ := hcolumns c hc
  obtain ⟨u, hu, hdu⟩ := hcolumns d (Program.load_mem_of_mem_columns hd)
  -- columns of one identity belong to one table, and stand at one place there
  have htable : d.table = c.table := (Prod.ext_iff.1 hidentity).1
  obtain rfl : t = u := h.table_eq ht hu (by
    rw [← Table.table_of_mem_columns hct, ← Table.table_of_mem_columns hdu, htable])
  rw [hsame, ← hprogram, ← Table.eq_of_identity_eq hdu hct hidentity]
  exact hd

namespace Built

variable {before now : Session} {catalogName : String} {model : Model}

theorem reached_now (h : Built before catalogName model now) : now.Reached :=
  .trans (.step h.reached _ h.allows) h.later

theorem sound_now (h : Built before catalogName model now) : now.Sound := h.reached_now.sound

theorem holds_now (h : Built before catalogName model now) :
    now.Holds catalogName model.mapping :=
  h.later.extends.holds _ _ ((extends_step before _).holds _ _ h.allows.1)

theorem wellFormed (h : Built before catalogName model now) : model.mapping.WellFormed :=
  (h.sound_now.mapping _ _ h.holds_now).2

theorem mem_flags (h : Built before catalogName model now) {name : String} {f : Flag}
    (hf : model.flag name = .ok f) : (name, f) ∈ model.flags.entries ∧ f ∈ before.flags := by
  have hentry : (name, f) ∈ model.flags.entries :=
    NameMap.mem_of_find?_eq_some (Model.flag_eq_ok_iff.1 hf)
  exact ⟨hentry, h.allows.2 _ hentry⟩

theorem registerAll_eq_ok (h : Built before catalogName model now) :
    (Model.registerAll model.mapping (before.workspace.directoryOf (.catalog catalogName))
      model.flags.entries before.workspace).1 = .ok () := by
  have hbuilt := h.built
  unfold build Model.build at hbuilt
  split at hbuilt
  · cases hbuilt
  · next hall => rw [hall]

/-- What a prefetching flag of a model has recorded of its class is what the mapping says, unless
the class was registered by hand before. -/
theorem exists_recorded (h : Built before catalogName model now) {name : String} {f : Flag}
    (hf : model.flag name = .ok f) (hprefetched : f.resolver.strategy = .prefetched)
    (hhand : (f.id, model.mapping.id) ∉ before.byHand) :
    ∃ names, now.recorded f.id model.mapping.id = some names ∧
      Registry.collect model.mapping.directory model.mapping.id
        (model.mapping.columns.filter (· ∈ f.columns)) = .ok names := by
  obtain ⟨hentry, hmade⟩ := h.mem_flags hf
  have hsound := h.reached.sound.step h.allows
  have hstep : before.step (.buildModel model.mapping model.flags catalogName) =
      { before with workspace := (Model.registerAll model.mapping
        (before.workspace.directoryOf (.catalog catalogName)) model.flags.entries
        before.workspace).2 } := by
    simp only [step, build, Model.build_snd]
  obtain ⟨names, hnames⟩ := Model.recorded_of_registerAll h.registerAll_eq_ok hentry hprefetched
  rw [← hstep] at hnames
  have hbyHand : (f.id, model.mapping.id) ∉
      (before.step (.buildModel model.mapping model.flags catalogName)).byHand := hhand
  obtain ⟨g, hg, hid, other, m, hm, hclass, hcollect⟩ := hsound.vouched _ _ _ hbyHand hnames
  obtain rfl : g = f := hsound.flag_eq hg hmade hid
  obtain rfl : m = model.mapping :=
    hsound.mapping_eq hm ((extends_step before _).holds _ _ h.allows.1) hclass
  exact ⟨names, h.later.extends.recorded _ _ _ hnames, hcollect⟩

/-- In every later session the flags of a model name their columns as its class does. -/
theorem namingOf_eq_uniqueName (h : Built before catalogName model now) {name : String} {f : Flag}
    (hf : model.flag name = .ok f) (hnames : before.NamesThrough catalogName model f)
    {c : Column} (hc : c ∈ f.columns) :
    now.workspace.namingOf f model.mapping.id c =
      uniqueName model.mapping.id c (model.mapping.namesOf c) := by
  rcases hnames with ⟨hprefetched, hhand⟩ | hdemand
  · obtain ⟨names, hrecorded, hcollect⟩ := h.exists_recorded hf hprefetched hhand
    unfold recorded at hrecorded
    unfold Workspace.namingOf Resolver.naming Registry.naming
    rw [hprefetched]
    by_cases hmapped : c ∈ model.mapping.columns
    · have htracked : c ∈ model.mapping.columns.filter (· ∈ f.columns) :=
        List.mem_filter.2 ⟨hmapped, by simpa using hc⟩
      obtain ⟨found, hfound, hlookup⟩ := Registry.lookup_of_collect hcollect htracked
      simp only [hrecorded, hlookup]
      exact hfound.symm
    · have hlookup := Registry.lookup_eq_none_of_collect hcollect
        fun hmem => hmapped (List.mem_filter.1 hmem).1
      have hnone : model.mapping.namesOf c = [] := by
        by_contra hnames
        exact hmapped (Mapping.namesOf_ne_nil_iff.1 hnames)
      simp only [hrecorded, hlookup, hnone]
      rfl
  · have hspeaks := h.sound_now.speaksFor h.holds_now
    unfold Workspace.namingOf Resolver.naming
    rw [hdemand]
    exact hspeaks.naming_eq c

/-- A column that the class maps under one attribute goes by that attribute. -/
theorem namingOf_eq (h : Built before catalogName model now) {name : String} {f : Flag}
    (hf : model.flag name = .ok f) (hnames : before.NamesThrough catalogName model f)
    {c : Column} (hc : c ∈ f.columns) {key : String} (hkey : model.mapping.namesOf c = [key]) :
    now.workspace.namingOf f model.mapping.id c = .ok key := by
  rw [h.namingOf_eq_uniqueName hf hnames hc, hkey]
  rfl

/-- Assigning a flag of the model goes on to a later session. -/
theorem assignFlag (h : Built before catalogName model now) {name : String} {f : Flag}
    (hf : model.flag name = .ok f) (r : Record) (v : Value) :
    Built before catalogName model (now.step (.assignFlag f r v)) := by
  have hmade : f ∈ (before.step (.buildModel model.mapping model.flags catalogName)).flags :=
    mem_flags_step (h.mem_flags hf).2 _
  exact { h with later := .step h.later _ (h.later.mem_flags hmade) }

/-- Writing through the model, and being refused, goes on to a later session. -/
theorem exists_write (h : Built before catalogName model now) (r : Record) (name : String)
    (v : Value) :
    ∃ next : Session, next.workspace = (model.write now.workspace r name v).2 ∧
      Built before catalogName model next := by
  unfold Model.write
  split
  · next f hget => exact ⟨_, rfl, h.assignFlag (Model.flag_eq_ok_iff.2 hget) r v⟩
  · exact ⟨now, rfl, h⟩

end Built

end Session

end RowFlags
