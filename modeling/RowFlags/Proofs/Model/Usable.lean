import RowFlags.Proofs.Session.Assignments
import RowFlags.Proofs.Store.Inherited

/-!
# What flags of a model are good for

A model that was built has no flag under the name of an attribute, so reading and writing by name
never take one for the other. Its prefetching flags know their columns on its class: on every record
of the class a column is found exactly if the class maps it (`Session.Built.namedBy`). So such a
flag is never refused for want of a registration or of a single name, and if it can be assigned, it
is, unless a producer gives what its column cannot hold (`Session.Built.usable`).
-/

set_option autoImplicit false

namespace RowFlags

/-- The naming knows the columns on the class as far as the class maps them: under one of its
attributes. -/
def Mapping.NamedBy (m : Mapping) (naming : Naming) (columns : List Column) : Prop :=
  ∀ c ∈ columns,
    (c ∈ m.columns ∧ ∃ key, m.hasAttribute key = true ∧ naming m.id c = .ok key) ∨
      (c ∉ m.columns ∧ naming m.id c = .error (.unmapped m.id c))

/-- The columns that reading the flag asks for, in order, until it fails. -/
def Flag.asked (f : Flag) (naming : Naming) (r : Record) : List Column :=
  ((Program.evaluateCode FlagError.eval (Program.noting (r.valueOf naming))
    f.program.code).run.run []).2

/-- What reading the flag comes to on a record of the class. -/
structure Workspace.ReadsOn (w : Workspace) (m : Mapping) (f : Flag) (r : Record) : Prop where
  /-- It is read, unless an operator fails or a column is not mapped. -/
  fails : ∀ e, w.getFlag f r = .error e → (∃ cause, e = .eval cause) ∨ ∃ c, e = .unmapped m.id c
  /-- A column is not mapped exactly if one that is asked for is not, -/
  unmapped : (∃ c, w.getFlag f r = .error (.unmapped m.id c)) ↔
    ∃ c ∈ f.asked (w.namingOf f) r, c ∉ m.columns
  /-- and all of the flag's columns are asked for, if nothing fails. -/
  whole : ∀ on, w.getFlag f r = .ok on → ∀ c ∈ f.columns, c ∈ m.columns

/-- What assigning the flag comes to on a record of the class. -/
structure Workspace.AssignsOn (w : Workspace) (m : Mapping) (f : Flag) (r : Record) : Prop where
  /-- It is assigned, unless that is not for this flag, the column is not mapped, or cannot hold
  what is drawn. -/
  fails : ∀ v e, (w.assignFlag f r v).1 = .error e →
    e = .readOnly ∨ e = .nonBoolean v ∨ (∃ c, e = .unmapped m.id c) ∨
      ∃ name type drawn, e = .incompatible name type drawn
  /-- The column is not mapped exactly if it is asked for and is not. -/
  unmapped : ∀ v c, (w.assignFlag f r v).1 = .error (.unmapped m.id c) ↔
    f.isWritable = true ∧ (∃ on, v = .boolean on) ∧ f.columns = [c] ∧ c ∉ m.columns
  /-- A writable flag is cleared if its column is mapped, -/
  cleared : ∀ c, f.isWritable = true → f.columns = [c] → c ∈ m.columns →
    ∃ next, (w.assignFlag f r (.boolean false)).1 = .ok next
  /-- and set, unless a producer gives what the column cannot hold. -/
  given : ∀ c, f.isWritable = true → f.columns = [c] → c ∈ m.columns →
    (∃ next, (w.assignFlag f r (.boolean true)).1 = .ok next) ∨
      ∃ draw, f.default = some (.producer draw) ∧
        (draw (w.memoryOf f.id).drawn).fits c.type = false

/-- What the names and the flags of a model are good for, after it was built. -/
structure Model.Usable (model : Model) (before now : Session) : Prop where
  /-- No flag has the name of an attribute. -/
  names : ∀ name, model.flags.contains name = true → model.mapping.hasAttribute name = false
  /-- What is read and written under the name of an attribute is the attribute, -/
  attributes : ∀ r, r.IsOf model.mapping → ∀ key, model.mapping.hasAttribute key = true →
    (∃ v, r.attribute? key = some v ∧ model.read now.workspace r key = .ok v) ∧
      ∀ v, model.write now.workspace r key v = (model.writePlain r key v, now.workspace)
  /-- and under the name of a flag it is the flag, and there is no attribute. -/
  flags : ∀ r, r.IsOf model.mapping → ∀ name f, model.flag name = .ok f →
    r.attribute? name = none ∧
      model.read now.workspace r name = Value.boolean <$> now.workspace.getFlag f r ∧
      ∀ v, model.write now.workspace r name v = now.workspace.assignFlag f r v
  /-- A prefetching flag serves on every record of the class. -/
  serves : ∀ name f, model.flag name = .ok f → f.resolver.strategy = .prefetched →
    (f.id, model.mapping.id) ∉ before.byHand →
    ∀ r, r.IsOf model.mapping →
      now.workspace.ReadsOn model.mapping f r ∧ now.workspace.AssignsOn model.mapping f r

/-! ## Flags whose columns are known -/

section Named

variable {m : Mapping} {naming : Naming} {f : Flag} {r : Record}

theorem Mapping.NamedBy.valueOf_cases (h : m.NamedBy naming f.columns) (hr : r.IsOf m) {c : Column}
    (hc : c ∈ f.columns) :
    (c ∈ m.columns ∧ ∃ v, r.valueOf naming c = .ok v) ∨
      (c ∉ m.columns ∧ r.valueOf naming c = .error (.unmapped m.id c)) := by
  rcases h c hc with ⟨hmapped, key, hkey, hname⟩ | ⟨hunmapped, hname⟩
  · obtain ⟨v, hv⟩ := Option.isSome_iff_exists.1 ((hr.keys key).2 hkey)
    rw [← hr.classId] at hname
    exact .inl ⟨hmapped, v, Record.valueOf_eq_ok hname hv⟩
  · rw [Record.valueOf, hr.classId, hname]
    exact .inr ⟨hunmapped, rfl⟩

/-- Reading a flag ends as the columns that it asks for say. -/
theorem Flag.asks (f : Flag) (naming : Naming) (r : Record) :
    Program.Asks FlagError.eval (r.valueOf naming) (f.program.code.filterMap Instruction.column?)
      (f.asked naming r) (f.evaluate naming r) := by
  obtain ⟨asked, hrun, hasks⟩ :=
    Program.evaluateCode_noting_asks FlagError.eval (r.valueOf naming) f.program.code
  obtain rfl : f.asked naming r = asked := congrArg Prod.snd hrun
  exact hasks

/-- Why an assignment on a record of the class is refused, if the flag's columns are known. -/
theorem Mapping.NamedBy.refuses_cases (h : m.NamedBy naming f.columns) (hr : r.IsOf m)
    {drawn : Nat} {v : Value} {e : FlagError} (hrefuses : f.Refuses naming drawn r v e) :
    e = .readOnly ∧ f.default = none ∨ e = .nonBoolean v ∧ (∀ on, v ≠ .boolean on) ∨
      (∃ c, e = .unmapped m.id c ∧ f.isWritable = true ∧ (∃ on, v = .boolean on) ∧
        f.columns = [c] ∧ c ∉ m.columns) ∨
      ∃ d c name, e = .incompatible name c.type (d.draw drawn) ∧ f.default = some d ∧
        f.columns = [c] ∧ v = .boolean true ∧ (d.draw drawn).fits c.type = false := by
  cases hrefuses with
  | readOnly hd => exact .inl ⟨rfl, hd⟩
  | nonBoolean hd hv => exact .inr (.inl ⟨rfl, hv⟩)
  | @unnamed d c on e hd hc hname =>
    rw [hr.classId] at hname
    rcases h c (by simp [hc]) with ⟨-, key, -, hkey⟩ | ⟨hunmapped, hnone⟩
    · cases hkey.symm.trans hname
    · cases hnone.symm.trans hname
      exact .inr (.inr (.inl ⟨c, rfl, by simp [Flag.isWritable, hd], ⟨on, rfl⟩, hc, hunmapped⟩))
  | @incompatible d c name hd hc hname hfits =>
    exact .inr (.inr (.inr ⟨d, c, name, rfl, hd, hc, rfl, hfits⟩))
  | @unknownAttribute d c name on hd hc hname hfits hkey =>
    -- a naming that knows the column gives an attribute of the class, which the record has
    rw [hr.classId] at hname
    rcases h c (by simp [hc]) with ⟨-, key, hhas, hother⟩ | ⟨-, hnone⟩
    · cases hother.symm.trans hname
      obtain ⟨v, hv⟩ := Option.isSome_iff_exists.1 ((hr.keys _).2 hhas)
      cases hkey.symm.trans hv
    · cases hnone.symm.trans hname

variable {w : Workspace}

/-- A flag that knows its columns on the class is read on a record of the class. -/
theorem Mapping.NamedBy.readsOn (h : m.NamedBy (w.namingOf f) f.columns) (hr : r.IsOf m)
    (hloads : ∀ c, .load c ∈ f.program.code ↔ c ∈ f.columns) : w.ReadsOn m f r := by
  have hasks := f.asks (w.namingOf f) r
  have hasked : ∀ c ∈ f.asked (w.namingOf f) r, c ∈ f.columns := fun c hc =>
    (hloads c).1 (Program.load_mem_iff.2 (hasks.first.subset hc))
  have hread (e : FlagError) : w.getFlag f r = .error e ↔
      f.evaluate (w.namingOf f) r = .error e := Outcome.map_eq_error_iff
  refine ⟨?_, ⟨?_, ?_⟩, ?_⟩
  · intro e he
    rcases hasks.fails e ((hread e).1 he) with hoperator | ⟨c, hc, hanswer⟩
    · exact .inl hoperator
    · rcases h.valueOf_cases hr (hasked c hc) with ⟨-, v, hv⟩ | ⟨-, hnone⟩
      · cases hv.symm.trans hanswer
      · cases hnone.symm.trans hanswer
        exact .inr ⟨c, rfl⟩
  · rintro ⟨c, he⟩
    rcases hasks.fails _ ((hread _).1 he) with ⟨cause, hcause⟩ | ⟨d, hd, hanswer⟩
    · cases hcause
    · rcases h.valueOf_cases hr (hasked d hd) with ⟨-, v, hv⟩ | ⟨hunmapped, -⟩
      · cases hv.symm.trans hanswer
      · exact ⟨d, hd, hunmapped⟩
  · rintro ⟨c, hc, hunmapped⟩
    rcases h.valueOf_cases hr (hasked c hc) with ⟨hmapped, -⟩ | ⟨-, hnone⟩
    · exact absurd hmapped hunmapped
    · exact ⟨c, (hread _).2 (hasks.stops c hc _ hnone)⟩
  · intro on hon c hc
    obtain ⟨v, hv, -⟩ := Outcome.map_eq_ok_iff.1 hon
    have hall : c ∈ f.asked (w.namingOf f) r := by
      rw [hasks.all v hv]
      exact Program.load_mem_iff.1 ((hloads c).2 hc)
    rcases h.valueOf_cases hr hc with ⟨hmapped, -⟩ | ⟨-, hnone⟩
    · exact hmapped
    · cases hv.symm.trans (hasks.stops c hall _ hnone)

/-- Only what is drawn can keep a writable flag from being assigned, if its column is mapped. -/
theorem Mapping.NamedBy.assign_boolean_cases (h : m.NamedBy naming f.columns) (hr : r.IsOf m)
    {d : Default} (hd : f.default = some d) {c : Column} (hc : f.columns = [c])
    (hmapped : c ∈ m.columns) (drawn : Nat) (on : Bool) :
    (∃ next, (f.assign naming drawn r (.boolean on)).1 = .ok next) ∨
      on = true ∧ (d.draw drawn).fits c.type = false := by
  cases hassign : (f.assign naming drawn r (.boolean on)).1 with
  | ok next => exact .inl ⟨next, rfl⟩
  | error e =>
    have hrefuses := (Flag.assign_eq_error_iff fun _ _ => ⟨c, hc⟩).1 hassign
    rcases h.refuses_cases hr hrefuses with
      ⟨-, hnone⟩ | ⟨-, hother⟩ | ⟨b, -, -, -, hb, hunmapped⟩ | ⟨d', b, -, -, hd', hb, hon, hfits⟩
    · cases hnone.symm.trans hd
    · exact absurd rfl (hother on)
    · cases hb.symm.trans hc
      exact absurd hmapped hunmapped
    · cases hd'.symm.trans hd
      cases hb.symm.trans hc
      cases hon
      exact .inr ⟨rfl, hfits⟩

/-- A flag that knows its columns on the class is assigned on a record of the class. -/
theorem Mapping.NamedBy.assignsOn (h : m.NamedBy (w.namingOf f) f.columns) (hr : r.IsOf m)
    {id : FlagId} {spec : FlagSpec} (hbuild : Flag.build id spec = .ok f) : w.AssignsOn m f r := by
  have hassign (v : Value) : (w.assignFlag f r v).1 =
      (f.assign (w.namingOf f) (w.memoryOf f.id).drawn r v).1 :=
    (congrArg Prod.fst (w.assign_eq f r v)).symm
  have hrefused (v : Value) (e : FlagError) : (w.assignFlag f r v).1 = .error e ↔
      f.Refuses (w.namingOf f) (w.memoryOf f.id).drawn r v e := by
    rw [hassign]
    exact Flag.assign_eq_error_iff fun d hd => Flag.exists_column_of_build hbuild hd
  refine ⟨?_, fun v c => ⟨?_, ?_⟩, ?_, ?_⟩
  · intro v e he
    rcases h.refuses_cases hr ((hrefused v e).1 he) with
      ⟨rfl, -⟩ | ⟨rfl, -⟩ | ⟨c, rfl, -⟩ | ⟨d, c, name, rfl, -⟩
    · exact .inl rfl
    · exact .inr (.inl rfl)
    · exact .inr (.inr (.inl ⟨c, rfl⟩))
    · exact .inr (.inr (.inr ⟨name, c.type, _, rfl⟩))
  · intro he
    rcases h.refuses_cases hr ((hrefused v _).1 he) with
      ⟨hcause, -⟩ | ⟨hcause, -⟩ | ⟨d, hcause, hfacts⟩ | ⟨d, _, name, hcause, -⟩ <;> cases hcause
    exact hfacts
  · rintro ⟨hwritable, ⟨on, rfl⟩, hc, hunmapped⟩
    obtain ⟨d, hd⟩ := Option.isSome_iff_exists.1 hwritable
    rcases h c (by simp [hc]) with ⟨hmapped, -⟩ | ⟨-, hnone⟩
    · exact absurd hmapped hunmapped
    · rw [← hr.classId] at hnone ⊢
      exact (hrefused (.boolean on) _).2 (.unnamed hd hc hnone)
  · intro c hwritable hc hmapped
    obtain ⟨d, hd⟩ := Option.isSome_iff_exists.1 hwritable
    rw [hassign]
    refine (h.assign_boolean_cases hr hd hc hmapped _ false).resolve_right ?_
    rintro ⟨⟨⟩, -⟩
  · intro c hwritable hc hmapped
    obtain ⟨d, hd⟩ := Option.isSome_iff_exists.1 hwritable
    rw [hassign]
    refine (h.assign_boolean_cases hr hd hc hmapped _ true).imp_right ?_
    rintro ⟨-, hfits⟩
    cases d with
    | value v =>
      -- a constant was checked when the flag was built
      rw [Default.draw, Flag.fits_of_build hbuild hd hc] at hfits
      cases hfits
    | producer draw => exact ⟨draw, hd, hfits⟩

end Named

/-! ## Flags of a model -/

/-- A model that carries on the flags of another has these or its own. -/
theorem Model.mem_entries_carryOn {model : Model} {own : List (String × Flag)}
    {entry : String × Flag} (h : entry ∈ (model.carryOn own).entries) :
    entry ∈ model.flags.entries ∨ entry ∈ own := by
  unfold carryOn at h
  generalize model.flags = flags at h
  induction own generalizing flags with
  | nil => exact .inl h
  | cons first rest ih =>
    rcases ih _ h with hentry | hrest
    · rcases NameMap.mem_of_mem_insertEntry hentry with rfl | hold
      · exact .inr List.mem_cons_self
      · exact .inl hold
    · exact .inr (List.mem_cons_of_mem _ hrest)

/-- Flags that are registered have no names of attributes. -/
theorem Model.hasAttribute_of_registerAll {m : Mapping} {d : Directory}
    {entries : List (String × Flag)} {w : Workspace} (h : (registerAll m d entries w).1 = .ok ())
    {entry : String × Flag} (hentry : entry ∈ entries) : m.hasAttribute entry.1 = false := by
  induction entries generalizing w with
  | nil => cases hentry
  | cons first rest ih =>
    obtain ⟨name, f⟩ := first
    unfold registerAll at h
    split at h
    · cases h
    · next hfree =>
      split at h
      · cases h
      · next next hregister =>
        rcases List.mem_cons.1 hentry with rfl | hrest
        · simpa using hfree
        · exact ih h hrest

namespace Session.Built

variable {before now : Session} {catalogName : String} {model : Model}

/-- A prefetching flag of a model knows its columns on the model's class, unless the class was
registered by hand before. -/
theorem namedBy (h : Built before catalogName model now) {name : String} {f : Flag}
    (hf : model.flag name = .ok f) (hprefetched : f.resolver.strategy = .prefetched)
    (hhand : (f.id, model.mapping.id) ∉ before.byHand) :
    model.mapping.NamedBy (now.workspace.namingOf f) f.columns := by
  have hnames : before.NamesThrough catalogName model f := .inl ⟨hprefetched, hhand⟩
  intro c hc
  by_cases hmapped : c ∈ model.mapping.columns
  · obtain ⟨key, hkey⟩ := h.exists_namesOf_eq_singleton hf hprefetched hhand hc hmapped
    obtain ⟨p, hp, -, hpkey⟩ := Mapping.exists_of_namesOf_eq_singleton hkey
    have hhas := Mapping.hasAttribute_iff.2 ⟨p, hp, hpkey⟩
    exact .inl ⟨hmapped, key, hhas, h.namingOf_eq hf hnames hc hkey⟩
  · have hnone : model.mapping.namesOf c = [] := by
      by_contra hnames
      exact hmapped (Mapping.namesOf_ne_nil_iff.1 hnames)
    refine .inr ⟨hmapped, ?_⟩
    rw [h.namingOf_eq_uniqueName hf hnames hc, hnone]
    rfl

theorem hasAttribute_eq_false (h : Built before catalogName model now) {name : String}
    (hname : model.flags.contains name = true) : model.mapping.hasAttribute name = false := by
  obtain ⟨f, hf⟩ := Option.isSome_iff_exists.1 hname
  exact Model.hasAttribute_of_registerAll h.registerAll_eq_ok (NameMap.mem_of_find?_eq_some hf)

/-- A model that was built keeps the names of its flags and of its attributes apart, and its
prefetching flags serve on every record of the class. -/
theorem usable (h : Built before catalogName model now) : model.Usable before now := by
  refine ⟨fun name => h.hasAttribute_eq_false, ?_, ?_, ?_⟩
  · intro r hr key hkey
    have hplain : model.flags.get? key = none := by
      by_contra hflag
      have hfree := h.hasAttribute_eq_false (Option.isSome_iff_ne_none.2 hflag)
      rw [hkey] at hfree
      cases hfree
    obtain ⟨v, hv⟩ := Option.isSome_iff_exists.1 ((hr.keys key).2 hkey)
    refine ⟨⟨v, hv, ?_⟩, fun v => ?_⟩
    · have hattribute : r.attribute? key = some v := hv
      simp only [Model.read, hplain, hattribute]
    · rw [Model.write, hplain]
  · intro r hr name f hf
    have hget := Model.flag_eq_ok_iff.1 hf
    have hfree := h.hasAttribute_eq_false (Option.isSome_iff_exists.2 ⟨f, hget⟩)
    refine ⟨?_, ?_, fun v => ?_⟩
    · by_contra hattribute
      rw [(hr.keys name).1 (Option.isSome_iff_ne_none.2 hattribute)] at hfree
      cases hfree
    · rw [Model.read, hget]
    · rw [Model.write, hget]
  · intro name f hf hprefetched hhand r hr
    have hnamed := h.namedBy hf hprefetched hhand
    obtain ⟨-, hmade⟩ := h.mem_flags hf
    obtain ⟨⟨spec, hbuild⟩, -⟩ := h.reached.sound.flag f hmade
    refine ⟨hnamed.readsOn hr fun c => ⟨h.reached.sound.mem_columns hmade, fun hc => ?_⟩,
      hnamed.assignsOn hr hbuild⟩
    obtain ⟨-, p, -, hprogram, hcolumns, -⟩ := Flag.of_build hbuild
    rw [hcolumns] at hc
    rw [hprogram]
    exact Program.load_mem_of_mem_columns hc

/-- A model may carry on the flags of another, with further flags that were made, for any class that
the catalog holds. -/
theorem allows_carryOn (h : Built before catalogName model now) {m : Mapping}
    (hm : now.Holds catalogName m) {own : List (String × Flag)}
    (hown : ∀ entry ∈ own, entry.2 ∈ now.flags) :
    now.Allows (.buildModel m (model.carryOn own) catalogName) := by
  refine ⟨hm, fun entry hentry => ?_⟩
  rcases Model.mem_entries_carryOn hentry with hinherited | hentry
  · exact h.later.mem_flags (mem_flags_step (h.allows.2 entry hinherited) _)
  · exact hown entry hentry

end Session.Built

namespace Model

open Session (sampleTickets sampleNumber sampleDispenser sampleCalled)

/-- The class of tickets, and that of passes, which are tickets. -/
def sampleTicketClass : Mapping where
  id := ⟨1⟩
  className := "Ticket"
  table := sampleTickets
  properties := [⟨"number", sampleNumber⟩]
  parent := none
  discriminator := none

@[inherit_doc sampleTicketClass]
def samplePassClass : Mapping :=
  { sampleTicketClass with
    id := ⟨2⟩
    className := "Pass"
    parent := some ⟨1⟩ }

/-- Whether a ticket is called, under the names that were recorded. -/
def sampleStamped : Flag := { sampleCalled with resolver := ⟨[sampleNumber], .prefetched⟩ }

/-- Tickets with their flag. -/
def sampleDesk : Model := ⟨sampleTicketClass, NameMap.empty.insert "called" sampleStamped⟩

/-- Passes, which carry it on. -/
def samplePasses : Model := ⟨samplePassClass, sampleDesk.carryOn []⟩

/-- The session before the tickets are built. -/
def sampleHall : Session :=
  (({ : Session }.step (.createTable "main" "ticket" sampleTickets.declared)).step
    (.mapClass "main"
      { className := "Ticket", table := sampleTickets, entries := [("number", "number")] })).step
    (.makeFlag { condition := .column sampleNumber, default := some sampleDispenser })

/-- Passes are mapped when tickets are built already. -/
def sampleMapped : Session :=
  (sampleHall.step (.buildModel sampleTicketClass sampleDesk.flags "main")).step
    (.mapClass "main"
      { className := "Pass", table := sampleTickets, parent := some sampleTicketClass })

/-- The session after passes are built. -/
def sampleServing : Session :=
  sampleMapped.step (.buildModel samplePassClass samplePasses.flags "main")

theorem built_sampleDesk : sampleHall.Built "main" sampleDesk sampleMapped where
  reached := by
    refine .step (.step (.step .refl _ ?_) _ ?_) _ ?_
    · trivial
    · exact ⟨by decide, fun parent h => by cases h⟩
    · intro p hp c hc
      cases hp
      obtain rfl : c = sampleNumber := by simpa using hc
      exact ⟨sampleTickets, by decide, by decide⟩
  allows := by
    refine ⟨by show sampleTicketClass ∈ _; decide, ?_⟩
    intro entry hentry
    obtain rfl : entry = ("called", sampleStamped) := List.mem_singleton.1 hentry
    exact List.mem_singleton_self sampleStamped
  built := rfl
  later := by
    refine .step .refl _ ⟨by decide, ?_⟩
    rintro parent ⟨⟩
    exact ⟨"main", by show sampleTicketClass ∈ _; decide⟩

theorem built_samplePasses : sampleMapped.Built "main" samplePasses sampleServing where
  reached := built_sampleDesk.reached_now
  allows := built_sampleDesk.allows_carryOn (by show samplePassClass ∈ _; decide) (by simp)
  built := rfl
  later := .refl

/-- The flag serves on passes as well. A new pass is not called, and the dispenser, which gives no
number at first, is the only reason why it is not called then. -/
theorem usable_samplePasses : samplePasses.Usable sampleMapped sampleServing ∧
    sampleServing.workspace.ReadsOn samplePassClass sampleStamped samplePassClass.newRecord ∧
    sampleServing.workspace.getFlag sampleStamped samplePassClass.newRecord = .ok false ∧
    (sampleServing.workspace.assignFlag sampleStamped samplePassClass.newRecord
      (.boolean true)).1 = .error (.incompatible "number" .int32 (.string "empty")) ∧
    ∃ draw, sampleStamped.default = some (.producer draw) ∧ (draw 0).fits .int32 = false := by
  have husable := built_samplePasses.usable
  have hrecord : samplePassClass.newRecord.IsOf samplePassClass :=
    built_samplePasses.wellFormed.isOf_newRecord
  have hflag : samplePasses.flag "called" = .ok sampleStamped := rfl
  have hserves := husable.serves "called" sampleStamped hflag rfl (by decide)
  obtain ⟨hreads, hassigns⟩ := hserves _ hrecord
  have hrefused : (sampleServing.workspace.assignFlag sampleStamped samplePassClass.newRecord
      (.boolean true)).1 = .error (.incompatible "number" .int32 (.string "empty")) := rfl
  refine ⟨husable, hreads, rfl, hrefused, ?_⟩
  rcases hassigns.given sampleNumber rfl rfl (by decide) with ⟨next, hnext⟩ | hdraw
  · cases hrefused.symm.trans hnext
  · exact hdraw

end Model

end RowFlags
