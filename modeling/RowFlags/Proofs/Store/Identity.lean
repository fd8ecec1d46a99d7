import RowFlags.Proofs.Store.Typed

/-!
# Objects that keep their identity

A model gives a new object the identity of its class. What is written to the object afterwards goes
to one attribute, that of the name or that of the only column of a flag (`Model.target?`), and
leaves the others. So an object whose discriminator is never the one that is written to keeps the
identity (`Model.Genuine.identity`).
-/

set_option autoImplicit false

namespace RowFlags

/-- The second object is one of the same class with the same attributes, and has the same value of
this one. -/
structure Record.Spares (key : String) (r next : Record) : Prop where
  classId : next.classId = r.classId
  contains : ∀ other, next.attributes.contains other = true ↔ r.attributes.contains other = true
  kept : next.attribute? key = r.attribute? key

namespace Record.Spares

variable {key : String} {r next last : Record}

theorem refl (key : String) (r : Record) : Spares key r r := ⟨rfl, fun _ => .rfl, rfl⟩

theorem trans (h : Spares key r next) (k : Spares key next last) : Spares key r last :=
  ⟨k.classId.trans h.classId, fun other => (k.contains other).trans (h.contains other),
    k.kept.trans h.kept⟩

theorem isOf {m : Mapping} (h : Spares key r next) (hr : r.IsOf m) : next.IsOf m :=
  ⟨h.classId.trans hr.classId, fun other => (h.contains other).trans (hr.keys other)⟩

theorem of_set {name : String} {v : Value} (hset : r.set name v = .ok next) (hname : name ≠ key) :
    Spares key r next := by
  obtain ⟨hkey, rfl⟩ := Record.set_eq_ok_iff.1 hset
  refine ⟨rfl, fun other => ?_, ?_⟩
  · rw [NameMap.contains_insert, or_iff_right_iff_imp]
    rintro rfl
    exact hkey
  · rw [attribute?_insert, if_neg hname]

end Record.Spares

/-! ## What writes go to -/

namespace Workspace

/-- The attribute that an assignment of the flag sets on objects of the class. -/
def target? (w : Workspace) (f : Flag) (classId : ClassId) : Option String :=
  ((w.namingOf f).single f.columns classId).toOption.map Prod.snd

theorem spares_assignFlag {w : Workspace} {f : Flag} {r next : Record} {v : Value} {key : String}
    (hassign : (w.assignFlag f r v).1 = .ok next) (hspared : w.target? f r.classId ≠ some key) :
    r.Spares key next := by
  obtain ⟨d, c, on, name, -, hc, -, hname, -, hset⟩ := Flag.of_assign_eq_ok hassign
  refine .of_set hset fun heq => hspared ?_
  rw [target?, Naming.single_eq_ok_iff.2 ⟨hc, hname⟩, heq]
  rfl

end Workspace

namespace Model

/-- The attribute that a write of the name sets on objects of the model. -/
def target? (m : Model) (w : Workspace) (name : String) : Option String :=
  match m.flags.get? name with
  | some f => w.target? f m.mapping.id
  | none => some name

variable {model : Model} {w : Workspace} {r next : Record} {key name : String} {v : Value}

/-- What was written before does not change what is written to. -/
theorem target?_write (model : Model) (w : Workspace) (r : Record) (name other : String)
    (v : Value) : model.target? (model.write w r name v).2 other = model.target? w other := by
  unfold write
  split
  · next f _ => simp only [target?, Workspace.target?, Workspace.namingOf_assignFlag]
  · rfl

theorem spares_write (hclass : r.classId = model.mapping.id)
    (hwrite : (model.write w r name v).1 = .ok next) (hspared : model.target? w name ≠ some key) :
    r.Spares key next := by
  unfold write at hwrite
  unfold target? at hspared
  split at hwrite
  · next f hf =>
    rw [hf, ← hclass] at hspared
    exact Workspace.spares_assignFlag hwrite hspared
  · next hplain =>
    rw [hplain] at hspared
    unfold writePlain at hwrite
    split at hwrite
    · cases hwrite
    · obtain ⟨value, -, hset⟩ := Outcome.bind_eq_ok_iff.1 hwrite
      exact .of_set hset fun heq => hspared (congrArg some heq)

theorem spares_writeAll {entries : List (String × Value)} (hclass : r.classId = model.mapping.id)
    (hspared : ∀ entry ∈ entries, model.target? w entry.1 ≠ some key)
    (hwrite : (model.writeAll entries w r).1 = .ok next) : r.Spares key next := by
  induction entries generalizing w r with
  | nil =>
    cases hwrite
    exact .refl key _
  | cons entry rest ih =>
    obtain ⟨name, v⟩ := entry
    obtain ⟨hfirst, hrest⟩ := List.forall_mem_cons.1 hspared
    unfold writeAll at hwrite
    split at hwrite
    · cases hwrite
    · next written later heq =>
      have hstep := spares_write hclass (congrArg Prod.fst heq) hfirst
      have hlater : later = (model.write w r name v).2 := (congrArg Prod.snd heq).symm
      refine hstep.trans (ih (hstep.classId.trans hclass) ?_ hwrite)
      intro other hother
      rw [hlater, target?_write]
      exact hrest other hother

/-- The objects that the model makes, as long as nothing that is written to them, by name or by a
flag, goes to the attribute. -/
inductive Genuine (model : Model) (key : String) : Record → Prop
  | create {w : Workspace} {entries : List (String × Value)}
    (hspared : ∀ entry ∈ entries, model.target? w entry.1 ≠ some key) {r : Record}
    (h : (model.create w entries).1 = .ok r) : Genuine model key r
  | set {r : Record} (h : Genuine model key r) {name : String} (hspared : name ≠ key) {v : Value}
    {next : Record} (hset : r.set name v = .ok next) : Genuine model key next
  | assign {r : Record} (h : Genuine model key r) {w : Workspace} {f : Flag}
    (hspared : w.target? f r.classId ≠ some key) {v : Value} {next : Record}
    (hassign : (w.assignFlag f r v).1 = .ok next) : Genuine model key next

namespace Genuine

theorem spares (h : model.Genuine key r) : model.newRecord.Spares key r := by
  induction h with
  | create hspared h =>
    refine spares_writeAll (Mapping.newRecord_classId _) ?_ h
    intro entry hentry
    rw [List.mem_append, List.mem_filter, List.mem_filter] at hentry
    exact hspared entry (hentry.elim And.left And.left)
  | set _ hspared hset ih => exact ih.trans (.of_set hset hspared)
  | assign _ hspared hassign ih => exact ih.trans (Workspace.spares_assignFlag hassign hspared)

theorem isOf (h : model.Genuine key r) (hm : model.mapping.WellFormed) : r.IsOf model.mapping :=
  h.spares.isOf hm.isOf_newRecord

/-- What a model made holds the identity of its class. -/
theorem identity (h : model.Genuine key r) {v : Value}
    (hidentity : model.mapping.discriminator = some ⟨key, v⟩) : r.attribute? key = some v := by
  have hnew : model.newRecord.attribute? key = some v := by
    rw [newRecord, Mapping.newRecord, hidentity]
    dsimp only
    rw [Record.attribute?_insert, if_pos rfl]
  exact h.spares.kept.trans hnew

end Genuine

end Model

end RowFlags
