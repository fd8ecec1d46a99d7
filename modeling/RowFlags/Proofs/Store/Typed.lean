import Mathlib.Data.List.Nodup
import RowFlags.Proofs.Flag.Assignment
import RowFlags.Proofs.Session.Built
import RowFlags.Proofs.Store.Effects
import RowFlags.Proofs.Stored.Writing

/-!
# Well-typed objects

An object of a class is well typed if each attribute holds NULL or a value of its column's type
(`Record.Typed`). A new object is, provided that the identity of its class fits. What is written to
an attribute is checked against some column: a plain value against the attribute's own, a flag's
default against the only column of the flag, which is the column of the attribute that the flag
writes (`Session.Built.typed_assignFlag`). So every object that a model makes and changes stays well
typed (`Model.Obtained.typed`), and a store of the class's table refuses it only for an instant that
is out of range or for want of room (`Model.Obtained.storable`).
-/

set_option autoImplicit false

namespace RowFlags

/-! ## Attributes and their columns -/

/-- The object has the attributes of the class, each with NULL or a value of its column's type. -/
structure Record.Typed (r : Record) (m : Mapping) : Prop extends r.IsOf m where
  fits : ∀ p ∈ m.properties, ∀ v, r.attribute? p.key = some v → v.fits p.column.type = true

/-- The identity of the class fits the column of the discriminator. -/
def Mapping.IdentityFits (m : Mapping) : Prop :=
  ∀ d, m.discriminator = some d → ∀ p ∈ m.properties, p.key = d.key →
    d.identity.fits p.column.type = true

theorem BindsOnce.eq_of_key {t : Table} {properties : List Property} (h : BindsOnce t properties)
    {p q : Property} (hp : p ∈ properties) (hq : q ∈ properties) (hkey : p.key = q.key) : p = q :=
  List.inj_on_of_nodup_map h.nodup hp hq hkey

theorem Mapping.of_property? {m : Mapping} {key : String} {p : Property}
    (h : m.property? key = some p) : p ∈ m.properties ∧ p.key = key :=
  ⟨List.mem_of_find?_eq_some h, by simpa using List.find?_some h⟩

/-! ## Objects stay well typed -/

/-- In a new object every attribute is NULL but for the identity. -/
theorem Mapping.WellFormed.typed_newRecord {m : Mapping} (h : m.WellFormed)
    (hidentity : m.IdentityFits) : m.newRecord.Typed m := by
  refine ⟨h.isOf_newRecord, ?_⟩
  intro p hp v hv
  have hblank {w : Value} (hw : (Record.blank m).attribute? p.key = some w) : w = .null := by
    rcases NameMap.mem_of_get?_foldl_insert hw with hnone | hentry
    · cases hnone
    · obtain ⟨q, -, hq⟩ := List.mem_map.1 hentry
      exact (Prod.mk.inj hq).2.symm
  unfold newRecord at hv
  split at hv
  · obtain rfl := hblank hv
    rfl
  · next d hd =>
    dsimp only at hv
    rw [Record.attribute?_insert] at hv
    split at hv
    · next hkey =>
      cases hv
      exact hidentity d hd p hp hkey.symm
    · obtain rfl := hblank hv
      rfl

namespace Record.Typed

variable {r next : Record} {m : Mapping}

/-- Setting an attribute to what its column can hold. -/
theorem set (h : r.Typed m) (hm : m.WellFormed) {p : Property} (hp : p ∈ m.properties) {v : Value}
    (hv : v.fits p.column.type = true) (hset : r.set p.key v = .ok next) : next.Typed m := by
  obtain ⟨hkey, rfl⟩ := Record.set_eq_ok_iff.1 hset
  refine ⟨h.toIsOf.insert ((h.keys _).1 hkey) v, ?_⟩
  intro q hq w hw
  rw [attribute?_insert] at hw
  split at hw
  · next heq =>
    obtain rfl := hm.binds.eq_of_key hp hq heq
    cases hw
    exact hv
  · exact h.fits q hq w hw

theorem writePlain {model : Model} (h : r.Typed model.mapping) (hm : model.mapping.WellFormed)
    {name : String} {v : Value} (hwrite : model.writePlain r name v = .ok next) :
    next.Typed model.mapping := by
  unfold Model.writePlain at hwrite
  split at hwrite
  · cases hwrite
  · next p hfind =>
    obtain ⟨hp, rfl⟩ := Mapping.of_property? hfind
    obtain ⟨w, hcheck, hset⟩ := Outcome.bind_eq_ok_iff.1 hwrite
    obtain ⟨hfits, rfl⟩ := checkFit_eq_ok_iff.1 hcheck
    exact h.set hm hp hfits hset

end Record.Typed

namespace Session.Built

variable {before now : Session} {catalogName : String} {model : Model} {r next : Record}

/-- A flag of a model writes an attribute of its own column. -/
theorem typed_assignFlag (h : Built before catalogName model now) (hr : r.Typed model.mapping)
    {name : String} {f : Flag} (hf : model.flag name = .ok f)
    (hnames : before.NamesThrough catalogName model f) {v : Value}
    (hassign : (now.workspace.assignFlag f r v).1 = .ok next) : next.Typed model.mapping := by
  obtain ⟨d, c, on, key, -, hc, -, hkey, hfits, hset⟩ := Flag.of_assign_eq_ok hassign
  have hmem : c ∈ f.columns := hc ▸ List.mem_singleton_self c
  rw [hr.classId, h.namingOf_eq_uniqueName hf hnames hmem] at hkey
  obtain ⟨p, hp, rfl, rfl⟩ := Mapping.mem_namesOf_iff.1 (mem_of_uniqueName hkey)
  exact hr.set h.wellFormed hp hfits hset

section Writing

variable (hnames : ∀ name f, model.flag name = .ok f → before.NamesThrough catalogName model f)

include hnames

theorem typed_write (h : Built before catalogName model now) (hr : r.Typed model.mapping)
    {name : String} {v : Value} (hwrite : (model.write now.workspace r name v).1 = .ok next) :
    next.Typed model.mapping := by
  unfold Model.write at hwrite
  split at hwrite
  · next f hget =>
    have hf := Model.flag_eq_ok_iff.2 hget
    exact h.typed_assignFlag hr hf (hnames name f hf) hwrite
  · exact hr.writePlain h.wellFormed hwrite

theorem typed_setFlag (h : Built before catalogName model now) (hr : r.Typed model.mapping)
    {name : String} {v : Value} (hset : (model.setFlag now.workspace r name v).1 = .ok next) :
    next.Typed model.mapping := by
  unfold Model.setFlag at hset
  split at hset
  · cases hset
  · next f hf => exact h.typed_assignFlag hr hf (hnames name f hf) hset

/-- Each write leaves a session in which the model is built still, so the next one can go on. -/
theorem typed_writeAll (h : Built before catalogName model now) (hr : r.Typed model.mapping)
    {entries : List (String × Value)}
    (hwrite : (model.writeAll entries now.workspace r).1 = .ok next) :
    next.Typed model.mapping := by
  induction entries generalizing now r with
  | nil =>
    cases hwrite
    exact hr
  | cons entry rest ih =>
    obtain ⟨name, v⟩ := entry
    obtain ⟨later, hlater, hbuilt⟩ := h.exists_write r name v
    unfold Model.writeAll at hwrite
    split at hwrite
    · cases hwrite
    · next first w hfirst =>
      rw [hfirst] at hlater
      obtain rfl : later.workspace = w := hlater
      exact ih hbuilt (h.typed_write hnames hr (congrArg Prod.fst hfirst)) hwrite

end Writing

end Session.Built

namespace Model

/-- The objects that a model makes, as they are changed through it in the sessions after it was
built. A refused change leaves the object as it was. -/
inductive Obtained (before : Session) (catalogName : String) (model : Model) : Record → Prop
  | new : Obtained before catalogName model model.newRecord
  | create {now : Session} (hbuilt : before.Built catalogName model now)
    {entries : List (String × Value)} {r : Record}
    (h : (model.create now.workspace entries).1 = .ok r) : Obtained before catalogName model r
  | write {now : Session} (hbuilt : before.Built catalogName model now) {r : Record}
    (h : Obtained before catalogName model r) (name : String) (v : Value) :
    Obtained before catalogName model ((model.write now.workspace r name v).1.toOption.getD r)
  | setFlag {now : Session} (hbuilt : before.Built catalogName model now) {r : Record}
    (h : Obtained before catalogName model r) (name : String) (v : Value) :
    Obtained before catalogName model ((model.setFlag now.workspace r name v).1.toOption.getD r)

/-- What a model makes stays well typed. -/
theorem Obtained.typed {before now : Session} {catalogName : String} {model : Model} {r : Record}
    (h : Obtained before catalogName model r) (hbuilt : before.Built catalogName model now)
    (hnames : ∀ name f, model.flag name = .ok f → before.NamesThrough catalogName model f)
    (hidentity : model.mapping.IdentityFits) : r.Typed model.mapping := by
  have hnew : model.newRecord.Typed model.mapping := hbuilt.wellFormed.typed_newRecord hidentity
  have hkept {r : Record} {result : Except FlagError Record} (hr : r.Typed model.mapping)
      (hresult : ∀ next, result = .ok next → next.Typed model.mapping) :
      (result.toOption.getD r).Typed model.mapping := by
    cases result with
    | error e => exact hr
    | ok next => exact hresult next rfl
  induction h with
  | new => exact hnew
  | create hbuilt h => exact hbuilt.typed_writeAll hnames hnew h
  | write hbuilt _ name v ih => exact hkept ih fun _ => hbuilt.typed_write hnames ih
  | setFlag hbuilt _ name v ih => exact hkept ih fun _ => hbuilt.typed_setFlag hnames ih

end Model

/-! ## Well-typed objects in stores -/

theorem Table.schema_eq (t : Table) : t.schema = t.columns.map Column.type :=
  (t.map_columns fun _ _ => rfl).symm

namespace Store

variable {s : Store} {m : Mapping} {r : Record}

/-- What a well-typed object gives a column fits it. -/
theorem fits_columnValue (h : r.Typed m) (c : Column) : (columnValue m r c).fits c.type = true := by
  rcases columnValue_cases m r c with hnull | ⟨p, hp, rfl, hvalue⟩
  · rw [hnull]
    rfl
  · exact h.fits p hp _ hvalue

/-- A store of the class's table refuses a well-typed object only for one of its instants, which is
out of range, or for want of room. -/
theorem of_insert_eq_error (h : r.Typed m) (htable : s.table = m.table) {e : StoreError}
    (hinsert : s.insert m r = .error e) :
    (∃ key t, r.attribute? key = some (.timestamp t) ∧ ¬ Instant.Storable t.nanoseconds ∧
        e = .row (.outOfRange t)) ∨
      capacity ≤ s.slots.size ∧ e = .full := by
  rcases insert_eq_error_iff.1 hinsert with hencode | ⟨-, hfull⟩
  · rcases encode_eq_error_iff.1 hencode with ⟨hother, -⟩ | ⟨-, cause, hcause, rfl⟩
    · exact absurd (congrArg Table.id htable.symm) hother
    · have hfits : ∀ field ∈ s.table.schema.zip (s.columnValues m r),
          field.2.fits field.1 = true := by
        rw [Table.schema_eq, columnValues, List.zip_map', List.forall_mem_map]
        exact fun c _ => fits_columnValue h c
      obtain ⟨t, ht, hout, rfl⟩ := Stored.exists_of_encodeRow_eq_error hcause
        (by simp [columnValues]) hfits
      obtain ⟨c, -, hc⟩ := List.mem_map.1 ht
      rcases columnValue_cases m r c with hnull | ⟨p, -, -, hvalue⟩
      · cases hc.symm.trans hnull
      · exact .inl ⟨p.key, t, hvalue.trans (congrArg some hc), hout, rfl⟩
  · exact .inr hfull

end Store

/-- An object that a model made and changed has the attributes of its class, and each of them holds
NULL or a value of its column's type. So a store of the class's table refuses it only for an instant
that is out of range or for want of room. -/
theorem Model.Obtained.storable {before now : Session} {catalogName : String} {model : Model}
    (hbuilt : before.Built catalogName model now)
    (hnames : ∀ name f, model.flag name = .ok f → before.NamesThrough catalogName model f)
    (hidentity : model.mapping.IdentityFits) {r : Record}
    (h : Obtained before catalogName model r) :
    (∀ key, (∃ v, r.attribute? key = some v) ↔ ∃ p ∈ model.mapping.properties, p.key = key) ∧
      (∀ p ∈ model.mapping.properties, ∀ v, r.attribute? p.key = some v →
        v = .null ∨ v.columnType? = some p.column.type) ∧
      ∀ s : Store, s.table = model.mapping.table → ∀ e, s.insert model.mapping r = .error e →
        (∃ key t, r.attribute? key = some (.timestamp t) ∧ ¬ Instant.Storable t.nanoseconds ∧
            e = .row (.outOfRange t)) ∨
          Store.capacity ≤ s.slots.size ∧ e = .full := by
  have htyped := h.typed hbuilt hnames hidentity
  refine ⟨?_, ?_, fun s htable e => Store.of_insert_eq_error htyped htable⟩
  · intro key
    rw [← Option.isSome_iff_exists, ← Mapping.hasAttribute_iff]
    exact htyped.keys key
  · intro p hp v hv
    exact Value.fits_iff.1 (htyped.fits p hp v hv)

namespace Model

/-- Contracts that are kept until some time. -/
def sampleContracts : Table :=
  ⟨⟨1⟩, "contract", [⟨"kind", .varchar⟩, ⟨"kept_until", .timestamp⟩], by decide, by decide⟩

/-- The class of leases among the contracts. -/
def sampleLease : Mapping where
  id := ⟨1⟩
  className := "Lease"
  table := sampleContracts
  properties :=
    [⟨"kind", ⟨⟨1⟩, 0, "contract", "kind", .varchar⟩⟩,
      ⟨"until", ⟨⟨1⟩, 1, "contract", "kept_until", .timestamp⟩⟩]
  parent := none
  discriminator := some ⟨"kind", .string "lease"⟩

/-- The last second of the year 9999, which eight bytes of nanoseconds cannot tell. -/
def sampleForever : Instant := ⟨253402300799, 0, by decide⟩

/-- Whether a contract is kept; assigning it keeps the contract for ever. -/
def sampleKept : Flag where
  id := ⟨1⟩
  program :=
    { source := .isNotNull (.column ⟨⟨1⟩, 1, "contract", "kept_until", .timestamp⟩)
      code := [.push .null, .load ⟨⟨1⟩, 1, "contract", "kept_until", .timestamp⟩,
        .operate (.binary .ne)] }
  resolver := ⟨[⟨⟨1⟩, 1, "contract", "kept_until", .timestamp⟩], .onDemand (.catalog "main")⟩
  default := some (.value (.timestamp sampleForever))

/-- Leases with their flag. -/
def sampleArchive : Model := ⟨sampleLease, NameMap.empty.insert "kept" sampleKept⟩

/-- The session in which all this was made, before the model is built. -/
def sampleOffice : Session :=
  ((({ : Session }.step (.createTable "main" "contract" sampleContracts.declared)).step
    (.mapClass "main"
      { className := "Lease", table := sampleContracts
        entries := [("kind", "kind"), ("until", "kept_until")]
        identity := some ⟨some "kind", .string "lease"⟩ })).step
    (.makeFlag
      { condition := .column ⟨⟨1⟩, 1, "contract", "kept_until", .timestamp⟩
        default := some (.value (.timestamp sampleForever))
        strategy := .onDemand (.catalog "main") }))

/-- The session after the model is built. -/
def sampleOpen : Session :=
  sampleOffice.step (.buildModel sampleLease sampleArchive.flags "main")

theorem built_sampleArchive : sampleOffice.Built "main" sampleArchive sampleOpen where
  reached := by
    refine .step (.step (.step .refl _ ?_) _ ?_) _ ?_
    · trivial
    · exact ⟨by decide, fun parent h => by cases h⟩
    · intro p hp c hc
      cases hp
      obtain rfl : c = ⟨⟨1⟩, 1, "contract", "kept_until", .timestamp⟩ := by simpa using hc
      exact ⟨sampleContracts, by decide, by decide⟩
  allows := by
    refine ⟨by show sampleLease ∈ _; decide, ?_⟩
    intro entry hentry
    obtain rfl : entry = ("kept", sampleKept) := List.mem_singleton.1 hentry
    exact List.mem_singleton_self sampleKept
  built := rfl
  later := .refl

/-- A new lease that is kept for ever is well typed, but is not stored, because of its time. -/
theorem storable_sampleArchive :
    ∃ r, (sampleArchive.create sampleOpen.workspace [("kept", .boolean true)]).1 = .ok r ∧
      r.attribute? "kind" = some (.string "lease") ∧
      (∃ v, r.attribute? "until" = some v ∧ v.columnType? = some .timestamp) ∧
      ∃ key t, r.attribute? key = some (.timestamp t) ∧ ¬ Instant.Storable t.nanoseconds ∧
        ∃ e, (Store.empty sampleContracts).insert sampleLease r = .error e ∧
          e = .row (.outOfRange t) := by
  have hnames : ∀ name f, sampleArchive.flag name = .ok f →
      sampleOffice.NamesThrough "main" sampleArchive f := by
    intro name f hf
    have hentry := (built_sampleArchive.mem_flags hf).1
    obtain ⟨-, rfl⟩ := Prod.mk.inj (List.mem_singleton.1 hentry)
    exact .inr rfl
  have hidentity : sampleLease.IdentityFits := by
    intro d hd
    cases hd
    decide
  obtain ⟨r, hr, hkind, huntil, e, he⟩ : ∃ r,
      (sampleArchive.create sampleOpen.workspace [("kept", .boolean true)]).1 = .ok r ∧
        r.attribute? "kind" = some (.string "lease") ∧
        r.attribute? "until" = some (.timestamp sampleForever) ∧
        ∃ e, (Store.empty sampleContracts).insert sampleLease r = .error e :=
    ⟨_, rfl, rfl, rfl, _, rfl⟩
  obtain ⟨-, htypes, hrefused⟩ := Obtained.storable built_sampleArchive hnames hidentity
    (.create built_sampleArchive hr)
  rcases hrefused (Store.empty sampleContracts) rfl e he with ⟨key, t, hkey, hout, hcause⟩ | hfull
  · refine ⟨r, hr, hkind, ⟨_, huntil, ?_⟩, key, t, hkey, hout, e, he, hcause⟩
    exact (htypes _ (List.mem_cons_of_mem _ List.mem_cons_self) _ huntil).resolve_left (by simp)
  · exact absurd hfull.1 (by decide)

end Model

end RowFlags
