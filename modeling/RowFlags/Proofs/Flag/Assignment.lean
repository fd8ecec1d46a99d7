import RowFlags.Flag.Access
import RowFlags.Proofs.Store.Object

/-!
# Assigning a flag

An assignment is refused for the first reason that there is (`Flag.assign_eq_error_iff`), or it sets
the attribute of the flag's only column (`Flag.of_assign_eq_ok`). Made in place, one check after the
other, it leaves an object that it refuses as it was, although a value that was drawn stays drawn
(`Flag.run_assignInPlace`).
-/

set_option autoImplicit false

namespace RowFlags

theorem checkFit_eq_ok_iff {name : String} {c : Column} {v w : Value} :
    checkFit name c v = .ok w ↔ v.fits c.type = true ∧ v = w := by
  unfold checkFit
  split <;> simp_all

theorem checkFit_eq_error_iff {name : String} {c : Column} {v : Value} {e : FlagError} :
    checkFit name c v = .error e ↔ v.fits c.type = false ∧ .incompatible name c.type v = e := by
  unfold checkFit
  split <;> simp_all

namespace Naming

variable {naming : Naming} {columns : List Column} {classId : ClassId} {c : Column}

/-- The attribute of a single column is found if it is the only column and has an attribute. -/
theorem single_eq_ok_iff {name : String} :
    naming.single columns classId = .ok (c, name) ↔
      columns = [c] ∧ naming classId c = .ok name := by
  unfold single
  split
  · next d =>
    rw [Outcome.map_eq_ok_iff, List.singleton_inj]
    constructor
    · rintro ⟨found, hfound, heq⟩
      cases heq
      exact ⟨rfl, hfound⟩
    · rintro ⟨rfl, hname⟩
      exact ⟨name, hname, rfl⟩
  · next hother =>
    constructor
    · rintro ⟨⟩
    · exact fun h => absurd h.1 (hother c)

theorem single_singleton_eq_error_iff {e : FlagError} :
    naming.single [c] classId = .error e ↔ naming classId c = .error e :=
  Outcome.map_eq_error_iff

end Naming

/-- What an assignment puts in the attribute: the default for true and NULL for false. -/
def Default.stored (d : Default) (drawn : Nat) (on : Bool) : Value :=
  if on then d.draw drawn else .null

namespace Flag

/-! ## Writable flags -/

/-- Only a flag of a single column has a default. -/
theorem exists_column_of_checkDefault {columns : List Column} {default : Option Default}
    {d : Default} (h : checkDefault columns default = .ok (some d)) : ∃ c, columns = [c] := by
  unfold checkDefault at h
  split at h
  · cases h
  · split at h
    · exact ⟨_, rfl⟩
    · exact ⟨_, rfl⟩
    · cases h

theorem checkDefault_of_build {id : FlagId} {spec : FlagSpec} {f : Flag}
    (h : build id spec = .ok f) : checkDefault f.columns spec.default = .ok f.default := by
  obtain ⟨program, -, h⟩ := Outcome.bind_eq_ok_iff.1 h
  obtain ⟨default, hdefault, h⟩ := Outcome.bind_eq_ok_iff.1 h
  cases h
  exact hdefault

theorem exists_column_of_build {id : FlagId} {spec : FlagSpec} {f : Flag}
    (h : build id spec = .ok f) {d : Default} (hd : f.default = some d) :
    ∃ c, f.columns = [c] :=
  exists_column_of_checkDefault (hd ▸ checkDefault_of_build h)

/-- A constant default is one that the column can hold. -/
theorem fits_of_build {id : FlagId} {spec : FlagSpec} {f : Flag} (h : build id spec = .ok f)
    {v : Value} (hd : f.default = some (.value v)) {c : Column} (hc : f.columns = [c]) :
    v.fits c.type = true := by
  have hcheck := checkDefault_of_build h
  rw [hd, hc] at hcheck
  unfold checkDefault at hcheck
  split at hcheck
  · cases hcheck
  · split at hcheck
    · next hcolumn _ =>
      obtain ⟨w, hw, hdefault⟩ := Outcome.map_eq_ok_iff.1 hcheck
      cases hcolumn
      cases hdefault
      exact (checkFit_eq_ok_iff.1 hw).1
    · cases hcheck
    · cases hcheck

/-! ## What an assignment comes to -/

section Assign

variable {f : Flag} {naming : Naming} {drawn : Nat} {r next : Record} {d : Default} {c : Column}

theorem assign_of_readOnly (hd : f.default = none) (v : Value) :
    f.assign naming drawn r v = (.error .readOnly, drawn) := by
  unfold assign
  rw [hd]

theorem assign_of_nonBoolean (hd : f.default = some d) {v : Value} (hv : ∀ on, v ≠ .boolean on) :
    f.assign naming drawn r v = (.error (.nonBoolean v), drawn) := by
  unfold assign
  rw [hd]
  split
  · next h => cases h
  · next on h => exact absurd rfl (hv on)
  · rfl

variable (f) in
/-- An assignment is one to a flag that cannot be assigned, one of what is not Boolean, or one that
goes on to the flag's column. -/
theorem assign_cases (v : Value) :
    f.default = none ∨ (∃ d, f.default = some d ∧ ∀ on, v ≠ .boolean on) ∨
      ∃ d on, f.default = some d ∧ v = .boolean on := by
  cases f.default with
  | none => exact .inl rfl
  | some d =>
    by_cases hv : ∃ on, v = .boolean on
    · obtain ⟨on, rfl⟩ := hv
      exact .inr (.inr ⟨d, on, rfl, rfl⟩)
    · exact .inr (.inl ⟨d, rfl, fun on heq => hv ⟨on, heq⟩⟩)

/-- A writable flag is assigned through the attribute of its column. -/
theorem assign_boolean (hd : f.default = some d) (on : Bool) :
    (f.assign naming drawn r (.boolean on)).1 =
      naming.single f.columns r.classId >>= fun found =>
        checkFit found.2 found.1 (d.stored drawn on) >>= r.set found.2 := by
  unfold assign
  rw [hd]
  cases naming.single f.columns r.classId with
  | error e => rfl
  | ok found =>
    cases on with
    | true => rfl
    | false => rfl

/-- Why an assignment is refused. Each reason counts if those before it do not hold. -/
inductive Refuses (f : Flag) (naming : Naming) (drawn : Nat) (r : Record) :
    Value → FlagError → Prop
  /-- The flag has no default. -/
  | readOnly {v : Value} (hd : f.default = none) : Refuses f naming drawn r v .readOnly
  | nonBoolean {d : Default} {v : Value} (hd : f.default = some d) (hv : ∀ on, v ≠ .boolean on) :
    Refuses f naming drawn r v (.nonBoolean v)
  /-- The column has no attribute, or not just one. -/
  | unnamed {d : Default} {c : Column} {on : Bool} {e : FlagError} (hd : f.default = some d)
    (hc : f.columns = [c]) (hname : naming r.classId c = .error e) :
    Refuses f naming drawn r (.boolean on) e
  /-- The column cannot hold what is drawn. -/
  | incompatible {d : Default} {c : Column} {name : String} (hd : f.default = some d)
    (hc : f.columns = [c]) (hname : naming r.classId c = .ok name)
    (hfits : (d.draw drawn).fits c.type = false) :
    Refuses f naming drawn r (.boolean true) (.incompatible name c.type (d.draw drawn))
  /-- The object lacks the attribute. -/
  | unknownAttribute {d : Default} {c : Column} {name : String} {on : Bool}
    (hd : f.default = some d) (hc : f.columns = [c]) (hname : naming r.classId c = .ok name)
    (hfits : (d.stored drawn on).fits c.type = true) (hkey : r.attribute? name = none) :
    Refuses f naming drawn r (.boolean on) (.unknownAttribute r.classId name)

/-- An assignment is refused for the first reason that there is, and for no other. -/
theorem assign_eq_error_iff (hsingle : ∀ d, f.default = some d → ∃ c, f.columns = [c]) {v : Value}
    {e : FlagError} :
    (f.assign naming drawn r v).1 = .error e ↔ f.Refuses naming drawn r v e := by
  constructor
  · intro h
    rcases f.assign_cases v with hd | ⟨d, hd, hv⟩ | ⟨d, on, hd, rfl⟩
    · rw [assign_of_readOnly hd] at h
      cases h
      exact .readOnly hd
    · rw [assign_of_nonBoolean hd hv] at h
      cases h
      exact .nonBoolean hd hv
    · obtain ⟨c, hc⟩ := hsingle d hd
      rw [assign_boolean hd, hc, Outcome.bind_eq_error_iff] at h
      rcases h with hfound | ⟨⟨a, name⟩, hfound, h⟩
      · exact .unnamed hd hc (Naming.single_singleton_eq_error_iff.1 hfound)
      · obtain ⟨heq, hname⟩ := Naming.single_eq_ok_iff.1 hfound
        cases heq
        rcases Outcome.bind_eq_error_iff.1 h with h | ⟨stored, hcheck, h⟩
        · obtain ⟨hfits, rfl⟩ := checkFit_eq_error_iff.1 h
          cases on with
          | true => exact .incompatible hd hc hname hfits
          -- every column can hold NULL
          | false => cases hfits
        · obtain ⟨hfits, rfl⟩ := checkFit_eq_ok_iff.1 hcheck
          obtain ⟨hkey, rfl⟩ := Record.set_eq_error_iff.1 h
          exact .unknownAttribute hd hc hname hfits hkey
  · intro h
    cases h with
    | readOnly hd => rw [assign_of_readOnly hd]
    | nonBoolean hd hv => rw [assign_of_nonBoolean hd hv]
    | unnamed hd hc hname =>
      rw [assign_boolean hd, hc, Naming.single_singleton_eq_error_iff.2 hname]
      rfl
    | incompatible hd hc hname hfits =>
      rw [assign_boolean hd, Naming.single_eq_ok_iff.2 ⟨hc, hname⟩, Outcome.ok_bind]
      exact Outcome.bind_eq_error_iff.2 (.inl (checkFit_eq_error_iff.2 ⟨hfits, rfl⟩))
    | unknownAttribute hd hc hname hfits hkey =>
      rw [assign_boolean hd, Naming.single_eq_ok_iff.2 ⟨hc, hname⟩, Outcome.ok_bind]
      refine Outcome.bind_eq_error_iff.2 (.inr ⟨_, checkFit_eq_ok_iff.2 ⟨hfits, rfl⟩, ?_⟩)
      exact Record.set_eq_error_iff.2 ⟨hkey, rfl⟩

/-- A flag that could be assigned was assigned true or false, and the attribute of its only column
was set to what this stores, which the column can hold. -/
theorem of_assign_eq_ok {v : Value} (h : (f.assign naming drawn r v).1 = .ok next) :
    ∃ d c on name, f.default = some d ∧ f.columns = [c] ∧ v = .boolean on ∧
      naming r.classId c = .ok name ∧ (d.stored drawn on).fits c.type = true ∧
        r.set name (d.stored drawn on) = .ok next := by
  rcases f.assign_cases v with hd | ⟨d, hd, hv⟩ | ⟨d, on, hd, rfl⟩
  · rw [assign_of_readOnly hd] at h
    cases h
  · rw [assign_of_nonBoolean hd hv] at h
    cases h
  · rw [assign_boolean hd] at h
    obtain ⟨⟨c, name⟩, hfound, h⟩ := Outcome.bind_eq_ok_iff.1 h
    obtain ⟨hc, hname⟩ := Naming.single_eq_ok_iff.1 hfound
    obtain ⟨stored, hcheck, hset⟩ := Outcome.bind_eq_ok_iff.1 h
    obtain ⟨hfits, rfl⟩ := checkFit_eq_ok_iff.1 hcheck
    exact ⟨d, c, on, name, hd, hc, rfl, hname, hfits, hset⟩

/-! ## What an assignment draws -/

/-- The assignment is one of true to a writable flag that finds its attribute. -/
def Draws (f : Flag) (naming : Naming) (r : Record) (v : Value) : Prop :=
  f.isWritable = true ∧ v = .boolean true ∧
    ∃ c name, f.columns = [c] ∧ naming r.classId c = .ok name

instance (f : Flag) (naming : Naming) (r : Record) (v : Value) : Decidable (f.Draws naming r v) :=
  decidable_of_iff (f.isWritable = true ∧ v = .boolean true ∧
      (naming.single f.columns r.classId).toOption.isSome = true) <| by
    unfold Draws
    simp only [Option.isSome_iff_exists, Outcome.toOption_eq_some_iff, Prod.exists,
      Naming.single_eq_ok_iff]

theorem draws_boolean_iff (hd : f.default = some d) {on : Bool} :
    f.Draws naming r (.boolean on) ↔
      on = true ∧ (naming.single f.columns r.classId).toOption.isSome = true := by
  simp [Draws, isWritable, hd, Option.isSome_iff_exists, Outcome.toOption_eq_some_iff,
    Naming.single_eq_ok_iff]

/-- An assignment draws one value or none. -/
theorem assign_snd (v : Value) :
    (f.assign naming drawn r v).2 = drawn + if f.Draws naming r v then 1 else 0 := by
  rcases f.assign_cases v with hd | ⟨d, hd, hv⟩ | ⟨d, on, hd, rfl⟩
  · have hnot : ¬ f.Draws naming r v := fun h => by simp [Draws, isWritable, hd] at h
    rw [assign_of_readOnly hd, if_neg hnot]
    rfl
  · have hnot : ¬ f.Draws naming r v := fun h => hv true h.2.1
    rw [assign_of_nonBoolean hd hv, if_neg hnot]
    rfl
  · simp only [draws_boolean_iff hd]
    unfold assign
    rw [hd]
    cases naming.single f.columns r.classId with
    | error e => simp [Except.toOption]
    | ok found => cases on <;> simp [Except.toOption]

/-! ## Assigning in place -/

/-- What is done to an object in place, and to how many values were drawn. A failure undoes nothing
of what was done before it. -/
abbrev InPlace := ExceptT FlagError (StateM (Record × Nat))

/-- Draws the next value of a default. -/
def drawInPlace (d : Default) : InPlace Value := do
  let (r, drawn) ← getThe (Record × Nat)
  set (r, drawn + 1)
  return d.draw drawn

/-- Sets an attribute of the object. -/
def setInPlace (name : String) (v : Value) : InPlace Unit := do
  let (r, drawn) ← getThe (Record × Nat)
  let next ← liftExcept (r.set name v)
  set (next, drawn)

/-- Assigns the flag, one check after the other. -/
def assignInPlace (f : Flag) (naming : Naming) (v : Value) : InPlace Unit := do
  let some d := f.default | throw .readOnly
  let .boolean on := v | throw (.nonBoolean v)
  let (r, _) ← getThe (Record × Nat)
  let (c, name) ← liftExcept (naming.single f.columns r.classId)
  if on then
    let stored ← drawInPlace d
    let fitting ← liftExcept (checkFit name c stored)
    setInPlace name fitting
  else setInPlace name .null

theorem run_getThe : (getThe (Record × Nat) : InPlace (Record × Nat)).run.run (r, drawn) =
    (.ok (r, drawn), r, drawn) := rfl

theorem run_drawInPlace : (drawInPlace d).run.run (r, drawn) =
    (.ok (d.draw drawn), r, drawn + 1) := rfl

/-- What there is after an outcome: the new object, or the old one if it was refused. -/
def keeping (r : Record) : Except FlagError Record × Nat → Except FlagError Unit × Record × Nat
  | (.ok next, drawn) => (.ok (), next, drawn)
  | (.error e, drawn) => (.error e, r, drawn)

theorem run_setInPlace (name : String) (v : Value) :
    (setInPlace name v).run.run (r, drawn) = keeping r (r.set name v, drawn) := by
  rw [setInPlace, Outcome.run_run_bind_of_ok run_getThe, Outcome.run_run_liftExcept_bind]
  cases r.set name v <;> rfl

variable (f naming drawn r) in
/-- What is refused in place leaves the object as it was. -/
theorem run_assignInPlace (v : Value) :
    (f.assignInPlace naming v).run.run (r, drawn) = keeping r (f.assign naming drawn r v) := by
  unfold assignInPlace assign
  cases f.default with
  | none => rfl
  | some d =>
    cases v with
    | boolean on =>
      dsimp only
      rw [Outcome.run_run_bind_of_ok run_getThe, Outcome.run_run_liftExcept_bind]
      cases naming.single f.columns r.classId with
      | error e => rfl
      | ok found =>
        cases on with
        | true =>
          dsimp only
          rw [if_pos rfl, if_pos rfl, Outcome.run_run_bind_of_ok run_drawInPlace,
            Outcome.run_run_liftExcept_bind]
          cases checkFit found.2 found.1 (d.draw drawn) with
          | error e => rfl
          | ok fitting => exact run_setInPlace found.2 fitting
        | false => exact run_setInPlace found.2 .null
    | _ => rfl

end Assign

end Flag

end RowFlags
