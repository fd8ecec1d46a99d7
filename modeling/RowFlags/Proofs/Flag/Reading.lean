import RowFlags.Proofs.Expression.Booleans
import RowFlags.Proofs.Session.Assignments

/-!
# Reading a flag that was assigned

A flag that was assigned reads as its condition does of what was stored: of the default if it was
assigned true, and of NULL if it was assigned false (`Session.Reached.readsBack`). Nothing makes the
condition true of the default, so the flag may read as it was not assigned: the negation of a column
reads the opposite each time (`Session.reads_opposite_sampleBare`). What says that its column is
there, by whatever conjunctions, reads as it was assigned, unless what was stored for true is not
there.
-/

set_option autoImplicit false

namespace RowFlags

/-! ## Formulas without negation -/

/-- Truths that are all the same hold as they do. -/
theorem Conjunction.holds_of_forall_eq (op : Conjunction) {truths : List Bool} {truth : Bool}
    (h : ∀ t ∈ truths, t = truth) (hne : truths ≠ []) : op.holds truths = truth := by
  obtain ⟨first, rest, rfl⟩ := List.exists_cons_of_ne_nil hne
  induction rest generalizing first with
  | nil => rw [holds_singleton, h first (by simp)]
  | cons second rest ih =>
    rw [holds_cons, ih second (fun t ht => h t (List.mem_cons_of_mem _ ht)) (by simp),
      h first (by simp)]
    cases op <;> cases truth <;> rfl

namespace Formula

mutual

/-- Whether the formula negates nothing. -/
def isPositive : Formula → Bool
  | .column _ => true
  | .notColumn _ => false
  | .conjoin _ first rest => first.isPositive && arePositive rest

/-- Whether none of the formulas negates anything. -/
def arePositive : List Formula → Bool
  | [] => true
  | f :: rest => f.isPositive && arePositive rest

end

section Positive

variable {valueOf : Column → Value} {truth : Bool}

mutual

/-- Without negation, a formula whose columns are all there or all not holds as they are. -/
theorem holds_of_isPositive : (f : Formula) → f.isPositive = true →
    (∀ c ∈ f.columns, present valueOf c = truth) → f.holds valueOf = truth
  | .column c, _, h => h c (by simp [columns])
  | .notColumn _, hpositive, _ => by cases hpositive
  | .conjoin op first rest, hpositive, h => by
    obtain ⟨hfirst, hrest⟩ := Bool.and_eq_true_iff.1 hpositive
    obtain ⟨hcolumns, hothers⟩ := List.forall_mem_append.1 h
    refine op.holds_of_forall_eq (List.forall_mem_cons.2 ⟨?_, ?_⟩) (List.cons_ne_nil _ _)
    · exact holds_of_isPositive first hfirst hcolumns
    · exact holdsAll_of_arePositive rest hrest hothers

theorem holdsAll_of_arePositive : (fs : List Formula) → arePositive fs = true →
    (∀ c ∈ columnsOf fs, present valueOf c = truth) → ∀ t ∈ holdsAll valueOf fs, t = truth
  | [], _, _ => List.forall_mem_nil _
  | f :: rest, hpositive, h => by
    obtain ⟨hfirst, hrest⟩ := Bool.and_eq_true_iff.1 hpositive
    obtain ⟨hcolumns, hothers⟩ := List.forall_mem_append.1 h
    exact List.forall_mem_cons.2 ⟨holds_of_isPositive f hfirst hcolumns,
      holdsAll_of_arePositive rest hrest hothers⟩

end

end Positive

/-- No column is there by NULL. -/
theorem present_null (c : Column) : present (fun _ => .null) c = false := by
  cases hboolean : c.isBoolean <;> simp [present, hboolean]

end Formula

/-! ## Readings -/

namespace Flag

/-- What the flag reads if its columns have the value. -/
def readingOf (f : Flag) (v : Value) : Except FlagError Bool :=
  Value.truthy <$> f.program.evaluate FlagError.eval fun _ => .ok v

/-- The flag was built of the formula. -/
def BuiltOf (f : Flag) (g : Formula) : Prop :=
  ∃ spec : FlagSpec, spec.condition = g.toExpr ∧ build f.id spec = .ok f

/-- The flag was built of a formula that negates nothing. -/
def IsPresence (f : Flag) : Prop :=
  ∃ g : Formula, g.isPositive = true ∧ f.BuiltOf g

/-- What a flag with the default `d` over the column `c` reads after it was assigned `on`, if so
many values were drawn before. -/
structure ReadsBack (f : Flag) (d : Default) (c : Column) (drawn : Nat) (on : Bool)
    (read : Except FlagError Bool) : Prop where
  /-- It reads as it does of what was stored. -/
  reading : read = f.readingOf (d.stored drawn on)
  /-- If it was built of a formula, it reads whether this holds of what was stored. -/
  formula : ∀ g : Formula, f.BuiltOf g → read = .ok (g.holds fun _ => d.stored drawn on)
  /-- If it says that the column is there, it reads as it was assigned, unless it was assigned true
  and the column is not there by what was drawn. -/
  presence : f.IsPresence →
    (read = .ok on ↔ on = false ∨ Formula.present (fun _ => d.draw drawn) c = true)
  /-- A column that is not Boolean is there by any constant. -/
  constant : f.IsPresence → (∃ v, d = .value v) → c.isBoolean = false → read = .ok on

section Readings

variable {f : Flag} {c : Column} {d : Default} {v : Value}

theorem isTruth_of_fits (hfits : v.fits c.type = true) (hboolean : c.isBoolean = true) :
    v.IsTruth := by
  have htype : c.type = .boolean := by simpa [Column.isBoolean] using hboolean
  rw [htype] at hfits
  cases v with
  | null => exact .inl rfl
  | boolean b => exact .inr ⟨b, rfl⟩
  | _ => cases hfits

/-- The formula of a flag is one over the flag's only column. -/
theorem BuiltOf.columns_eq {g : Formula} (h : f.BuiltOf g)
    (hloads : ∀ b, .load b ∈ f.program.code → b = c) : ∀ b ∈ g.columns, b = c := by
  obtain ⟨spec, hspec, hbuild⟩ := h
  obtain ⟨code, hcode, hprogram⟩ := program_of_build hbuild
  rw [hspec] at hcode hprogram
  intro b hb
  refine hloads b ?_
  rw [hprogram]
  exact (Program.load_mem_iff_names hcode).2 (Formula.names_asCondition_iff.2 hb)

/-- The flag of a formula reads whether the formula holds. -/
theorem BuiltOf.readingOf_eq {g : Formula} (h : f.BuiltOf g)
    (hloads : ∀ b, .load b ∈ f.program.code → b = c) (hfits : v.fits c.type = true) :
    f.readingOf v = .ok (g.holds fun _ => v) := by
  have hcolumns := h.columns_eq hloads
  obtain ⟨spec, hspec, hbuild⟩ := h
  obtain ⟨code, hcode, hprogram⟩ := program_of_build hbuild
  rw [hspec] at hcode hprogram
  have hgiven : Formula.Given (fun _ => (.ok v : Except FlagError Value)) (fun _ => v)
      g.columns := by
    intro b hb
    obtain rfl := hcolumns b hb
    exact ⟨rfl, isTruth_of_fits hfits⟩
  obtain ⟨-, u, hu, -, htruthy⟩ := Formula.decides_toExpr FlagError.eval hgiven
  have hvalue : f.program.evaluate FlagError.eval (fun _ => .ok v) = .ok u := by
    rw [hprogram, Program.evaluate_of_compile _ _ hcode]
    exact hu
  rw [readingOf, hvalue, ← htruthy]
  rfl

/-- A flag is not built with the constant NULL. -/
theorem ne_null_of_build {id : FlagId} {spec : FlagSpec} (h : build id spec = .ok f)
    (hd : f.default = some (.value v)) : v ≠ .null := by
  rintro rfl
  have hcheck := checkDefault_of_build h
  rw [hd] at hcheck
  unfold checkDefault at hcheck
  split at hcheck
  · cases hcheck
  · next given hgiven =>
    have hkept := (Option.filter_eq_some_iff.1 hgiven).2
    split at hcheck
    · obtain ⟨_, -, hnull⟩ := Outcome.map_eq_ok_iff.1 hcheck
      cases hnull
      -- NULL was filtered out
      cases hkept
    · cases hcheck
    · cases hcheck

/-- What a flag that was built reads of what it stores. -/
theorem ReadsBack.of_readingOf {id : FlagId} {spec : FlagSpec} (hbuild : build id spec = .ok f)
    (hd : f.default = some d) (hloads : ∀ b, .load b ∈ f.program.code → b = c)
    {drawn : Nat} {on : Bool} (hfits : (d.stored drawn on).fits c.type = true) :
    f.ReadsBack d c drawn on (f.readingOf (d.stored drawn on)) := by
  have hpresence : f.IsPresence → (f.readingOf (d.stored drawn on) = .ok on ↔
      on = false ∨ Formula.present (fun _ => d.draw drawn) c = true) := by
    rintro ⟨g, hpositive, h⟩
    have hholds : g.holds (fun _ => d.stored drawn on) =
        Formula.present (fun _ => d.stored drawn on) c :=
      g.holds_of_isPositive hpositive fun b hb => by rw [h.columns_eq hloads b hb]
    rw [h.readingOf_eq hloads hfits, hholds]
    cases on with
    | false => simp [Default.stored, Formula.present_null]
    | true => simp [Default.stored]
  refine ⟨rfl, fun g h => h.readingOf_eq hloads hfits, hpresence, ?_⟩
  rintro h ⟨v, rfl⟩ hboolean
  refine (hpresence h).2 (.inr ?_)
  simp [Formula.present, Default.draw, hboolean, ne_null_of_build hbuild hd]

end Readings

end Flag

namespace Session

/-- A flag that was assigned reads as it does of what was stored. -/
theorem Reached.readsBack {s : Session} (hs : s.Reached) {f : Flag} (hf : f ∈ s.flags)
    {r next : Record} {on : Bool}
    (hnext : (s.workspace.assignFlag f r (.boolean on)).1 = .ok next) :
    ∃ d c, f.default = some d ∧ f.columns = [c] ∧
      f.ReadsBack d c (s.workspace.memoryOf f.id).drawn on
        ((s.workspace.assignFlag f r (.boolean on)).2.getFlag f next) := by
  have hsound := hs.sound
  obtain ⟨⟨spec, hbuild⟩, -⟩ := hsound.flag f hf
  rw [← congrArg Prod.fst (s.workspace.assign_eq f r (.boolean on))] at hnext
  obtain ⟨d, c, _, name, hd, hc, heq, hname, hfits, hset⟩ := Flag.of_assign_eq_ok hnext
  cases heq
  have hputs := Record.puts_of_set hset
  have hvalue : next.valueOf (s.workspace.namingOf f) c =
      .ok (d.stored (s.workspace.memoryOf f.id).drawn on) :=
    Record.valueOf_eq_ok (hputs.classId ▸ hname) hputs.value
  have hread : (s.workspace.assignFlag f r (.boolean on)).2.getFlag f next =
      f.readingOf (d.stored (s.workspace.memoryOf f.id).drawn on) := by
    have hsame : f.evaluate (s.workspace.namingOf f) next =
        f.program.evaluate FlagError.eval fun _ => .ok _ := hsound.evaluate_eq hf hc hvalue rfl
    rw [Workspace.getFlag, Workspace.namingOf_assignFlag, Flag.get, hsame, Flag.readingOf]
  generalize (s.workspace.memoryOf f.id).drawn = drawn at *
  refine ⟨d, c, hd, hc, hread ▸ .of_readingOf hbuild hd ?_ hfits⟩
  exact fun b hb => List.mem_singleton.1 (hc ▸ hsound.mem_columns hf hb)

/-- Jars with a label. -/
def sampleJars : Table := ⟨⟨1⟩, "jar", [⟨"label", .varchar⟩], by decide, by decide⟩

def sampleLabel : Column := ⟨⟨1⟩, 0, "jar", "label", .varchar⟩

/-- The class of jars. -/
def sampleJarClass : Mapping where
  id := ⟨1⟩
  className := "Jar"
  table := sampleJars
  properties := [⟨"label", sampleLabel⟩]
  parent := none
  discriminator := none

/-- Whether a jar has a label; assigning it puts one on. -/
def sampleLabelled : Flag where
  id := ⟨1⟩
  program :=
    { source := .isNotNull (.column sampleLabel)
      code := [.push .null, .load sampleLabel, .operate (.binary .ne)] }
  resolver := ⟨[sampleLabel], .prefetched⟩
  default := some (.value (.string "jam"))

/-- Whether a jar has no label; assigning it puts one on as well. -/
def sampleBare : Flag where
  id := ⟨2⟩
  program :=
    { source := .isNull (.column sampleLabel)
      code := [.push .null, .load sampleLabel, .operate (.binary .eq)] }
  resolver := ⟨[sampleLabel], .prefetched⟩
  default := some (.value (.string "jam"))

/-- The session in which jars are registered for both flags. -/
def sampleLabelling : Session :=
  run {}
    [.createTable "main" "jar" sampleJars.declared,
      .mapClass "main"
        { className := "Jar", table := sampleJars, entries := [("label", "label")] },
      .makeFlag
        { condition := .column sampleLabel, default := some (.value (.string "jam")) },
      .makeFlag
        { condition := (Expr.column sampleLabel).not
          default := some (.value (.string "jam")) },
      .register sampleLabelled (.catalog "main") sampleJarClass.id,
      .register sampleBare (.catalog "main") sampleJarClass.id]

theorem reached_sampleLabelling : sampleLabelling.Reached := by
  refine Proper.later ⟨trivial, ⟨by decide, fun parent h => by cases h⟩, ?_, ?_, ?_, ?_, trivial⟩
  · intro p hp c hc
    cases hp
    obtain rfl : c = sampleLabel := by simpa using hc
    exact ⟨sampleJars, by decide, by decide⟩
  · intro p hp c hc
    cases hp
    obtain rfl : c = sampleLabel := by simpa using hc
    exact ⟨sampleJars, by decide, by decide⟩
  · exact List.mem_cons_of_mem _ (List.mem_singleton_self sampleLabelled)
  · exact List.mem_cons_self

/-- Assigned `on` on the object, the flag reads as `read` then. -/
def AssignedReads (s : Session) (f : Flag) (r : Record) (on read : Bool) : Prop :=
  ∃ next, (s.workspace.assignFlag f r (.boolean on)).1 = .ok next ∧
    (s.workspace.assignFlag f r (.boolean on)).2.getFlag f next = .ok read

/-- On a new jar, having a label reads as it was assigned. -/
theorem readsBack_sampleLabelled :
    sampleLabelling.Reached ∧ sampleLabelled ∈ sampleLabelling.flags ∧
      ∀ on, sampleLabelling.AssignedReads sampleLabelled sampleJarClass.newRecord on on := by
  have hmem : sampleLabelled ∈ sampleLabelling.flags :=
    List.mem_cons_of_mem _ (List.mem_singleton_self sampleLabelled)
  have hpresence : sampleLabelled.IsPresence :=
    ⟨.column sampleLabel, rfl,
      { condition := .column sampleLabel, default := some (.value (.string "jam")) }, rfl, rfl⟩
  refine ⟨reached_sampleLabelling, hmem, fun on => ?_⟩
  obtain ⟨next, hnext⟩ : ∃ next, (sampleLabelling.workspace.assignFlag sampleLabelled
      sampleJarClass.newRecord (.boolean on)).1 = .ok next := by
    cases on with
    | true => exact ⟨_, rfl⟩
    | false => exact ⟨_, rfl⟩
  obtain ⟨d, c, hd, hc, hreads⟩ := reached_sampleLabelling.readsBack hmem hnext
  cases hd
  cases hc
  exact ⟨next, hnext, hreads.constant hpresence ⟨_, rfl⟩ rfl⟩

/-- On a new jar, having no label reads as it was not assigned: assigned true, it puts a label
on, and assigned false, it leaves the jar without one. -/
theorem reads_opposite_sampleBare :
    sampleLabelling.Reached ∧ sampleBare ∈ sampleLabelling.flags ∧ sampleBare.isWritable = true ∧
      sampleLabelling.Holds "main" sampleJarClass ∧
      sampleLabelling.recorded sampleBare.id sampleJarClass.id =
        some [(sampleLabel, "label")] ∧
      ∀ on, sampleLabelling.AssignedReads sampleBare sampleJarClass.newRecord on (!on) := by
  refine ⟨reached_sampleLabelling, List.mem_cons_self, rfl, ?_, rfl, fun on => ?_⟩
  · show sampleJarClass ∈ _
    decide
  · cases on with
    | true => exact ⟨_, rfl, rfl⟩
    | false => exact ⟨_, rfl, rfl⟩

end Session

end RowFlags
