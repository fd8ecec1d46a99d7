import RowFlags.Proofs.Expression.Lookups
import RowFlags.Proofs.Flag.Assignment
import RowFlags.Proofs.Session.Built
import RowFlags.Proofs.Session.Creations

/-!
# Assignments in a session

How many values were drawn for a flag is how often it was assigned true and got as far as that,
whatever else was done (`Session.drawn_run`). So each assignment that draws takes the value of its
place, and what an assignment does is known from the acts before it (`Session.assigns_run`).
-/

set_option autoImplicit false

namespace RowFlags

/-- The second object has the value under the name, where the first has one too, and is otherwise
the same. -/
structure Record.Puts (name : String) (v : Value) (r next : Record) : Prop where
  classId : next.classId = r.classId
  had : r.attribute? name ≠ none
  value : next.attribute? name = some v
  kept : ∀ other, other ≠ name → next.attribute? other = r.attribute? other

theorem Record.puts_of_set {r next : Record} {name : String} {v : Value}
    (h : r.set name v = .ok next) : Puts name v r next := by
  obtain ⟨hkey, rfl⟩ := set_eq_ok_iff.1 h
  refine ⟨rfl, ?_, ?_, ?_⟩
  · rw [attribute?, ← Option.isSome_iff_ne_none]
    exact hkey
  · rw [attribute?_insert, if_pos rfl]
  · intro other hother
    rw [attribute?_insert, if_neg hother.symm]

namespace Workspace

theorem drawn_register {w next : Workspace} {f : Flag} {d : Directory} {classId : ClassId}
    (h : w.register f d classId = .ok next) (id : FlagId) :
    (next.memoryOf id).drawn = (w.memoryOf id).drawn := by
  obtain ⟨registry, -, rfl⟩ := of_register h
  rw [memoryOf_remember]
  split
  · next heq => rw [heq]
  · rfl

theorem assign_eq (w : Workspace) (f : Flag) (r : Record) (v : Value) :
    f.assign (w.namingOf f) (w.memoryOf f.id).drawn r v =
      ((w.assignFlag f r v).1, ((w.assignFlag f r v).2.memoryOf f.id).drawn) := by
  unfold assignFlag
  rw [memoryOf_remember, if_pos rfl]

theorem assignFlag_snd (w : Workspace) (f : Flag) (r : Record) (v : Value) :
    (w.assignFlag f r v).2 = w.remember f.id
      { w.memoryOf f.id with
        drawn := (w.memoryOf f.id).drawn + if f.Draws (w.namingOf f) r v then 1 else 0 } := by
  rw [← Flag.assign_snd]
  rfl

/-- What comes of assigning the flag, if so many values were drawn for it before. -/
structure Assigns (w : Workspace) (f : Flag) (drawn : Nat) (r : Record) (v : Value) : Prop where
  /-- Every model that has the flag assigns it so. -/
  model : ∀ (m : Model) (name : String), m.flags.get? name = some f →
    m.write w r name v = w.assignFlag f r v ∧ m.setFlag w r name v = w.assignFlag f r v
  /-- It is refused for the first reason that there is, -/
  refused : ∀ e, (w.assignFlag f r v).1 = .error e ↔ f.Refuses (w.namingOf f) drawn r v e
  /-- and an object that it is made on in place is then as it was. -/
  untouched : ∀ e, (w.assignFlag f r v).1 = .error e →
    (f.assignInPlace (w.namingOf f) v).run.run (r, drawn) =
      (.error e, r, ((w.assignFlag f r v).2.memoryOf f.id).drawn)
  inPlace : ∀ next, (w.assignFlag f r v).1 = .ok next →
    (f.assignInPlace (w.namingOf f) v).run.run (r, drawn) =
      (.ok (), next, ((w.assignFlag f r v).2.memoryOf f.id).drawn)
  /-- If it is not refused, one attribute is set, that of the flag's column. -/
  stored : ∀ next, (w.assignFlag f r v).1 = .ok next → ∃ d c on name,
    f.default = some d ∧ f.columns = [c] ∧ v = .boolean on ∧
      w.namingOf f r.classId c = .ok name ∧ r.Puts name (d.stored drawn on) next ∧
        -- the flag is then read as if the column had the value
        ∀ lookup, lookup c = .ok (d.stored drawn on) →
          f.evaluate ((w.assignFlag f r v).2.namingOf f) next =
            f.program.evaluate FlagError.eval lookup
  /-- One value is drawn or none, and nothing else changes. -/
  counted : (w.assignFlag f r v).2 = w.remember f.id
    { w.memoryOf f.id with drawn := drawn + if f.Draws (w.namingOf f) r v then 1 else 0 }

end Workspace

namespace Session

/-! ## Counting what is drawn -/

/-- Whether the act draws a value for the flag of this number. -/
def drawsFor (s : Session) (id : FlagId) : Act → Bool
  | .assignFlag f r v => f.id = id ∧ f.Draws (s.workspace.namingOf f) r v
  | _ => false

/-- How many of the acts draw a value for the flag. -/
def draws (id : FlagId) : Session → List Act → Nat
  | _, [] => 0
  | s, act :: rest => (s.drawsFor id act).toNat + draws id (s.step act) rest

/-- An act that draws counts one more, and any other act counts none. -/
theorem drawn_step (s : Session) (act : Act) (id : FlagId) :
    ((s.step act).workspace.memoryOf id).drawn =
      (s.workspace.memoryOf id).drawn + (s.drawsFor id act).toNat := by
  have hchanges := s.changes_step act
  generalize s.step act = t at hchanges
  cases hchanges with
  | refused h =>
    cases act with
    | assignFlag f r v => exact absurd rfl (h f r v)
    | _ => rfl
  | register hregister => exact Workspace.drawn_register hregister id
  | @buildModel m flags catalogName =>
    refine Model.registerAll_keeps
      (P := fun w => (w.memoryOf id).drawn = (s.workspace.memoryOf id).drawn) ?_ rfl
    intro entry _ v next hkept hregister
    exact (Workspace.drawn_register hregister id).trans hkept
  | @assignFlag f r v =>
    dsimp only
    rw [Workspace.assignFlag_snd, Workspace.memoryOf_remember]
    by_cases hid : f.id = id
    · subst hid
      by_cases hdraws : f.Draws (s.workspace.namingOf f) r v <;> simp [drawsFor, hdraws]
    · rw [if_neg (Ne.symm hid)]
      simp [drawsFor, hid]
  | _ => rfl

theorem drawn_run (s : Session) (acts : List Act) (id : FlagId) :
    ((s.run acts).workspace.memoryOf id).drawn =
      (s.workspace.memoryOf id).drawn + draws id s acts := by
  induction acts generalizing s with
  | nil => rfl
  | cons act rest ih =>
    rw [run, List.foldl_cons]
    refine (ih (s.step act)).trans ?_
    rw [drawn_step, draws, Nat.add_assoc]

/-! ## Acts that use what was made -/

/-- Each of the acts uses only what was made before it. -/
def Proper : Session → List Act → Prop
  | _, [] => True
  | s, act :: rest => s.Allows act ∧ Proper (s.step act) rest

theorem Proper.later {s : Session} {acts : List Act} (h : s.Proper acts) :
    s.Later (s.run acts) := by
  induction acts generalizing s with
  | nil => exact .refl
  | cons act rest ih => exact .trans (.step .refl act h.1) (ih h.2)

theorem Sound.exists_column {s : Session} (h : s.Sound) {f : Flag} (hf : f ∈ s.flags) {d : Default}
    (hd : f.default = some d) : ∃ c, f.columns = [c] := by
  obtain ⟨⟨spec, hbuild⟩, -⟩ := h.flag f hf
  exact Flag.exists_column_of_build hbuild hd

/-- A flag of a single column is read as its condition is under the value of the column. -/
theorem Sound.evaluate_eq {s : Session} (h : s.Sound) {f : Flag} (hf : f ∈ s.flags) {c : Column}
    (hc : f.columns = [c]) {naming : Naming} {r : Record} {v : Value}
    (hv : r.valueOf naming c = .ok v) {lookup : Column → Except FlagError Value}
    (hlookup : lookup c = .ok v) :
    f.evaluate naming r = f.program.evaluate FlagError.eval lookup := by
  have hsame : ∀ a, .load a ∈ f.program.code → r.valueOf naming a = lookup a := by
    intro a ha
    obtain rfl : a = c := List.mem_singleton.1 (hc ▸ h.mem_columns hf ha)
    rw [hv, hlookup]
  unfold Flag.evaluate Program.evaluate Program.evaluateCode
  rw [Program.run_congr FlagError.eval hsame]

/-- After proper acts every assignment of a flag that was made is refused for the first reason that
there is and leaves the object alone, or it sets one attribute. The value that it draws is that of
its place among the assignments that drew one. -/
theorem assigns_run {acts : List Act} (hproper : Proper {} acts) {f : Flag}
    (hf : f ∈ (run {} acts).flags) (r : Record) (v : Value) :
    (run {} acts).workspace.Assigns f (draws f.id {} acts) r v := by
  have hsound : (run {} acts).Sound := Reached.sound hproper.later
  have hdrawn : ((run {} acts).workspace.memoryOf f.id).drawn = draws f.id {} acts :=
    (drawn_run {} acts f.id).trans (Nat.zero_add _)
  generalize run {} acts = s at hf hsound hdrawn ⊢
  have hassign := s.workspace.assign_eq f r v
  rw [hdrawn] at hassign
  have hplace := Flag.run_assignInPlace f (s.workspace.namingOf f) (draws f.id {} acts) r v
  rw [hassign] at hplace
  refine ⟨?_, ?_, ?_, ?_, ?_, ?_⟩
  · intro m name hname
    have hflag : m.flag name = .ok f := Model.flag_eq_ok_iff.2 hname
    rw [Model.write, Model.setFlag, hname, hflag]
    exact ⟨rfl, rfl⟩
  · intro e
    rw [← congrArg Prod.fst hassign]
    exact Flag.assign_eq_error_iff fun d hd => hsound.exists_column hf hd
  · intro e he
    rw [hplace, he]
    rfl
  · intro next hnext
    rw [hplace, hnext]
    rfl
  · intro next hnext
    rw [← congrArg Prod.fst hassign] at hnext
    obtain ⟨d, c, on, name, hd, hc, rfl, hname, -, hset⟩ := Flag.of_assign_eq_ok hnext
    have hputs := Record.puts_of_set hset
    refine ⟨d, c, on, name, hd, hc, rfl, hname, hputs, fun lookup hlookup => ?_⟩
    rw [Workspace.namingOf_assignFlag]
    refine hsound.evaluate_eq hf hc (Record.valueOf_eq_ok ?_ hputs.value) hlookup
    rw [hputs.classId]
    exact hname
  · rw [Workspace.assignFlag_snd, hdrawn]

/-- Tickets that are numbered when they are called. -/
def sampleTickets : Table := ⟨⟨1⟩, "ticket", [⟨"number", .int32⟩], by decide, by decide⟩

def sampleNumber : Column := ⟨⟨1⟩, 0, "ticket", "number", .int32⟩

/-- A dispenser that gives no number at first. -/
def sampleDispenser : Default :=
  .producer fun drawn => if drawn = 0 then .string "empty" else .int32 7

/-- Whether a ticket is called; assigning it numbers the ticket. -/
def sampleCalled : Flag where
  id := ⟨1⟩
  program :=
    { source := .isNotNull (.column sampleNumber)
      code := [.push .null, .load sampleNumber, .operate (.binary .ne)] }
  resolver := ⟨[sampleNumber], .onDemand (.catalog "main")⟩
  default := some sampleDispenser

/-- A ticket without a number. -/
def sampleTicket : Record := ⟨⟨1⟩, NameMap.empty.insert "number" .null⟩

/-- The flag is made and assigned twice, first what is not Boolean and then true, both in vain. -/
def sampleCalls : List Act :=
  [.createTable "main" "ticket" [⟨"number", .int32⟩],
    .mapClass "main"
      { className := "Ticket", table := sampleTickets, entries := [("number", "number")] },
    .makeFlag
      { condition := .column sampleNumber
        default := some sampleDispenser
        strategy := .onDemand (.catalog "main") },
    .assignFlag sampleCalled sampleTicket (.int32 1),
    .assignFlag sampleCalled sampleTicket (.boolean true)]

/-- The next assignment of true draws the second value. -/
theorem assigns_run_sampleCalls :
    Proper {} sampleCalls ∧ sampleCalled ∈ (run {} sampleCalls).flags ∧
      (run {} sampleCalls).workspace.Assigns sampleCalled 1 sampleTicket (.boolean true) ∧
      ((run {} sampleCalls).workspace.assignFlag sampleCalled sampleTicket (.boolean true)).1 =
        .ok ⟨⟨1⟩, NameMap.empty.insert "number" (.int32 7)⟩ := by
  have hproper : Proper {} sampleCalls := by
    refine ⟨trivial, ⟨by decide, fun parent h => by cases h⟩, ?_, ?_, ?_, trivial⟩
    · intro p hp c hc
      cases hp
      obtain rfl : c = sampleNumber := by simpa using hc
      exact ⟨sampleTickets, by decide, by decide⟩
    · exact List.mem_singleton_self sampleCalled
    · exact List.mem_singleton_self sampleCalled
  have hf : sampleCalled ∈ (run {} sampleCalls).flags := List.mem_singleton_self sampleCalled
  have hdraws : draws sampleCalled.id {} sampleCalls = 1 := by decide
  refine ⟨hproper, hf, ?_, rfl⟩
  rw [← hdraws]
  exact assigns_run hproper hf sampleTicket (.boolean true)

end Session

end RowFlags
