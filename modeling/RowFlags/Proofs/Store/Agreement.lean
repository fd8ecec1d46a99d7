import RowFlags.Proofs.Session.Built
import RowFlags.Proofs.Store.History
import RowFlags.Proofs.Store.Object

/-!
# Queries and flags agree

A flag of a model can be asked of an object, and its condition can be asked of the stored rows. The
two go different ways: the query looks columns up by their positions in a decoded row, the flag by
the attribute that its resolver names, on an object made of that row. On the rows that the class
sees they give the same answers and the same failures (`filter_agrees_with_getFlag`), for every flag
whose columns the class maps under one attribute each.
-/

set_option autoImplicit false

namespace RowFlags

namespace Program

variable {ε : Type}

/-- Code does the same under two lookups that know the columns asked for and agree on them. -/
theorem run_eq_mapError (raise : EvalError → ε) {byRow : Column → Except EvalError Value}
    {byName : Column → Except ε Value} {code : List Instruction}
    (h : ∀ c, .load c ∈ code → ∃ v, byRow c = .ok v ∧ byName c = .ok v) (stack : List Value) :
    run (m := Id) raise byName code stack =
      (run (m := Id) id byRow code stack : Except EvalError (List Value)).mapError raise := by
  induction code generalizing stack with
  | nil => rfl
  | cons i rest ih =>
    have hrest := ih fun c hc => h c (List.mem_cons_of_mem i hc)
    cases i with
    | load c =>
      obtain ⟨v, hrow, hname⟩ := h c List.mem_cons_self
      have hload : run (m := Id) raise byName (.load c :: rest) stack =
          run (m := Id) raise byName rest (v :: stack) := by
        rw [run, hname]
        rfl
      have hload' : run (m := Id) id byRow (.load c :: rest) stack =
          run (m := Id) id byRow rest (v :: stack) := by
        rw [run, hrow]
        rfl
      rw [hload, hload', hrest]
    | push v => exact hrest (v :: stack)
    | operate op =>
      simp only [run]
      cases op.step stack with
      | ok next => exact hrest next
      | error e => rfl

/-- A program has the same value or failure under two lookups that know the columns it asks for and
agree on them. -/
theorem evaluate_eq_mapError (raise : EvalError → ε) {p : Program}
    {byRow : Column → Except EvalError Value} {byName : Column → Except ε Value}
    (h : ∀ c, .load c ∈ p.code → ∃ v, byRow c = .ok v ∧ byName c = .ok v) :
    p.evaluate raise byName = (p.evaluate id byRow).mapError raise := by
  have hrun := run_eq_mapError raise h []
  unfold evaluate evaluateCode
  rw [hrun]
  generalize (run (m := Id) id byRow p.code [] : Except EvalError (List Value)) = left
  match left with
  | .error e => rfl
  | .ok [] => rfl
  | .ok [v] => rfl
  | .ok (_ :: _ :: _) => rfl

end Program

namespace Store

/-- The refusal of columns of other tables does not concern a program on the store's own columns. -/
theorem compile_eq_ok {s : Store} {condition : Expr} {p : Program}
    (hp : Program.ofExpr condition = .ok p) (hown : ∀ c ∈ p.columns, s.table.contains c = true) :
    s.compile condition = .ok p := by
  have hfind : p.columns.find? (fun c => !s.table.contains c) = none := by
    rw [List.find?_eq_none]
    intro c hc
    simp [hown c hc]
  unfold compile
  rw [hp, Outcome.mapError_ok, Outcome.ok_bind]
  simp only [hfind]
  rfl

/-- Whether a class sees a row: with a parent and a discriminator, only if the row holds the class's
identity in the discriminator's column. -/
def shows (s : Store) (m : Mapping) (row : RowId) : Bool :=
  match m.parent, m.discriminator with
  | some _, some d =>
    match m.property? d.key, s.values row with
    | some p, .ok values => values[p.column.position]? = some d.identity
    | _, _ => false
  | _, _ => true

/-- The rows that a class sees, in rising order. -/
def visibleRows (s : Store) (m : Mapping) : List RowId := s.liveRows.filter (s.shows m)

/-- A well-formed class sees the rows that the query lets through. -/
theorem exists_visible (s : Store) {m : Mapping} (h : m.WellFormed) :
    ∃ sees, visible m = .ok sees ∧
      ∀ row values, s.values row = .ok values → sees values = s.shows m row := by
  unfold visible shows
  cases m.parent with
  | none => exact ⟨_, rfl, fun _ _ _ => rfl⟩
  | some parent =>
    cases hd : m.discriminator with
    | none => exact ⟨_, rfl, fun _ _ _ => rfl⟩
    | some d =>
      obtain ⟨p, hp⟩ := Option.isSome_iff_exists.1 (h.identified d hd)
      simp only [hp]
      refine ⟨_, rfl, ?_⟩
      intro row values hvalues
      simp only [hvalues]

section Choosing

variable {program : Program} {sees : List Value → Bool} {m : Mapping} {row : RowId}
variable {values : List Value} {rest : List (RowId × List Value)}

theorem choose_cons_of_error (hsees : sees values = true) {cause : EvalError}
    (hvalue : evaluateRow program values = .error cause) :
    choose program sees m ((row, values) :: rest) = .error (.eval cause) := by
  rw [choose, if_pos hsees, hvalue]
  rfl

/-- A row that is seen and has a value is chosen before the others, if the value is truthy. -/
theorem choose_cons_of_ok (hsees : sees values = true) {v : Value}
    (hvalue : evaluateRow program values = .ok v) {r : Record} (hdecode : decode m values = .ok r) :
    choose program sees m ((row, values) :: rest) =
      (fun chosen => if v.truthy then (row, r) :: chosen else chosen) <$>
        choose program sees m rest := by
  rw [choose, if_pos hsees, hvalue, hdecode]
  simp only [Outcome.mapError_ok, Outcome.ok_bind]
  cases v.truthy <;> cases choose program sees m rest <;> rfl

end Choosing

/-- The choice among rows goes by any answers that are those of the condition on the rows that the
class sees: it takes the rows with a true answer, or ends with the first failure. -/
theorem choose_cases {ε : Type} [DecidableEq ε] {raise : EvalError → ε} {program : Program}
    {sees : List Value → Bool} {m : Mapping} {valuesAt : RowId → List Value}
    {object : RowId → Record} {answer : RowId → Except ε Bool} {shown : RowId → Bool}
    {rows : List RowId} (hshown : ∀ row ∈ rows, sees (valuesAt row) = shown row)
    (hobject : ∀ row ∈ rows, decode m (valuesAt row) = .ok (object row))
    (hanswer : ∀ row ∈ rows, answer row =
      (Value.truthy <$> evaluateRow program (valuesAt row)).mapError raise) :
    (∀ row ∈ rows.filter shown, ∃ on, answer row = .ok on) ∧
        choose program sees m (rows.map fun row => (row, valuesAt row)) =
          .ok (((rows.filter shown).filter fun row => answer row = .ok true).map
            fun row => (row, object row)) ∨
      ∃ cause front row back, rows.filter shown = front ++ row :: back ∧
        (∀ earlier ∈ front, ∃ on, answer earlier = .ok on) ∧
        answer row = .error (raise cause) ∧
        choose program sees m (rows.map fun row => (row, valuesAt row)) = .error (.eval cause) := by
  induction rows with
  | nil =>
    refine .inl ⟨?_, rfl⟩
    intro row hrow
    cases hrow
  | cons first rest ih =>
    have hfirst := List.mem_cons_self (a := first) (l := rest)
    have hlater := ih (fun row hrow => hshown row (List.mem_cons_of_mem _ hrow))
      (fun row hrow => hobject row (List.mem_cons_of_mem _ hrow))
      (fun row hrow => hanswer row (List.mem_cons_of_mem _ hrow))
    rw [List.map_cons]
    cases hseen : shown first with
    | false =>
      rw [List.filter_cons_of_neg (by simp [hseen]), choose, hshown first hfirst, hseen]
      simpa using hlater
    | true =>
      have hsees : sees (valuesAt first) = true := (hshown first hfirst).trans hseen
      rw [List.filter_cons_of_pos hseen]
      have hhere := hanswer first hfirst
      cases hvalue : evaluateRow program (valuesAt first) with
      | error cause =>
        rw [hvalue, Except.map_error, Outcome.mapError_error] at hhere
        rw [choose_cons_of_error hsees hvalue]
        refine .inr ⟨cause, [], first, rest.filter shown, rfl, ?_, hhere, rfl⟩
        intro earlier hearlier
        cases hearlier
      | ok v =>
        rw [hvalue, Except.map_ok, Outcome.mapError_ok] at hhere
        rw [choose_cons_of_ok hsees hvalue (hobject first hfirst)]
        rcases hlater with
          ⟨hall, hchoose⟩ | ⟨cause, front, row, back, hsplit, hfront, hrow, hchoose⟩
        · refine .inl ⟨?_, ?_⟩
          · intro row hrow
            rcases List.mem_cons.1 hrow with rfl | hrow
            · exact ⟨v.truthy, hhere⟩
            · exact hall row hrow
          · rw [hchoose, Except.map_ok, List.filter_cons, hhere]
            cases v.truthy <;> rfl
        · refine .inr ⟨cause, first :: front, row, back, ?_, ?_, hrow, ?_⟩
          · rw [hsplit, List.cons_append]
          · intro earlier hearlier
            rcases List.mem_cons.1 hearlier with rfl | hearlier
            · exact ⟨v.truthy, hhere⟩
            · exact hfront earlier hearlier
          · rw [hchoose, Except.map_error]

/-- A program has the same value or failure on a row and under a lookup that gives the row's values
for the columns it asks for. -/
theorem evaluate_eq_evaluateRow {ε : Type} (raise : EvalError → ε) {program : Program}
    {values : List Value} {byName : Column → Except ε Value}
    (h : ∀ c, .load c ∈ program.code → ∃ v, values[c.position]? = some v ∧ byName c = .ok v) :
    program.evaluate raise byName = (evaluateRow program values).mapError raise := by
  apply Program.evaluate_eq_mapError
  intro c hload
  obtain ⟨v, hv, hname⟩ := h c hload
  exact ⟨v, by rw [hv], hname⟩

/-- A query that is right in itself goes through the live rows and chooses among them. -/
theorem filter_eq_choose {s : Store} {m : Mapping} (htable : m.table = s.table) {condition : Expr}
    {program : Program} (hcompile : s.compile condition = .ok program) {sees : List Value → Bool}
    (hsees : visible m = .ok sees) {valuesAt : RowId → List Value}
    (hvalues : ∀ row ∈ s.liveRows, s.values row = .ok (valuesAt row)) :
    s.filter m condition =
      choose program sees m (s.liveRows.map fun row => (row, valuesAt row)) := by
  unfold filter
  simp only [checkClass_of_table htable, hcompile, hsees, scan_eq hvalues, Outcome.ok_bind]

section Agreement

variable {before now : Session} {catalogName : String} {model : Model} {name : String} {f : Flag}

/-- The columns that a flag of a model asks for are columns of the model's table. -/
theorem mem_columns_of_namesOf (hbuilt : before.Built catalogName model now)
    (hcolumns : ∀ c ∈ f.columns, ∃ key, model.mapping.namesOf c = [key]) {c : Column}
    (hc : c ∈ f.columns) : c ∈ model.mapping.table.columns := by
  obtain ⟨key, hkey⟩ := hcolumns c hc
  obtain ⟨p, hp, rfl, -⟩ := Mapping.exists_of_namesOf_eq_singleton hkey
  exact hbuilt.wellFormed.binds.own p hp

/-- On a row, the flag of the object answers as the condition does. -/
theorem getFlag_eq_mapError (hbuilt : before.Built catalogName model now)
    (hflag : model.flag name = .ok f) (hnames : before.NamesThrough catalogName model f)
    (hcolumns : ∀ c ∈ f.columns, ∃ key, model.mapping.namesOf c = [key]) {values : List Value}
    (hlength : values.length = model.mapping.table.declared.length) {object : Record}
    (hobject : decode model.mapping values = .ok object) :
    model.getFlag now.workspace object name =
      (Value.truthy <$> evaluateRow f.program values).mapError FlagError.eval := by
  have hwell := hbuilt.wellFormed
  have hvalue : ∀ c, .load c ∈ f.program.code →
      ∃ v, values[c.position]? = some v ∧ object.valueOf (now.workspace.namingOf f) c = .ok v := by
    intro c hload
    have hc := hbuilt.reached.sound.mem_columns (hbuilt.mem_flags hflag).2 hload
    obtain ⟨key, hkey⟩ := hcolumns c hc
    have hplace := Table.columns_position (mem_columns_of_namesOf hbuilt hcolumns hc)
    have hbound : c.position < values.length := by
      rw [hlength, ← Table.length_columns]
      exact (List.getElem?_eq_some_iff.1 hplace).1
    have hv : values[c.position]? = some values[c.position] := List.getElem?_eq_getElem hbound
    exact ⟨values[c.position], hv,
      valueOf_decode hwell hobject hkey (hbuilt.namingOf_eq hflag hnames hc hkey) hv⟩
  unfold Model.getFlag Workspace.getFlag Flag.get Flag.evaluate
  rw [hflag, Outcome.ok_bind, evaluate_eq_evaluateRow FlagError.eval hvalue]
  cases evaluateRow f.program values <;> rfl

/-- On the model's table, a flag's condition compiles to the flag's program. -/
theorem compile_predicate (hbuilt : before.Built catalogName model now)
    (hflag : model.flag name = .ok f)
    (hcolumns : ∀ c ∈ f.columns, ∃ key, model.mapping.namesOf c = [key]) {s : Store}
    (htable : s.table = model.mapping.table) : s.compile f.predicate = .ok f.program := by
  obtain ⟨⟨spec, hbuild⟩, -⟩ := hbuilt.reached.sound.flag f (hbuilt.mem_flags hflag).2
  obtain ⟨-, p, hp, hprogram, hsame, -⟩ := Flag.of_build hbuild
  have hsource : Program.ofExpr f.program.source = .ok f.program := by
    obtain ⟨code, hcode, h⟩ := Outcome.bind_eq_ok_iff.1 hp
    cases h
    rw [hprogram]
    exact hp
  refine compile_eq_ok hsource fun c hc => ?_
  have hmem : c ∈ s.table.columns := by
    rw [htable]
    refine mem_columns_of_namesOf hbuilt hcolumns ?_
    rw [hsame, ← hprogram]
    exact hc
  exact Table.contains_of_mem hmem

/-- The objects that a class makes of its live rows decide a query by a flag's condition: it finds
those with a true flag, or fails as the first of them whose flag fails. -/
theorem exists_filter_cases (hbuilt : before.Built catalogName model now)
    (hflag : model.flag name = .ok f) (hnames : before.NamesThrough catalogName model f)
    (hcolumns : ∀ c ∈ f.columns, ∃ key, model.mapping.namesOf c = [key]) {s : Store}
    (hsound : s.Sound) (htable : s.table = model.mapping.table) :
    ∃ object : RowId → Record,
      (∀ row ∈ s.liveRows, s.load model.mapping row = .ok (object row)) ∧
      ((∀ row ∈ s.visibleRows model.mapping,
            ∃ on, model.getFlag now.workspace (object row) name = .ok on) ∧
          s.filter model.mapping f.predicate =
            .ok (((s.visibleRows model.mapping).filter fun row =>
                model.getFlag now.workspace (object row) name = .ok true).map
              fun row => (row, object row)) ∨
        ∃ cause front row back, s.visibleRows model.mapping = front ++ row :: back ∧
          (∀ earlier ∈ front,
            ∃ on, model.getFlag now.workspace (object earlier) name = .ok on) ∧
          model.getFlag now.workspace (object row) name = .error (.eval cause) ∧
          s.filter model.mapping f.predicate = .error (.eval cause)) := by
  have hwell := hbuilt.wellFormed
  obtain ⟨sees, hsees, hshown⟩ := s.exists_visible hwell
  obtain ⟨valuesAt, hvalues⟩ := exists_valuesAt fun row (hrow : row ∈ s.liveRows) =>
    hsound.exists_values hrow
  rw [htable] at hvalues
  obtain ⟨object, hobject⟩ := Classical.skolem.1 fun row =>
    (decode_eq_ok hwell (valuesAt row)).imp fun _ => And.left
  refine ⟨object, ?_, ?_⟩
  · intro row hrow
    rw [load_eq_bind htable.symm, (hvalues row hrow).1]
    exact hobject row
  · rw [filter_eq_choose htable.symm (compile_predicate hbuilt hflag hcolumns htable) hsees
      fun row hrow => (hvalues row hrow).1]
    apply choose_cases
    · exact fun row hrow => hshown row _ (hvalues row hrow).1
    · exact fun row _ => hobject row
    · exact fun row hrow => getFlag_eq_mapError hbuilt hflag hnames hcolumns (hvalues row hrow).2
        (hobject row)

/-- The condition of a flag chooses the rows on which the flag of the object is true, among those
that the class sees, and in their order; it fails only when the flag of such an object fails, and
then as the first of them does. -/
theorem filter_agrees_with_getFlag (hbuilt : before.Built catalogName model now)
    (hflag : model.flag name = .ok f) (hnames : before.NamesThrough catalogName model f)
    (hcolumns : ∀ c ∈ f.columns, ∃ key, model.mapping.namesOf c = [key])
    {commands : List Command} (hshort : ∀ command ∈ commands, command.Short) {s : Store}
    (hs : s = (empty model.mapping.table).run commands) :
    ∃ object : RowId → Record,
      (∀ row ∈ s.liveRows, s.load model.mapping row = .ok (object row)) ∧
      ((∃ found, s.filter model.mapping f.predicate = .ok found) ↔
        ∀ row ∈ s.visibleRows model.mapping,
          ∃ on, model.getFlag now.workspace (object row) name = .ok on) ∧
      (∀ found, s.filter model.mapping f.predicate = .ok found →
        found = ((s.visibleRows model.mapping).filter fun row =>
            model.getFlag now.workspace (object row) name = .ok true).map
          fun row => (row, object row)) ∧
      ∀ e, s.filter model.mapping f.predicate = .error e →
        ∃ cause front row back, e = .eval cause ∧
          s.visibleRows model.mapping = front ++ row :: back ∧
          (∀ earlier ∈ front,
            ∃ on, model.getFlag now.workspace (object earlier) name = .ok on) ∧
          model.getFlag now.workspace (object row) name = .error (.eval cause) := by
  obtain ⟨hsound, htable⟩ : s.Sound ∧ s.table = model.mapping.table := by
    rw [hs]
    exact (sound_empty model.mapping.table).run hshort
  obtain ⟨object, hload, hcases⟩ :=
    exists_filter_cases hbuilt hflag hnames hcolumns hsound htable
  refine ⟨object, hload, ?_⟩
  rcases hcases with ⟨hall, hfilter⟩ | ⟨cause, front, row, back, hsplit, hfront, hrow, hfilter⟩
  · rw [hfilter]
    refine ⟨⟨fun _ => hall, fun _ => ⟨_, rfl⟩⟩, ?_, ?_⟩
    · intro found hfound
      exact (Except.ok.inj hfound).symm
    · intro e he
      cases he
  · rw [hfilter]
    refine ⟨⟨?_, ?_⟩, ?_, ?_⟩
    · rintro ⟨found, hfound⟩
      cases hfound
    · intro hall
      obtain ⟨on, hon⟩ := hall row (by simp [hsplit])
      rw [hrow] at hon
      cases hon
    · intro found hfound
      cases hfound
    · intro e he
      cases he
      exact ⟨cause, front, row, back, rfl, hsplit, hfront, hrow⟩

end Agreement

/-- Items by their kind and weight. -/
def sampleTable : Table :=
  ⟨⟨1⟩, "item", [⟨"kind", .varchar⟩, ⟨"weight", .int32⟩], by decide, by decide⟩

/-- The class of items, which shows the weight under a name of its own. -/
def sampleItem : Mapping where
  id := ⟨1⟩
  className := "Item"
  table := sampleTable
  properties :=
    [⟨"kind", ⟨⟨1⟩, 0, "item", "kind", .varchar⟩⟩, ⟨"grams", ⟨⟨1⟩, 1, "item", "weight", .int32⟩⟩]
  parent := none
  discriminator := some ⟨"kind", .string "item"⟩

/-- The class of boxes, which are items. -/
def sampleBox : Mapping :=
  { sampleItem with
    id := ⟨2⟩
    className := "Box"
    parent := some ⟨1⟩
    discriminator := some ⟨"kind", .string "box"⟩ }

/-- Whether a box is so light that more than five make a hundred grams. -/
def sampleFlag : Flag where
  id := ⟨1⟩
  program :=
    { source := .binary (.compare .gt)
        (.binary (.arithmetic .div) (.literal (.int32 100))
          (.column ⟨⟨1⟩, 1, "item", "weight", .int32⟩))
        (.literal (.int32 5))
      code := [.push (.int32 5), .load ⟨⟨1⟩, 1, "item", "weight", .int32⟩, .push (.int32 100),
        .operate (.binary (.arithmetic .div)), .operate (.binary (.compare .gt))] }
  resolver := ⟨[⟨⟨1⟩, 1, "item", "weight", .int32⟩], .prefetched⟩
  default := none

/-- Boxes with their flag. -/
def sampleModel : Model := ⟨sampleBox, NameMap.empty.insert "light" sampleFlag⟩

/-- The session in which all this was made, before the model is built. -/
def sampleSession : Session :=
  ((({ : Session }.step (.createTable "main" "item" sampleTable.declared)).step
    (.mapClass "main"
      { className := "Item", table := sampleTable
        entries := [("kind", "kind"), ("grams", "weight")]
        identity := some ⟨some "kind", .string "item"⟩ })).step
    (.mapClass "main"
      { className := "Box", table := sampleTable, parent := some sampleItem
        identity := some ⟨none, .string "box"⟩ })).step
    (.makeFlag { condition := sampleFlag.predicate })

/-- An item of some kind and weight. -/
def sampleObject (kind : String) (grams : Int32) : Record :=
  ⟨⟨1⟩, (NameMap.empty.insert "kind" (.string kind)).insert "grams" (.int32 grams)⟩

/-- Two boxes, and between them an item without weight, of which the flag would fail. -/
def sampleObjects : List Record :=
  [sampleObject "box" 10, sampleObject "item" 0, sampleObject "box" 50]

/-- The table with the sample's objects as its rows. -/
def sampleStore : Store := (empty sampleTable).run (sampleObjects.map (.insert sampleItem))

theorem reached_sampleSession : sampleSession.Reached := by
  refine .step (.step (.step (.step .refl _ ?_) _ ?_) _ ?_) _ ?_
  · trivial
  · refine ⟨by decide, ?_⟩
    intro parent h
    cases h
  · refine ⟨by decide, ?_⟩
    intro parent h
    cases h
    exact ⟨"main", by show sampleItem ∈ _; decide⟩
  · intro p hp c hc
    cases hp
    obtain rfl : c = ⟨⟨1⟩, 1, "item", "weight", .int32⟩ := by simpa using hc
    exact ⟨sampleTable, by decide, by decide⟩

theorem built_sampleModel : sampleSession.Built "main" sampleModel
    (sampleSession.step (.buildModel sampleBox sampleModel.flags "main")) where
  reached := reached_sampleSession
  allows := by
    refine ⟨by show sampleBox ∈ _; decide, ?_⟩
    intro entry hentry
    obtain rfl : entry = ("light", sampleFlag) := List.mem_singleton.1 hentry
    exact List.mem_singleton_self sampleFlag
  built := rfl
  later := .refl

theorem short_sampleObjects :
    ∀ command ∈ sampleObjects.map (Command.insert sampleItem), command.Short :=
  short_of_entries (by decide)

/-- The light box is found, the heavy one is not, and the item is not looked at. -/
theorem filter_agrees_with_getFlag_sampleStore :
    sampleStore.visibleRows sampleBox = [⟨0⟩, ⟨2⟩] ∧
      ∃ (object : RowId → Record) (found : List (RowId × Record)),
        (∀ row ∈ sampleStore.liveRows, sampleStore.load sampleBox row = .ok (object row)) ∧
        sampleStore.filter sampleBox sampleFlag.predicate = .ok found ∧
        found.map Prod.fst = [⟨0⟩] ∧
        ∀ row ∈ sampleStore.visibleRows sampleBox, ∃ on,
          sampleModel.getFlag
            (sampleSession.step (.buildModel sampleBox sampleModel.flags "main")).workspace
            (object row) "light" = .ok on := by
  have hcolumns : ∀ c ∈ sampleFlag.columns, ∃ key, sampleModel.mapping.namesOf c = [key] := by
    intro c hc
    obtain rfl : c = ⟨⟨1⟩, 1, "item", "weight", .int32⟩ := List.mem_singleton.1 hc
    exact ⟨"grams", by decide⟩
  have hflag : sampleModel.flag "light" = .ok sampleFlag := rfl
  obtain ⟨object, hload, hiff, -, -⟩ := filter_agrees_with_getFlag built_sampleModel hflag
    (.inl ⟨rfl, by decide⟩) hcolumns short_sampleObjects rfl
  obtain ⟨found, hfound, hrows⟩ : ∃ found,
      sampleStore.filter sampleBox sampleFlag.predicate = .ok found ∧
        found.map Prod.fst = [⟨0⟩] := ⟨_, rfl, rfl⟩
  exact ⟨by decide +kernel, object, found, hload, hfound, hrows, hiff.1 ⟨found, hfound⟩⟩

end Store

end RowFlags
