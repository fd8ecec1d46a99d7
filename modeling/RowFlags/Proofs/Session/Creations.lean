import RowFlags.Proofs.Session.Held

/-!
# Tables made in a session

A run of acts makes tables (`Session.creations`), each under a number of its own: one more than the
tables made before it, in whichever catalog. So columns of different creations are different, also
where tables agree in their names and columns, and a column is known by its creation and its name
(`Session.creations_identified`). A catalog lists the tables made in it in their order, since their
numbers are in that order too (`Catalog.listTables_eq`). What cannot be met leaves the session as it
was.
-/

set_option autoImplicit false

namespace RowFlags

/-! ## Listed tables -/

/-- Tables are listed as their numbers grow, in whichever order the catalog holds them. -/
theorem Catalog.listTables_eq {c : Catalog} {tables : List Table} (hheld : c.tables.Perm tables)
    (hgrowing : tables.Pairwise fun t u => t.id.number < u.id.number) : c.listTables = tables := by
  have hlisted : c.listTables.Perm tables := (List.mergeSort_perm _ _).trans hheld
  have hsort : c.listTables.Pairwise fun t u : Table => decide (t.id.number ≤ u.id.number) := by
    refine List.pairwise_mergeSort ?_ ?_ c.tables
    · intro t u v
      simpa using Nat.le_trans
    · intro t u
      simpa using Nat.le_total t.id.number u.id.number
  have hsorted : c.listTables.Pairwise fun t u => t.id.number ≤ u.id.number :=
    hsort.imp of_decide_eq_true
  have hnumbers : (tables.map fun t => t.id.number).Nodup :=
    List.pairwise_map.2 (hgrowing.imp Nat.ne_of_lt)
  refine hlisted.eq_of_pairwise ?_ hsorted (hgrowing.imp Nat.le_of_lt)
  intro t u ht hu htu hut
  exact List.inj_on_of_nodup_map hnumbers (hlisted.mem_iff.1 ht) hu (Nat.le_antisymm htu hut)

/-! ## Requests for tables -/

/-- A request for a table, in a catalog or in none. -/
structure TableRequest where
  catalogName : Option String
  name : String
  declared : List ColumnDeclaration

/-- The request can be met: the name is free in the catalog, and there are columns, no two of one
name. -/
structure TableRequest.Fits (r : TableRequest) (w : Workspace) : Prop where
  free : ∀ catalogName, r.catalogName = some catalogName →
    ∀ t ∈ (w.catalog catalogName).tables, t.name ≠ r.name
  nonempty : r.declared ≠ []
  nodup : (r.declared.map ColumnDeclaration.name).Nodup

namespace Workspace

/-- The answer to a request. -/
def answer (w : Workspace) (r : TableRequest) : Except CatalogError (Table × Workspace) :=
  match r.catalogName with
  | none => w.makeTable r.name r.declared
  | some catalogName => w.createTable catalogName r.name r.declared

/-- The table is what was asked for, under the number that was next, and the last one of its
catalog. -/
structure Meets (w next : Workspace) (r : TableRequest) (t : Table) : Prop where
  id : t.id = ⟨w.nextTable⟩
  name : t.name = r.name
  declared : t.declared = r.declared
  number : next.nextTable = w.nextTable + 1
  tables : ∀ name, (next.catalog name).tables =
    (w.catalog name).tables ++ if r.catalogName = some name then [t] else []

theorem meets_of_answer {w next : Workspace} {r : TableRequest} {t : Table}
    (h : w.answer r = .ok (t, next)) : r.Fits w ∧ w.Meets next r t := by
  obtain ⟨catalogName, name, declared⟩ := r
  cases catalogName with
  | none =>
    obtain ⟨hcreate, rfl⟩ := makeTable_eq_ok_iff.1 h
    obtain ⟨hid, rfl, rfl⟩ := Table.create_eq_ok_iff.1 hcreate
    refine ⟨⟨fun _ hnone => ?_, t.nonempty, t.nodup⟩, hid, rfl, rfl, rfl, fun other => ?_⟩
    · cases hnone
    · exact (List.append_nil _).symm
  | some catalogName =>
    obtain ⟨hfree, hcreate, rfl⟩ := createTable_eq_ok_iff.1 h
    obtain ⟨hid, rfl, rfl⟩ := Table.create_eq_ok_iff.1 hcreate
    refine ⟨⟨?_, t.nonempty, t.nodup⟩, hid, rfl, rfl, rfl, fun other => ?_⟩
    · rintro _ ⟨⟩
      exact hfree
    · rw [catalog_of_insert rfl]
      by_cases hother : catalogName = other
      · subst hother
        simp
      · simp [hother]

theorem exists_answer {w : Workspace} {r : TableRequest} (h : r.Fits w) :
    ∃ t next, w.answer r = .ok (t, next) := by
  obtain ⟨catalogName, name, declared⟩ := r
  let t : Table := ⟨⟨w.nextTable⟩, name, declared, h.nonempty, h.nodup⟩
  have hcreate : Table.create ⟨w.nextTable⟩ name declared = .ok t :=
    Table.create_eq_ok_iff.2 ⟨rfl, rfl, rfl⟩
  cases catalogName with
  | none => exact ⟨t, _, makeTable_eq_ok_iff.2 ⟨hcreate, rfl⟩⟩
  | some catalogName =>
    exact ⟨t, _, createTable_eq_ok_iff.2 ⟨h.free catalogName rfl, hcreate, rfl⟩⟩

/-! ## What makes no table -/

/-- The catalogs list the same tables, and the next table gets the same number. -/
structure SameTables (w next : Workspace) : Prop where
  number : next.nextTable = w.nextTable
  tables : ∀ name, (next.catalog name).tables = (w.catalog name).tables

theorem SameTables.refl (w : Workspace) : SameTables w w := ⟨rfl, fun _ => rfl⟩

theorem sameTables_register {w next : Workspace} {f : Flag} {d : Directory} {classId : ClassId}
    (h : w.register f d classId = .ok next) : SameTables w next := by
  obtain ⟨registry, -, rfl⟩ := of_register h
  exact ⟨rfl, fun _ => rfl⟩

theorem SameTables.trans {w v next : Workspace} (h : SameTables w v) (k : SameTables v next) :
    SameTables w next :=
  ⟨k.number.trans h.number, fun name => (k.tables name).trans (h.tables name)⟩

theorem sameTables_registerAll (m : Mapping) (d : Directory) (entries : List (String × Flag))
    (w : Workspace) : SameTables w (Model.registerAll m d entries w).2 :=
  Model.registerAll_keeps (fun _ _ _ _ hkept hregister => hkept.trans
    (sameTables_register hregister)) (.refl w)

theorem sameTables_of_mapClass (w : Workspace) {catalogName : String} {draft : Draft}
    {m : Mapping} {c : Catalog}
    (hmap : (w.catalog catalogName).mapClass ⟨w.nextClass⟩ draft = .ok (m, c)) :
    SameTables w { w with
      catalogs := w.catalogs.insert catalogName c, nextClass := w.nextClass + 1 } := by
  refine ⟨rfl, fun name => ?_⟩
  rw [catalog_of_insert rfl]
  split
  · next heq =>
    subst heq
    exact (Catalog.of_mapClass hmap).2.2
  · rfl

end Workspace

/-! ## Runs -/

/-- A table that was made, and the catalog it is in, if any. -/
structure Creation where
  catalogName : Option String
  table : Table

/-- The table that an act asks for. -/
def Act.tableRequest? : Act → Option TableRequest
  | .makeTable name declared => some ⟨none, name, declared⟩
  | .createTable catalogName name declared => some ⟨some catalogName, name, declared⟩
  | _ => none

namespace Session

/-- The session after acts, one after the other. -/
def run (s : Session) (acts : List Act) : Session := acts.foldl step s

/-- The table that an act makes, unless it makes none or is refused. -/
def creation? (s : Session) (act : Act) : Option Creation :=
  act.tableRequest?.bind fun r => (s.workspace.answer r).toOption.map fun made =>
    ⟨r.catalogName, made.1⟩

/-- The tables that acts make, in order. -/
def creations : Session → List Act → List Creation
  | _, [] => []
  | s, act :: rest => (s.creation? act).toList ++ creations (s.step act) rest

/-- The tables that were made in a catalog. -/
def tablesIn (name : String) (made : List Creation) : List Table :=
  (made.filter (·.catalogName = some name)).map Creation.table

section Requests

variable (s : Session) {act : Act} {r : TableRequest}

theorem creation?_eq (h : act.tableRequest? = some r) :
    s.creation? act = (s.workspace.answer r).toOption.map fun made => ⟨r.catalogName, made.1⟩ := by
  unfold creation?
  rw [h]
  rfl

theorem step_of_answer (h : act.tableRequest? = some r) {t : Table} {w : Workspace}
    (hanswer : s.workspace.answer r = .ok (t, w)) :
    s.step act = { s with workspace := w, tables := t :: s.tables } := by
  cases act with
  | makeTable name declared =>
    cases h
    have hmade : s.workspace.makeTable name declared = .ok (t, w) := hanswer
    rw [step, hmade]
  | createTable catalogName name declared =>
    cases h
    have hmade : s.workspace.createTable catalogName name declared = .ok (t, w) := hanswer
    rw [step, hmade]
  | _ => cases h

theorem step_of_refused (h : act.tableRequest? = some r) {e : CatalogError}
    (hanswer : s.workspace.answer r = .error e) : s.step act = s := by
  cases act with
  | makeTable name declared =>
    cases h
    have hrefused : s.workspace.makeTable name declared = .error e := hanswer
    rw [step, hrefused]
  | createTable catalogName name declared =>
    cases h
    have hrefused : s.workspace.createTable catalogName name declared = .error e := hanswer
    rw [step, hrefused]
  | _ => cases h

/-- An act that asks for a table gets it or leaves the session as it was. -/
theorem request_cases (h : act.tableRequest? = some r) :
    (r.Fits s.workspace ∧ ∃ t, s.creation? act = some ⟨r.catalogName, t⟩ ∧
        s.workspace.Meets (s.step act).workspace r t) ∨
      (¬r.Fits s.workspace ∧ s.creation? act = none ∧ s.step act = s) := by
  rw [s.creation?_eq h]
  cases hanswer : s.workspace.answer r with
  | ok made =>
    obtain ⟨hfits, hmeets⟩ := Workspace.meets_of_answer hanswer
    rw [s.step_of_answer h hanswer]
    exact .inl ⟨hfits, made.1, rfl, hmeets⟩
  | error e =>
    refine .inr ⟨fun hfits => ?_, rfl, s.step_of_refused h hanswer⟩
    obtain ⟨t, next, hok⟩ := Workspace.exists_answer hfits
    rw [hok] at hanswer
    cases hanswer

end Requests

/-- Other acts leave the tables alone. -/
theorem sameTables_step (s : Session) {act : Act} (h : act.tableRequest? = none) :
    s.workspace.SameTables (s.step act).workspace := by
  have hchanges := s.changes_step act
  generalize s.step act = t at hchanges
  cases hchanges with
  | makeTable _ | createTable _ => cases h
  | refused | refusedClass | makeFlag _ | assignFlag => exact ⟨rfl, fun _ => rfl⟩
  | mapClass hmap => exact s.workspace.sameTables_of_mapClass hmap
  | register hregister => exact Workspace.sameTables_register hregister
  | buildModel => exact Workspace.sameTables_registerAll _ _ _ _

/-- The session has made these tables, each under the number of its place among them. -/
structure HasMade (s : Session) (made : List Creation) : Prop where
  next : s.workspace.nextTable = made.length + 1
  numbered : ∀ (i : Nat) (x : Creation), made[i]? = some x → x.table.id = ⟨i + 1⟩
  tables : ∀ name, (s.workspace.catalog name).tables = tablesIn name made

theorem hasMade_empty : HasMade {} [] :=
  ⟨rfl, fun _ _ h => by simp at h, fun _ => rfl⟩

theorem HasMade.step {s : Session} {made : List Creation} (h : s.HasMade made) (act : Act) :
    (s.step act).HasMade (made ++ (s.creation? act).toList) := by
  cases hrequest : act.tableRequest? with
  | none =>
    have hnone : s.creation? act = none := by
      unfold creation?
      rw [hrequest]
      rfl
    have hsame := s.sameTables_step hrequest
    rw [hnone, Option.toList_none, List.append_nil]
    exact ⟨hsame.number.trans h.next, h.numbered, fun name => (hsame.tables name).trans (h.tables name)⟩
  | some r =>
    rcases s.request_cases hrequest with ⟨-, t, hmade, hmeets⟩ | ⟨-, hnone, hstays⟩
    · rw [hmade, Option.toList_some]
      constructor
      · rw [hmeets.number, h.next, List.length_append, List.length_singleton]
      · intro i x hx
        rcases Nat.lt_or_ge i made.length with hi | hi
        · rw [List.getElem?_append_left hi] at hx
          exact h.numbered i x hx
        · rw [List.getElem?_append_right hi, List.getElem?_singleton] at hx
          split at hx
          · next hlast =>
            cases hx
            have hplace : i = made.length := by omega
            rw [hmeets.id, h.next, hplace]
          · cases hx
      · intro name
        rw [hmeets.tables, h.tables, tablesIn, tablesIn, List.filter_append, List.map_append]
        congr 1
        by_cases hname : r.catalogName = some name <;> simp [hname]
    · rw [hnone, hstays, Option.toList_none, List.append_nil]
      exact h

theorem HasMade.run {s : Session} {made : List Creation} (h : s.HasMade made) (acts : List Act) :
    (s.run acts).HasMade (made ++ s.creations acts) := by
  induction acts generalizing s made with
  | nil =>
    rw [creations, List.append_nil]
    exact h
  | cons act rest ih =>
    have hrest := ih (h.step act)
    rwa [List.append_assoc] at hrest

theorem hasMade_run (acts : List Act) : (run {} acts).HasMade (creations {} acts) :=
  hasMade_empty.run acts

/-! ## Columns of different creations -/

namespace HasMade

variable {s : Session} {made : List Creation} {i j : Nat} {x y : Creation}

/-- Tables of one number come from one creation. -/
theorem place_eq (h : s.HasMade made) (hx : made[i]? = some x) (hy : made[j]? = some y)
    (hid : x.table.id = y.table.id) : i = j ∧ x = y := by
  rw [h.numbered i x hx, h.numbered j y hy, TableId.mk.injEq] at hid
  obtain rfl : i = j := by omega
  exact ⟨rfl, Option.some.inj (hx.symm.trans hy)⟩

theorem identity_eq_iff (h : s.HasMade made) (hx : made[i]? = some x) (hy : made[j]? = some y)
    {c d : Column} (hc : c ∈ x.table.columns) (hd : d ∈ y.table.columns) :
    c.identity = d.identity ↔ i = j ∧ c.name = d.name := by
  constructor
  · intro hsame
    have htable : c.table = d.table := (Prod.ext_iff.1 hsame).1
    rw [Table.table_of_mem_columns hc, Table.table_of_mem_columns hd] at htable
    obtain ⟨hplace, rfl⟩ := h.place_eq hx hy htable
    exact ⟨hplace, congrArg Column.name (Table.eq_of_identity_eq hc hd hsame)⟩
  · rintro ⟨rfl, hname⟩
    obtain rfl := Option.some.inj (hx.symm.trans hy)
    rw [Table.eq_of_name_eq hc hd hname]

theorem eq_of_identity_eq (h : s.HasMade made) (hx : made[i]? = some x) (hy : made[j]? = some y)
    {c d : Column} (hc : c ∈ x.table.columns) (hd : d ∈ y.table.columns)
    (hsame : c.identity = d.identity) : c = d := by
  obtain ⟨rfl, hname⟩ := (h.identity_eq_iff hx hy hc hd).1 hsame
  obtain rfl := Option.some.inj (hx.symm.trans hy)
  exact Table.eq_of_name_eq hc hd hname

theorem contains_iff (h : s.HasMade made) (hx : made[i]? = some x) (hy : made[j]? = some y)
    {d : Column} (hd : d ∈ y.table.columns) :
    x.table.contains d = true ↔ d ∈ x.table.columns :=
  Table.contains_iff hd fun hid => congrArg Creation.table (h.place_eq hy hx hid).2

/-- A catalog lists its tables with growing numbers. -/
theorem pairwise_tables (h : s.HasMade made) (name : String) :
    ((s.workspace.catalog name).tables).Pairwise fun t u => t.id.number < u.id.number := by
  have hall : made.Pairwise fun x y => x.table.id.number < y.table.id.number := by
    rw [List.pairwise_iff_getElem]
    intro i j hi hj hlt
    rw [h.numbered i _ (List.getElem?_eq_getElem hi), h.numbered j _ (List.getElem?_eq_getElem hj)]
    exact Nat.succ_lt_succ hlt
  rw [h.tables, tablesIn, List.pairwise_map]
  exact hall.filter _

theorem listTables_eq (h : s.HasMade made) {name : String} {c : Catalog}
    (hheld : c.tables.Perm (s.workspace.catalog name).tables) :
    c.listTables = tablesIn name made := by
  rw [← h.tables]
  exact Catalog.listTables_eq hheld (h.pairwise_tables name)

end HasMade

/-- Whatever is done in a session, columns of the tables made are the same exactly if they come from
one creation and have one name; they differ in nothing else then. A table finds exactly the columns
declared for it, and has exactly these. A catalog holds the tables that were made in it, under
growing numbers, and lists them in the order they were made in, whichever order it holds them in. A
request for a table is met under the next number, or, if it cannot be met, changes nothing. -/
theorem creations_identified (acts : List Act) :
    (∀ (i j : Nat) (x y : Creation), (creations {} acts)[i]? = some x →
        (creations {} acts)[j]? = some y → ∀ c ∈ x.table.columns, ∀ d ∈ y.table.columns,
          (c.identity = d.identity ↔ i = j ∧ c.name = d.name) ∧
            (c.identity = d.identity ↔ c = d) ∧
            (x.table.contains d = true ↔ d ∈ x.table.columns)) ∧
      (∀ x ∈ creations {} acts, ∀ name c, x.table.column name = .ok c ↔
        ∃ i d, x.table.declared[i]? = some d ∧ d.name = name ∧
          c = ⟨x.table.id, i, x.table.name, d.name, d.type⟩) ∧
      (∀ name, ((run {} acts).workspace.catalog name).tables =
          tablesIn name (creations {} acts) ∧
        ((run {} acts).workspace.catalog name).tables.Pairwise
          (fun t u => t.id.number < u.id.number) ∧
        ∀ c : Catalog, c.tables.Perm ((run {} acts).workspace.catalog name).tables →
          c.listTables = tablesIn name (creations {} acts)) ∧
      ∀ act r, act.tableRequest? = some r →
        (r.Fits (run {} acts).workspace ∧
            ∃ t, (run {} acts).creation? act = some ⟨r.catalogName, t⟩ ∧ t.name = r.name ∧
              t.declared = r.declared ∧ t.id = ⟨(creations {} acts).length + 1⟩) ∨
          (¬r.Fits (run {} acts).workspace ∧ (run {} acts).creation? act = none ∧
            (run {} acts).step act = run {} acts) := by
  have hmade := hasMade_run acts
  refine ⟨?_, ?_, ?_, ?_⟩
  · intro i j x y hx hy c hc d hd
    refine ⟨hmade.identity_eq_iff hx hy hc hd, ?_, hmade.contains_iff hx hy hd⟩
    exact ⟨hmade.eq_of_identity_eq hx hy hc hd, congrArg Column.identity⟩
  · exact fun x _ name c => Table.column_eq_ok_iff
  · exact fun name => ⟨hmade.tables name, hmade.pairwise_tables name,
      fun _ hheld => hmade.listTables_eq hheld⟩
  · intro act r hrequest
    rcases (run {} acts).request_cases hrequest with ⟨hfits, t, hgot, hmeets⟩ | hrefused
    · exact .inl ⟨hfits, t, hgot, hmeets.name, hmeets.declared, by rw [hmeets.id, hmade.next]⟩
    · exact .inr hrefused

/-- Three tables that agree in everything but their number, and two that are refused. -/
def sampleTwins : List Act :=
  [.createTable "a" "doc" [⟨"id", .int32⟩, ⟨"note", .varchar⟩],
    .createTable "a" "doc" [⟨"id", .int32⟩],
    .makeTable "doc" [⟨"id", .int32⟩, ⟨"note", .varchar⟩],
    .createTable "b" "doc" [⟨"id", .int32⟩, ⟨"id", .varchar⟩],
    .createTable "b" "doc" [⟨"id", .int32⟩, ⟨"note", .varchar⟩]]

theorem creations_identified_sampleTwins :
    (creations {} sampleTwins).map (fun x => (x.catalogName, x.table.id.number)) =
        [(some "a", 1), (none, 2), (some "b", 3)] ∧
      (∀ x y, (creations {} sampleTwins)[0]? = some x → (creations {} sampleTwins)[2]? = some y →
        ∀ c ∈ x.table.columns, ∀ d ∈ y.table.columns, c.identity ≠ d.identity) ∧
      ((run {} sampleTwins).workspace.catalog "b").listTables.map (fun t => t.id.number) = [3] ∧
      (run {} sampleTwins).step (.createTable "b" "doc" [⟨"id", .int32⟩]) = run {} sampleTwins := by
  obtain ⟨hcolumns, -, hlisted, hrequests⟩ := creations_identified sampleTwins
  refine ⟨rfl, ?_, ?_, ?_⟩
  · intro x y hx hy c hc d hd hsame
    have hplace := ((hcolumns 0 2 x y hx hy c hc d hd).1.1 hsame).1
    omega
  · rw [(hlisted "b").2.2 _ (List.Perm.refl _)]
    rfl
  · rcases hrequests (.createTable "b" "doc" [⟨"id", .int32⟩]) _ rfl with
      ⟨hfits, -⟩ | ⟨-, -, hstays⟩
    · exact absurd rfl (hfits.free "b" rfl ⟨⟨3⟩, "doc",
        [⟨"id", .int32⟩, ⟨"note", .varchar⟩], by decide, by decide⟩ (by decide))
    · exact hstays

end Session

end RowFlags
