import RowFlags.Proofs.Store.Typed

/-!
# Making records of entries

Records are made in one pass over the entries, in which plain ones are written as they come and
flags are put aside for the end (`Model.createFrom_eq`). What plain entries come to depends on
nothing but the last value for each name (`Model.writeAll_eq_ok_iff`), so entries may change places
as long as flags keep their order among themselves, and so do entries of one name
(`Model.creates`).
-/

set_option autoImplicit false

namespace RowFlags

/-- The last value that entries give for a name. -/
def lastValue? (entries : List (String × Value)) (name : String) : Option Value :=
  ((entries.filter fun e => e.1 = name).getLast?).map Prod.snd

/-- The object after all the entries are set. -/
def Record.setAll (r : Record) (entries : List (String × Value)) : Record :=
  { r with attributes := entries.foldl (fun m e => m.insert e.1 e.2) r.attributes }

/-- An attribute of the object has the last value for it, or keeps what it has. -/
theorem Record.attribute?_setAll (r : Record) (entries : List (String × Value)) (name : String) :
    (r.setAll entries).attribute? name = (lastValue? entries name).or (r.attribute? name) := by
  induction entries generalizing r with
  | nil => rfl
  | cons e rest ih =>
    have hstep : r.setAll (e :: rest) =
        setAll { r with attributes := r.attributes.insert e.1 e.2 } rest := rfl
    rw [hstep, ih, attribute?_insert, lastValue?, lastValue?, List.filter_cons]
    by_cases h : e.1 = name
    · rw [if_pos h, if_pos (by simpa using h), List.getLast?_cons]
      cases (rest.filter fun e => e.1 = name).getLast? <;> rfl
    · rw [if_neg h, if_neg (by simpa using h)]

namespace Model

/-- The entries of no flag, in their order. -/
def plain (m : Model) (entries : List (String × Value)) : List (String × Value) :=
  entries.filter fun e => !m.flags.contains e.1

/-- The entries of flags, in theirs. -/
def flagged (m : Model) (entries : List (String × Value)) : List (String × Value) :=
  entries.filter fun e => m.flags.contains e.1

/-- Goes through entries once: writes the plain ones, puts those of flags aside, and writes these at
the end. -/
def createFrom (m : Model) (aside : List (String × Value)) :
    List (String × Value) → Workspace → Record → Except FlagError Record × Workspace
  | [], w, r => m.writeAll aside w r
  | (name, v) :: rest, w, r =>
    if m.flags.contains name then m.createFrom (aside ++ [(name, v)]) rest w r
    else
      match m.write w r name v with
      | (.error e, w) => (.error e, w)
      | (.ok r, w) => m.createFrom aside rest w r

/-- The record has the attribute, and the column of the attribute can hold the value. -/
def Takes (m : Model) (r : Record) (e : String × Value) : Prop :=
  ∃ p, m.mapping.property? e.1 = some p ∧ e.2.fits p.column.type = true ∧
    r.attributes.contains e.1 = true

/-- The same entries in another order. Flags have kept theirs, and so have the entries of each
name. -/
structure Reorders (m : Model) (entries other : List (String × Value)) : Prop where
  perm : other.Perm entries
  flags : m.flagged other = m.flagged entries
  names : ∀ name, (other.filter fun e => e.1 = name) = entries.filter fun e => e.1 = name

section Writing

variable {m : Model} {w after : Workspace} {r next : Record} {entries other : List (String × Value)}

theorem writeAll_append (front back : List (String × Value)) (w : Workspace) (r : Record) :
    m.writeAll (front ++ back) w r =
      match m.writeAll front w r with
      | (.error e, w) => (.error e, w)
      | (.ok r, w) => m.writeAll back w r := by
  induction front generalizing w r with
  | nil => rfl
  | cons e front ih =>
    rw [List.cons_append, writeAll, writeAll]
    rcases m.write w r e.1 e.2 with ⟨_ | next, after⟩
    · rfl
    · exact ih after next

/-- Going through the entries once is writing the plain ones first and the flags after them. -/
theorem createFrom_eq (aside entries : List (String × Value)) (w : Workspace) (r : Record) :
    m.createFrom aside entries w r =
      m.writeAll (m.plain entries ++ (aside ++ m.flagged entries)) w r := by
  induction entries generalizing aside w r with
  | nil => simp [createFrom, plain, flagged]
  | cons e rest ih =>
    obtain ⟨name, v⟩ := e
    rw [createFrom, plain, flagged, List.filter_cons, List.filter_cons]
    by_cases h : m.flags.contains name = true
    · rw [if_pos h, ih, if_neg (by simp [h]), if_pos h, List.append_assoc]
      rfl
    · rw [if_neg h, if_pos (by simpa using h), if_neg h, List.cons_append, writeAll]
      rcases m.write w r name v with ⟨_ | next, after⟩
      · rfl
      · exact ih aside after next

/-- A plain entry is written if the record takes it, and then nothing else changes. -/
theorem write_eq_ok_iff {e : String × Value} (hplain : m.flags.contains e.1 = false) :
    m.write w r e.1 e.2 = (.ok next, after) ↔
      m.Takes r e ∧ next = { r with attributes := r.attributes.insert e.1 e.2 } ∧ after = w := by
  have hget : m.flags.get? e.1 = none := by simpa [NameMap.contains] using hplain
  rw [write, hget, Prod.mk.injEq, writePlain, Takes]
  cases m.mapping.property? e.1 with
  | none => simp
  | some p =>
    simp only [Outcome.bind_eq_ok_iff, checkFit_eq_ok_iff, Record.set_eq_ok_iff]
    constructor
    · rintro ⟨⟨v, ⟨hfits, rfl⟩, hkey, rfl⟩, rfl⟩
      exact ⟨⟨p, rfl, hfits, hkey⟩, rfl, rfl⟩
    · rintro ⟨⟨q, hq, hfits, hkey⟩, rfl, rfl⟩
      cases hq
      exact ⟨⟨e.2, ⟨hfits, rfl⟩, hkey, rfl⟩, rfl⟩

/-- What a record takes is left as it is by setting an attribute that it has. -/
theorem takes_insert_iff {key : String} (hkey : r.attributes.contains key = true) (v : Value)
    {e : String × Value} :
    m.Takes { r with attributes := r.attributes.insert key v } e ↔ m.Takes r e := by
  have hkeys : (r.attributes.insert key v).contains e.1 = true ↔
      r.attributes.contains e.1 = true := by
    rw [NameMap.contains_insert, or_iff_right_iff_imp]
    rintro rfl
    exact hkey
  simp only [Takes, hkeys]

/-- Plain entries are written if the record takes each of them, in whatever order. -/
theorem writeAll_eq_ok_iff (hplain : ∀ e ∈ entries, m.flags.contains e.1 = false) :
    m.writeAll entries w r = (.ok next, after) ↔
      (∀ e ∈ entries, m.Takes r e) ∧ next = r.setAll entries ∧ after = w := by
  induction entries generalizing r with
  | nil =>
    rw [writeAll, Prod.mk.injEq, Except.ok.injEq, and_iff_right (List.forall_mem_nil _)]
    exact and_congr eq_comm eq_comm
  | cons e rest ih =>
    obtain ⟨hfirst, hrest⟩ := List.forall_mem_cons.1 hplain
    rw [writeAll]
    constructor
    · intro h
      split at h
      · cases h
      · next r' w' hwrite =>
        obtain ⟨htakes, rfl, rfl⟩ := (write_eq_ok_iff hfirst).1 hwrite
        obtain ⟨hall, rfl, rfl⟩ := (ih hrest).1 h
        obtain ⟨-, -, -, hkey⟩ := id htakes
        simp only [takes_insert_iff hkey] at hall
        exact ⟨List.forall_mem_cons.2 ⟨htakes, hall⟩, rfl, rfl⟩
    · rintro ⟨hall, rfl, rfl⟩
      obtain ⟨htakes, hall⟩ := List.forall_mem_cons.1 hall
      obtain ⟨-, -, -, hkey⟩ := id htakes
      rw [(write_eq_ok_iff hfirst).2 ⟨htakes, rfl, rfl⟩]
      refine (ih hrest).2 ⟨?_, rfl, rfl⟩
      simpa only [takes_insert_iff hkey] using hall

theorem plain_append (front back : List (String × Value)) :
    m.plain (front ++ back) = m.plain front ++ m.plain back :=
  List.filter_append front back

theorem flagged_append (front back : List (String × Value)) :
    m.flagged (front ++ back) = m.flagged front ++ m.flagged back :=
  List.filter_append front back

@[simp] theorem plain_plain : m.plain (m.plain entries) = m.plain entries := by
  simp [plain, List.filter_filter]

@[simp] theorem flagged_plain : m.flagged (m.plain entries) = [] := by
  simp [flagged, plain, List.filter_filter]

@[simp] theorem plain_flagged : m.plain (m.flagged entries) = [] := by
  simp [flagged, plain, List.filter_filter]

@[simp] theorem flagged_flagged : m.flagged (m.flagged entries) = m.flagged entries := by
  simp [flagged, List.filter_filter]

theorem create_eq (m : Model) (w : Workspace) (entries : List (String × Value)) :
    create w m entries = m.writeAll (m.plain entries ++ m.flagged entries) w m.newRecord := rfl

theorem flags_contains_of_mem_plain {e : String × Value} (he : e ∈ m.plain entries) :
    m.flags.contains e.1 = false := by
  simpa using (List.mem_filter.1 he).2

/-- Reordered entries have the same last values. -/
theorem Reorders.setAll_eq (h : m.Reorders entries other) (r : Record) :
    r.setAll (m.plain other) = r.setAll (m.plain entries) := by
  have hlast (name : String) :
      lastValue? (m.plain other) name = lastValue? (m.plain entries) name := by
    unfold lastValue? plain
    rw [List.filter_comm, h.names name, List.filter_comm]
  have hattributes : (r.setAll (m.plain other)).attributes =
      (r.setAll (m.plain entries)).attributes := by
    refine NameMap.ext fun name => ?_
    have hother := r.attribute?_setAll (m.plain other) name
    rw [hlast, ← r.attribute?_setAll (m.plain entries) name] at hother
    exact hother
  exact congrArg (Record.mk r.classId) hattributes

/-- The plain entries of a record that is made leave their last values, and flags are assigned on
these. -/
theorem create_eq_ok_iff : create w m entries = (.ok next, after) ↔
    (∀ e ∈ m.plain entries, m.Takes m.newRecord e) ∧
      m.writeAll (m.flagged entries) w (m.newRecord.setAll (m.plain entries)) =
        (.ok next, after) := by
  have hplain := fun e (he : e ∈ m.plain entries) => flags_contains_of_mem_plain he
  rw [create_eq, writeAll_append]
  constructor
  · intro h
    split at h
    · cases h
    · next r' w' hwrite =>
      obtain ⟨hall, rfl, rfl⟩ := (writeAll_eq_ok_iff hplain).1 hwrite
      exact ⟨hall, h⟩
  · rintro ⟨hall, h⟩
    rw [(writeAll_eq_ok_iff hplain).2 ⟨hall, rfl, rfl⟩]
    exact h

end Writing

/-- What making a record of entries comes to, and what their order has to do with it. -/
structure Creates (m : Model) (w : Workspace) (entries : List (String × Value)) : Prop where
  /-- It is the same to go through the entries once and put the flags aside, -/
  once : create w m entries = m.createFrom [] entries w m.newRecord
  /-- and to make a record of the plain entries and then the flags. -/
  sorted : create w m entries = create w m (m.plain entries ++ m.flagged entries)
  /-- Without flags, each attribute has the last value for it or the one in a new record, and
  nothing else changes. -/
  plain : m.flagged entries = [] → ∀ r after, create w m entries = (.ok r, after) →
    after = w ∧ r.classId = m.newRecord.classId ∧
      ∀ name, r.attribute? name = (lastValue? entries name).or (m.newRecord.attribute? name)
  /-- Flags are written one after the other to the record of the plain entries. -/
  flags : create w m entries =
    match create w m (m.plain entries) with
    | (.error e, w) => (.error e, w)
    | (.ok r, w) => m.writeAll (m.flagged entries) w r
  /-- What is made stays the same if entries change places, but not those of flags among themselves,
  nor those of one name. -/
  reordered : ∀ other, m.Reorders entries other →
    ∀ r after, create w m entries = (.ok r, after) → create w m other = (.ok r, after)

/-- Making a record does not depend on the order of the entries, beyond that flags come last. -/
theorem creates (m : Model) (w : Workspace) (entries : List (String × Value)) :
    m.Creates w entries where
  once := by rw [createFrom_eq, List.nil_append, create_eq]
  sorted := by
    simp [create_eq, plain_append, flagged_append]
  plain hflagged r after h := by
    obtain ⟨-, hwrite⟩ := create_eq_ok_iff.1 h
    have hall : m.plain entries = entries := by
      refine List.filter_eq_self.2 fun e he => ?_
      simpa using List.filter_eq_nil_iff.1 hflagged e he
    rw [hflagged, writeAll] at hwrite
    cases hwrite
    refine ⟨rfl, rfl, fun name => ?_⟩
    rw [hall]
    exact m.newRecord.attribute?_setAll entries name
  flags := by
    rw [create_eq, create_eq, plain_plain, flagged_plain, List.append_nil, writeAll_append]
  reordered other h r after hcreate := by
    obtain ⟨hall, hwrite⟩ := create_eq_ok_iff.1 hcreate
    refine create_eq_ok_iff.2 ⟨fun e he => ?_, ?_⟩
    · exact hall e ((h.perm.filter _).mem_iff.1 he)
    · rw [h.flags, h.setAll_eq]
      exact hwrite

/-- A lease that is kept, without a time at first. -/
def sampleTerms : List (String × Value) :=
  [("kept", .boolean true), ("kind", .string "sublease"), ("until", .null),
    ("kind", .string "lease")]

/-- The same terms, with the flag after the others. -/
def sampleSortedTerms : List (String × Value) :=
  [("until", .null), ("kind", .string "sublease"), ("kind", .string "lease"),
    ("kept", .boolean true)]

theorem reorders_sampleTerms : sampleArchive.Reorders sampleTerms sampleSortedTerms where
  perm := by decide
  flags := by decide
  names name := by
    simp only [sampleTerms, sampleSortedTerms, List.filter_cons, List.filter_nil, decide_eq_true_eq]
    by_cases hkind : "kind" = name
    · subst hkind
      decide
    · by_cases huntil : "until" = name
      · subst huntil
        decide
      · simp only [if_neg hkind, if_neg huntil]

/-- The last kind counts, and so does the flag, although no time is given after it. -/
theorem creates_sampleTerms : ∃ r after,
    create sampleOpen.workspace sampleArchive sampleTerms = (.ok r, after) ∧
      r.attribute? "kind" = some (.string "lease") ∧
      r.attribute? "until" = some (.timestamp sampleForever) ∧
      create sampleOpen.workspace sampleArchive sampleSortedTerms = (.ok r, after) := by
  refine ⟨_, _, rfl, rfl, rfl, ?_⟩
  exact (creates sampleArchive sampleOpen.workspace sampleTerms).reordered _ reorders_sampleTerms
    _ _ rfl

end Model

end RowFlags
