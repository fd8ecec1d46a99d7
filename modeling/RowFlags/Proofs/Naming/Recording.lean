import RowFlags.Naming.Resolver
import RowFlags.Proofs.Mapping.WellFormed

/-!
# What registration records

Registering a class with a registry records, for each tracked column that the class maps, the
attribute that the directory names for it, or is refused for the first column that the directory
refuses to name. A class that is registered already is left alone, so what is recorded for a class
stays.
-/

set_option autoImplicit false

namespace RowFlags

/-- What a mapping says of its own attributes. -/
def Mapping.directory (m : Mapping) : Directory where
  columnsOf _ := m.columns
  namesOf _ c := m.namesOf c

/-- A directory speaks for a mapping if it knows its class as the mapping does. -/
structure Directory.SpeaksFor (d : Directory) (m : Mapping) : Prop where
  columns : d.columnsOf m.id = m.columns
  names : ∀ c, d.namesOf m.id c = m.namesOf c

theorem Directory.SpeaksFor.naming_eq {d : Directory} {m : Mapping} (h : d.SpeaksFor m)
    (c : Column) : d.naming m.id c = m.directory.naming m.id c := by
  unfold Directory.naming
  rw [h.names]
  rfl

/-- The only name is one of the names. -/
theorem mem_of_uniqueName {classId : ClassId} {c : Column} {names : List String} {name : String}
    (h : uniqueName classId c names = .ok name) : name ∈ names := by
  unfold uniqueName at h
  split at h
  · cases h
  · next only hone =>
    cases h
    exact mem_of_mem_distinct Text.order (hone ▸ List.mem_singleton_self name)
  · cases h

/-- Among several different names, the refusal lists them all. -/
theorem eq_ambiguous_of_uniqueName {classId : ClassId} {c : Column} {names : List String}
    {e : FlagError} (h : uniqueName classId c names = .error e) (hnames : names ≠ []) :
    e = .ambiguous classId c (distinct Text.order names) := by
  unfold uniqueName at h
  split at h
  · next hnone =>
    obtain ⟨name, hname⟩ := List.exists_mem_of_ne_nil names hnames
    have hlisted := (mem_distinct_iff Text.order).2 hname
    rw [hnone] at hlisted
    cases hlisted
  · cases h
  · cases h
    rfl

namespace Registry

theorem collect_congr {d e : Directory} {classId : ClassId}
    (h : ∀ c, d.naming classId c = e.naming classId c) (columns : List Column) :
    collect d classId columns = collect e classId columns := by
  induction columns with
  | nil => rfl
  | cons c rest ih => rw [collect, collect, h, ih]

/-- Every listed column is recorded under the name that the directory gives it. -/
theorem lookup_of_collect {d : Directory} {classId : ClassId} {columns : List Column}
    {names : List (Column × String)} (h : collect d classId columns = .ok names) {c : Column}
    (hc : c ∈ columns) : ∃ name, d.naming classId c = .ok name ∧ names.lookup c = some name := by
  induction columns generalizing names with
  | nil => cases hc
  | cons first rest ih =>
    obtain ⟨name, hname, h⟩ := Outcome.bind_eq_ok_iff.1 h
    obtain ⟨later, hlater, h⟩ := Outcome.bind_eq_ok_iff.1 h
    cases h
    by_cases heq : c = first
    · subst heq
      exact ⟨name, hname, by simp⟩
    · have hrest : c ∈ rest := (List.mem_cons.1 hc).resolve_left heq
      have hne : (c == first) = false := by simpa using heq
      obtain ⟨other, hother, hlookup⟩ := ih hlater hrest
      exact ⟨other, hother, by rw [List.lookup_cons, hne, hlookup]⟩

theorem names?_cons (classId other : ClassId) (names : List (Column × String)) (r : Registry) :
    names? ⟨(classId, names) :: r.classes⟩ other =
      if other = classId then some names else r.names? other := by
  unfold names?
  rw [List.lookup_cons]
  by_cases h : other = classId
  · simp [h]
  · have hne : (other == classId) = false := by simpa using h
    simp [hne, h]

/-- A class is either registered already, or its names are recorded. -/
theorem register_eq_ok_iff {r result : Registry} {tracked : List Column} {d : Directory}
    {classId : ClassId} :
    r.register tracked d classId = .ok result ↔
      (∃ names, r.names? classId = some names) ∧ result = r ∨
        r.names? classId = none ∧
          ∃ names, collect d classId ((d.columnsOf classId).filter (· ∈ tracked)) = .ok names ∧
            result = ⟨(classId, names) :: r.classes⟩ := by
  unfold register isRegistered
  cases hnames : r.names? classId with
  | some names =>
    simp only [Option.isSome_some, if_true, Except.ok.injEq, Option.some.injEq, exists_eq',
      true_and, reduceCtorEq, false_and, or_false]
    exact eq_comm
  | none =>
    simp only [Option.isSome_none, Bool.false_eq_true, if_false, reduceCtorEq, exists_false,
      false_and, true_and, false_or]
    rw [Outcome.bind_eq_ok_iff]
    constructor
    · rintro ⟨names, hcollect, h⟩
      cases h
      exact ⟨names, hcollect, rfl⟩
    · rintro ⟨names, hcollect, rfl⟩
      exact ⟨names, hcollect, rfl⟩

/-- What is recorded stays. -/
theorem names?_of_register {r result : Registry} {tracked : List Column} {d : Directory}
    {classId other : ClassId} (h : r.register tracked d classId = .ok result)
    {names : List (Column × String)} (hnames : r.names? other = some names) :
    result.names? other = some names := by
  rcases register_eq_ok_iff.1 h with ⟨-, rfl⟩ | ⟨hnone, recorded, -, rfl⟩
  · exact hnames
  · have hne : other ≠ classId := by
      rintro rfl
      rw [hnone] at hnames
      cases hnames
    rw [names?_cons, if_neg hne, hnames]

/-- A list of columns is refused for the first one that the directory refuses to name. -/
theorem exists_of_collect_eq_error {d : Directory} {classId : ClassId} {columns : List Column}
    {e : FlagError} (h : collect d classId columns = .error e) :
    ∃ front c back, columns = front ++ c :: back ∧
      (∀ b ∈ front, ∃ name, d.naming classId b = .ok name) ∧ d.naming classId c = .error e := by
  induction columns with
  | nil => cases h
  | cons first rest ih =>
    rcases Outcome.bind_eq_error_iff.1 h with hfirst | ⟨name, hname, h⟩
    · exact ⟨[], first, rest, rfl, List.forall_mem_nil _, hfirst⟩
    · rcases Outcome.bind_eq_error_iff.1 h with hrest | ⟨names, -, h⟩
      · obtain ⟨front, c, back, rfl, hfront, hc⟩ := ih hrest
        exact ⟨first :: front, c, back, rfl, List.forall_mem_cons.2 ⟨⟨name, hname⟩, hfront⟩, hc⟩
      · cases h

/-- Columns that are not listed are not recorded. -/
theorem lookup_eq_none_of_collect {d : Directory} {classId : ClassId} {columns : List Column}
    {names : List (Column × String)} (h : collect d classId columns = .ok names) {c : Column}
    (hc : c ∉ columns) : names.lookup c = none := by
  induction columns generalizing names with
  | nil =>
    cases h
    rfl
  | cons first rest ih =>
    obtain ⟨name, -, h⟩ := Outcome.bind_eq_ok_iff.1 h
    obtain ⟨later, hlater, h⟩ := Outcome.bind_eq_ok_iff.1 h
    cases h
    obtain ⟨hne, hrest⟩ := not_or.1 (mt List.mem_cons.2 hc)
    have hother : (c == first) = false := by simpa using hne
    rw [List.lookup_cons, hother, ih hlater hrest]

/-- A class is refused only as long as it is not registered, for one of its columns. -/
theorem register_eq_error_iff {r : Registry} {tracked : List Column} {d : Directory}
    {classId : ClassId} {e : FlagError} :
    r.register tracked d classId = .error e ↔
      r.names? classId = none ∧
        collect d classId ((d.columnsOf classId).filter (· ∈ tracked)) = .error e := by
  unfold register isRegistered
  cases r.names? classId with
  | some names => simp
  | none =>
    rw [if_neg (by simp), Outcome.bind_eq_error_iff]
    constructor
    · rintro (hcollect | ⟨names, -, h⟩)
      · exact ⟨rfl, hcollect⟩
      · cases h
    · rintro ⟨-, hcollect⟩
      exact .inl hcollect

/-- Registration against a directory that speaks for the class's mapping asks the mapping. -/
theorem register_congr (r : Registry) (tracked : List Column) {d : Directory} {m : Mapping}
    (h : d.SpeaksFor m) :
    r.register tracked d m.id = r.register tracked m.directory m.id := by
  unfold register
  rw [h.columns, collect_congr h.naming_eq]
  rfl

end Registry

namespace Resolver

/-- What is recorded stays, whatever the resolver does to register a class. -/
theorem names?_of_register {r : Resolver} {known result : Registry} {d : Directory}
    {classId other : ClassId} (h : r.register known d classId = .ok result)
    {names : List (Column × String)} (hnames : known.names? other = some names) :
    result.names? other = some names := by
  unfold register at h
  split at h
  · exact Registry.names?_of_register h hnames
  · cases h
    exact hnames

/-- Names in a registry were there before, or are those of the class that was registered, and then
what the directory gave. -/
theorem names?_eq_of_register {r : Resolver} {known result : Registry} {d : Directory}
    {classId other : ClassId} (h : r.register known d classId = .ok result)
    {names : List (Column × String)} (hnames : result.names? other = some names) :
    known.names? other = some names ∨ other = classId ∧
      Registry.collect d classId ((d.columnsOf classId).filter (· ∈ r.columns)) = .ok names := by
  unfold register at h
  split at h
  · rcases Registry.register_eq_ok_iff.1 h with ⟨-, rfl⟩ | ⟨-, recorded, hcollect, rfl⟩
    · exact .inl hnames
    · rw [Registry.names?_cons] at hnames
      split at hnames
      · next heq =>
        cases hnames
        exact .inr ⟨heq, hcollect⟩
      · exact .inl hnames
  · cases h
    exact .inl hnames

/-- A class registered with a prefetching resolver has names. -/
theorem exists_names?_of_register {r : Resolver} (hr : r.strategy = .prefetched)
    {known result : Registry} {d : Directory} {classId : ClassId}
    (h : r.register known d classId = .ok result) :
    ∃ names, result.names? classId = some names := by
  unfold register at h
  rw [hr] at h
  rcases Registry.register_eq_ok_iff.1 h with ⟨hnames, rfl⟩ | ⟨-, names, -, rfl⟩
  · exact hnames
  · exact ⟨names, by rw [Registry.names?_cons, if_pos rfl]⟩

end Resolver

end RowFlags
