import RowFlags.Proofs.Naming.Recording

/-!
# Registering once

Classes may be registered in any order, again and again, and each time against another directory. Of
the calls for a class the first one counts whose directory names all tracked columns that it maps
(`names?_run`). The calls before it fail and leave nothing behind, those after it change nothing,
and calls for other classes are of no account (`recorded_once`).
-/

set_option autoImplicit false

namespace RowFlags

/-- A call that registers a class, against what a directory says of it at that time. -/
structure Registration where
  directory : Directory
  classId : ClassId

namespace Registration

variable (tracked : List Column)

/-- What a call comes to. -/
def attempt (known : Registry) (call : Registration) : Except FlagError Registry :=
  known.register tracked call.directory call.classId

/-- What is recorded after a call, whatever it comes to. -/
def step (known : Registry) (call : Registration) : Registry :=
  match attempt tracked known call with
  | .ok next => next
  | .error _ => known

/-- What is recorded after some calls. -/
def run (known : Registry) (calls : List Registration) : Registry :=
  calls.foldl (step tracked) known

/-- What is recorded after the first calls. -/
def after (calls : List Registration) : Registry := run tracked {} calls

/-- Some call for the class succeeded. -/
def Succeeded (calls : List Registration) (classId : ClassId) : Prop :=
  ∃ before call later, calls = before ++ call :: later ∧ call.classId = classId ∧
    ∃ next, attempt tracked (after tracked before) call = .ok next

/-- The directory of a call names all tracked columns that it maps on the class. -/
def NamesAll (call : Registration) : Prop :=
  ∀ c ∈ call.directory.columnsOf call.classId, c ∈ tracked →
    ∃ name, call.directory.naming call.classId c = .ok name

/-- The names of the tracked columns, or why the directory of a call refuses them. -/
def collected (call : Registration) : Except FlagError (List (Column × String)) :=
  Registry.collect call.directory call.classId
    ((call.directory.columnsOf call.classId).filter (· ∈ tracked))

/-- What a call has to record for a class; a call for another class has nothing. -/
def names? (classId : ClassId) (call : Registration) : Option (List (Column × String)) :=
  if call.classId = classId then (collected tracked call).toOption else none

variable {tracked} {known : Registry} {call : Registration} {calls : List Registration}
  {classId : ClassId}

/-! ## One call -/

theorem names?_eq_some_iff {names : List (Column × String)} :
    names? tracked classId call = some names ↔
      call.classId = classId ∧ collected tracked call = .ok names := by
  unfold names?
  by_cases h : call.classId = classId
  · rw [if_pos h]
    cases collected tracked call with
    | ok found => simp [h, Except.toOption]
    | error e => simp [Except.toOption]
  · simp [h]

/-- All tracked columns are named, or the first one that is not is refused. -/
theorem namesAll_iff : call.NamesAll tracked ↔ ∃ names, collected tracked call = .ok names := by
  constructor
  · intro hall
    cases h : collected tracked call with
    | ok names => exact ⟨names, rfl⟩
    | error e =>
      obtain ⟨front, c, back, hsplit, -, hrefused⟩ := Registry.exists_of_collect_eq_error h
      have hmem : c ∈ (call.directory.columnsOf call.classId).filter (· ∈ tracked) := by
        rw [hsplit]
        exact List.mem_append_right front List.mem_cons_self
      obtain ⟨hmapped, htracked⟩ := List.mem_filter.1 hmem
      obtain ⟨name, hname⟩ := hall c hmapped (of_decide_eq_true htracked)
      cases hrefused.symm.trans hname
  · rintro ⟨names, h⟩ c hmapped htracked
    obtain ⟨name, hname, -⟩ := Registry.lookup_of_collect h
      (List.mem_filter.2 ⟨hmapped, decide_eq_true htracked⟩)
    exact ⟨name, hname⟩

/-- A call for a class that is recorded does nothing; for any other class it succeeds if the names
can be collected. -/
theorem attempt_cases (tracked : List Column) (known : Registry) (call : Registration) :
    (∃ names, known.names? call.classId = some names ∧ attempt tracked known call = .ok known) ∨
      known.names? call.classId = none ∧
        ((∃ names, collected tracked call = .ok names ∧
            attempt tracked known call = .ok ⟨(call.classId, names) :: known.classes⟩) ∨
          ∃ e, collected tracked call = .error e ∧ attempt tracked known call = .error e) := by
  cases hknown : known.names? call.classId with
  | some names =>
    exact .inl ⟨names, rfl, Registry.register_eq_ok_iff.2 (.inl ⟨⟨names, hknown⟩, rfl⟩)⟩
  | none =>
    refine .inr ⟨rfl, ?_⟩
    cases hcollected : collected tracked call with
    | ok names =>
      exact .inl ⟨names, rfl, Registry.register_eq_ok_iff.2 (.inr ⟨hknown, names, hcollected, rfl⟩)⟩
    | error e => exact .inr ⟨e, rfl, Registry.register_eq_error_iff.2 ⟨hknown, hcollected⟩⟩

theorem step_of_ok {next : Registry} (h : attempt tracked known call = .ok next) :
    step tracked known call = next := by
  rw [step, h]

theorem step_of_error {e : FlagError} (h : attempt tracked known call = .error e) :
    step tracked known call = known := by
  rw [step, h]

/-- A call adds what it has to record for a class, if nothing was recorded of it. -/
theorem names?_step (known : Registry) (call : Registration) (classId : ClassId) :
    (step tracked known call).names? classId =
      (known.names? classId).or (names? tracked classId call) := by
  unfold names?
  rcases attempt_cases tracked known call with
    ⟨names, hnames, h⟩ | ⟨hnone, ⟨names, hcollected, h⟩ | ⟨e, hcollected, h⟩⟩
  · -- its class was recorded before
    rw [step_of_ok h]
    by_cases heq : call.classId = classId
    · rw [← heq, hnames, Option.some_or]
    · rw [if_neg heq, Option.or_none]
  · -- its class is recorded now
    rw [step_of_ok h, Registry.names?_cons, hcollected]
    by_cases heq : call.classId = classId
    · rw [if_pos heq.symm, if_pos heq, ← heq, hnone]
      rfl
    · rw [if_neg (Ne.symm heq), if_neg heq, Option.or_none]
  · -- it fails
    rw [step_of_error h, hcollected]
    split <;> exact (Option.or_none).symm

/-- After a call succeeded, its class is recorded. -/
theorem exists_names?_of_ok {next : Registry} (h : attempt tracked known call = .ok next) :
    ∃ names, next.names? call.classId = some names := by
  rcases attempt_cases tracked known call with
    ⟨names, hnames, hok⟩ | ⟨-, ⟨names, -, hok⟩ | ⟨e, -, herror⟩⟩
  · cases hok.symm.trans h
    exact ⟨names, hnames⟩
  · cases hok.symm.trans h
    exact ⟨names, by rw [Registry.names?_cons, if_pos rfl]⟩
  · cases herror.symm.trans h

/-- A call whose directory names all columns succeeds, whatever is recorded. -/
theorem exists_attempt_ok {names : List (Column × String)} (h : collected tracked call = .ok names)
    (known : Registry) : ∃ next, attempt tracked known call = .ok next := by
  rcases attempt_cases tracked known call with
    ⟨_, -, hok⟩ | ⟨-, ⟨_, -, hok⟩ | ⟨e, herror, -⟩⟩
  · exact ⟨_, hok⟩
  · exact ⟨_, hok⟩
  · cases h.symm.trans herror

/-! ## Many calls -/

theorem run_append (known : Registry) (calls more : List Registration) :
    run tracked known (calls ++ more) = run tracked (run tracked known calls) more :=
  List.foldl_append

theorem after_append_cons (calls more : List Registration) (call : Registration) :
    after tracked (calls ++ call :: more) =
      run tracked (step tracked (after tracked calls) call) more :=
  run_append {} calls (call :: more)

/-- What is recorded of a class stays, and else the first call counts that has something to record
for it. -/
theorem names?_run (known : Registry) (calls : List Registration) (classId : ClassId) :
    (run tracked known calls).names? classId =
      (known.names? classId).or (calls.findSome? (names? tracked classId)) := by
  -- the later calls start from what the first one leaves
  induction calls generalizing known with
  | nil => rw [List.findSome?_nil, Option.or_none, run, List.foldl_nil]
  | cons call rest ih =>
    rw [run, List.foldl_cons, ← run, ih, names?_step, Option.or_assoc, List.findSome?_cons]
    cases names? tracked classId call <;> rfl

theorem names?_after (calls : List Registration) (classId : ClassId) :
    (after tracked calls).names? classId = calls.findSome? (names? tracked classId) :=
  names?_run {} calls classId

/-- The classes of which something is recorded are those for which a call succeeded. -/
theorem succeeded_iff :
    Succeeded tracked calls classId ↔
      ∃ names, (after tracked calls).names? classId = some names := by
  constructor
  · rintro ⟨before, call, later, rfl, rfl, next, hok⟩
    obtain ⟨names, hnames⟩ := exists_names?_of_ok hok
    refine ⟨names, ?_⟩
    rw [after_append_cons, step_of_ok hok, names?_run, hnames, Option.some_or]
  · rintro ⟨names, h⟩
    rw [names?_after] at h
    obtain ⟨before, call, later, hsplit, hcall, -⟩ := List.findSome?_eq_some_iff.1 h
    obtain ⟨hclass, hcollected⟩ := names?_eq_some_iff.1 hcall
    exact ⟨before, call, later, hsplit, hclass, exists_attempt_ok hcollected _⟩

/-- A call succeeds if its class is known from an earlier one or its directory names all columns. -/
theorem exists_attempt_ok_iff :
    (∃ next, attempt tracked (after tracked calls) call = .ok next) ↔
      Succeeded tracked calls call.classId ∨ call.NamesAll tracked := by
  rw [succeeded_iff, namesAll_iff]
  rcases attempt_cases tracked (after tracked calls) call with
    ⟨names, hnames, hok⟩ | ⟨hnone, ⟨names, hcollected, hok⟩ | ⟨e, hcollected, herror⟩⟩
  · exact iff_of_true ⟨_, hok⟩ (.inl ⟨names, hnames⟩)
  · exact iff_of_true ⟨_, hok⟩ (.inr ⟨names, hcollected⟩)
  · apply iff_of_false
    · rw [herror]
      rintro ⟨_, ⟨⟩⟩
    · simp [hnone, hcollected]

/-- The first call that succeeded recorded what its directory had to say. -/
theorem exists_first_of_names? {names : List (Column × String)}
    (h : (after tracked calls).names? classId = some names) :
    ∃ before call later, calls = before ++ call :: later ∧ call.classId = classId ∧
      ¬ Succeeded tracked before classId ∧ collected tracked call = .ok names := by
  rw [names?_after] at h
  obtain ⟨before, call, later, hsplit, hcall, hbefore⟩ := List.findSome?_eq_some_iff.1 h
  obtain ⟨hclass, hcollected⟩ := names?_eq_some_iff.1 hcall
  refine ⟨before, call, later, hsplit, hclass, ?_, hcollected⟩
  rw [succeeded_iff, names?_after, List.findSome?_eq_none_iff.2 hbefore]
  simp

/-! ## Answers -/

/-- The naming of a class goes by what is recorded of it. -/
theorem naming_congr {r r' : Registry} (h : r.names? classId = r'.names? classId) (c : Column) :
    r.naming classId c = r'.naming classId c := by
  unfold Registry.naming
  rw [h]

theorem naming_of_names?_eq_none {r : Registry} (h : r.names? classId = none) (c : Column) :
    r.naming classId c = .error (.unregistered classId) := by
  unfold Registry.naming
  rw [h]

/-- A recorded class answers for a tracked column as the directory did that mapped it, and has no
other column. -/
theorem naming_of_collected {r : Registry} {names : List (Column × String)}
    (hcollected : collected tracked call = .ok names) (h : r.names? call.classId = some names)
    (c : Column) :
    r.naming call.classId c =
      if c ∈ tracked ∧ c ∈ call.directory.columnsOf call.classId
      then call.directory.naming call.classId c
      else .error (.unmapped call.classId c) := by
  unfold Registry.naming
  rw [h]
  by_cases hc : c ∈ tracked ∧ c ∈ call.directory.columnsOf call.classId
  · have hlisted : c ∈ (call.directory.columnsOf call.classId).filter (· ∈ tracked) :=
      List.mem_filter.2 ⟨hc.2, decide_eq_true hc.1⟩
    obtain ⟨name, hname, hlookup⟩ := Registry.lookup_of_collect hcollected hlisted
    rw [if_pos hc, hname]
    simp only [hlookup]
  · have hunlisted : c ∉ (call.directory.columnsOf call.classId).filter (· ∈ tracked) := by
      intro hlisted
      obtain ⟨hmapped, htracked⟩ := List.mem_filter.1 hlisted
      exact hc ⟨of_decide_eq_true htracked, hmapped⟩
    have hlookup : names.lookup c = none := Registry.lookup_eq_none_of_collect hcollected hunlisted
    rw [if_neg hc]
    simp only [hlookup]

/-- Whatever calls were made: a call succeeds exactly if one for its class did before, or if its
directory names all tracked columns that it maps. Once a call for a class succeeds, the class
answers as it does then, after any further calls; a call that fails might as well not have been
made; a call for one class leaves the answers for the others; a class for which no call succeeded is
not registered; and an untracked column has no name. Where a call succeeded, the first such call
settles the answers: the tracked columns that its directory maps have the names that it gives them,
and no other column has any. -/
theorem recorded_once (tracked : List Column) (calls : List Registration) :
    (∀ call, (∃ next, attempt tracked (after tracked calls) call = .ok next) ↔
      Succeeded tracked calls call.classId ∨ call.NamesAll tracked) ∧
    (∀ call next, attempt tracked (after tracked calls) call = .ok next → ∀ more c,
      (after tracked (calls ++ call :: more)).naming call.classId c =
        next.naming call.classId c) ∧
    (∀ call e, attempt tracked (after tracked calls) call = .error e → ∀ more,
      after tracked (calls ++ call :: more) = after tracked (calls ++ more)) ∧
    (∀ call other, other ≠ call.classId → ∀ c,
      (after tracked (calls ++ [call])).naming other c = (after tracked calls).naming other c) ∧
    (∀ classId, ¬ Succeeded tracked calls classId → ∀ c,
      (after tracked calls).naming classId c = .error (.unregistered classId)) ∧
    (∀ classId c, c ∉ tracked → ∀ name, (after tracked calls).naming classId c ≠ .ok name) ∧
    ∀ classId, Succeeded tracked calls classId →
      ∃ before call later, calls = before ++ call :: later ∧ call.classId = classId ∧
        ¬ Succeeded tracked before classId ∧ call.NamesAll tracked ∧
        ∀ c, (after tracked calls).naming classId c =
          if c ∈ tracked ∧ c ∈ call.directory.columnsOf classId
          then call.directory.naming classId c else .error (.unmapped classId c) := by
  refine ⟨fun call => exists_attempt_ok_iff, ?_, ?_, ?_, ?_, ?_, ?_⟩
  · intro call next hok more c
    obtain ⟨names, hnames⟩ := exists_names?_of_ok hok
    apply naming_congr
    rw [after_append_cons, step_of_ok hok, names?_run, hnames, Option.some_or]
  · intro call e herror more
    rw [after_append_cons, step_of_error herror]
    exact (run_append {} calls more).symm
  · intro call other hother c
    have hnothing : names? tracked other call = none := if_neg (Ne.symm hother)
    apply naming_congr
    rw [names?_after, names?_after, List.findSome?_append, List.findSome?_singleton, hnothing,
      Option.or_none]
  · intro classId hnever c
    apply naming_of_names?_eq_none
    rw [succeeded_iff] at hnever
    exact Option.eq_none_iff_forall_ne_some.2 fun names h => hnever ⟨names, h⟩
  · intro classId c huntracked name hname
    cases h : (after tracked calls).names? classId with
    | none => cases (naming_of_names?_eq_none h c).symm.trans hname
    | some names =>
      obtain ⟨-, call, -, -, rfl, -, hcollected⟩ := exists_first_of_names? h
      rw [naming_of_collected hcollected h, if_neg (fun hc => huntracked hc.1)] at hname
      cases hname
  · intro classId hsucceeded
    obtain ⟨names, h⟩ := succeeded_iff.1 hsucceeded
    obtain ⟨before, call, later, hsplit, rfl, hbefore, hcollected⟩ := exists_first_of_names? h
    exact ⟨before, call, later, hsplit, rfl, hbefore, namesAll_iff.2 ⟨names, hcollected⟩,
      naming_of_collected hcollected h⟩

/-- A column of two names is refused; once it has one name, a later name is of no account. -/
example :
    let c : Column := ⟨⟨1⟩, 0, "pair", "a", .varchar⟩
    let call := fun names => Registration.mk (.ofEntries [⟨⟨3⟩, c, names⟩]) ⟨3⟩
    (after [c] [call ["x", "y"]]).naming ⟨3⟩ c = .error (.unregistered ⟨3⟩) ∧
      (after [c] [call ["x", "y"], call ["z"], call ["x"]]).naming ⟨3⟩ c = .ok "z" :=
  ⟨rfl, rfl⟩

end Registration

end RowFlags
