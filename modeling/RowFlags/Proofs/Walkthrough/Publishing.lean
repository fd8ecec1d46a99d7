import RowFlags.Proofs.Walkthrough.Articles

/-!
# Publishing articles

The parts of the walkthrough that make the class of articles and their flag, and that write single
articles. `Yields` says what a part gives and how it leaves the progress, so that the parts chain by
`Yields.bind`. The flag is `Ready` from the moment its model is made, whichever way it finds its
attribute, and nothing else of the workspace is asked for later: publishing an article takes the
next date of the clock, making it a draft takes none, and the flag stays ready.
-/

set_option autoImplicit false

namespace RowFlags.Walkthrough

open CommandLine (Settings)

/-! ## Parts that succeed -/

/-- From the first progress the part goes on to the second, with a result. -/
def Yields {α : Type} (part : Part α) (p : Progress) (a : α) (q : Progress) : Prop :=
  part.run.run p = (.ok a, q)

section Yields

variable {α β ε : Type} {p q r : Progress} {a : α} {b : β}

theorem Yields.bind {part : Part α} {next : α → Part β} (h : Yields part p a q)
    (hnext : Yields (next a) q b r) : Yields (part >>= next) p b r := by
  unfold Yields at *
  rw [ExceptT.run_bind, StateT.run_bind, h]
  exact hnext

theorem yields_pure (p : Progress) (a : α) : Yields (pure a) p a p := rfl

theorem yields_get (p : Progress) : Yields get p p p := rfl

theorem yields_tell (p : Progress) (line : Line) :
    Yields (tell line) p () { p with lines := p.lines.push line } := rfl

theorem yields_attempt {failure : ε → Failure} {x : Except ε α} (h : x = .ok a) :
    Yields (attempt failure x) p a p := by
  subst h
  rfl

theorem yields_modify (p : Progress) (f : Progress → Progress) :
    Yields (modify f) p () (f p) := rfl

theorem yields_act {failure : ε → Failure} {f : Workspace → Except ε α × Workspace}
    {w : Workspace} (h : f p.workspace = (.ok a, w)) :
    Yields (act failure f) p a { p with workspace := w } := by
  refine (yields_get p).bind ?_
  rw [h]
  exact (yields_modify p _).bind (yields_pure _ a)

theorem yields_make {failure : ε → Failure} {f : Workspace → Except ε (α × Workspace)}
    {w : Workspace} (h : f p.workspace = .ok (a, w)) :
    Yields (make failure f) p a { p with workspace := w } := by
  refine (yields_get p).bind ?_
  rw [h]
  exact (yields_modify p _).bind (yields_pure _ a)

end Yields

/-! ## Making the model -/

/-- The flag of the walkthrough. -/
def articleFlag (settings : Settings) (clock : Nat → Instant) : Flag where
  id := ⟨1⟩
  program := published
  resolver :=
    ⟨[dateColumn], if settings.onDemand then .onDemand (.catalog catalogName) else .prefetched⟩
  default := some (.producer fun drawn => .timestamp (clock drawn))

/-- The model of the walkthrough. -/
def articleModel (settings : Settings) (clock : Nat → Instant) : Model :=
  ⟨articleClass, NameMap.ofList [(flagName, articleFlag settings clock)]⟩

/-- The flag finds the date of an article, and has given so many dates. -/
structure Ready (settings : Settings) (clock : Nat → Instant) (drawn : Nat) (w : Workspace) :
    Prop where
  naming : w.namingOf (articleFlag settings clock) ⟨1⟩ dateColumn = .ok dateName
  drawn : (w.memoryOf ⟨1⟩).drawn = drawn

/-- The workspace with the table of articles. -/
def tabled : Workspace where
  catalogs := NameMap.empty.insert catalogName ⟨[articles], []⟩
  nextTable := 2

/-- The workspace with the class of articles as well. -/
def mapped : Workspace :=
  { tabled with
    catalogs := tabled.catalogs.insert catalogName ⟨[articles], [articleClass]⟩, nextClass := 2 }

theorem yields_makeTable : Yields makeTable {} articles ⟨tabled, #[]⟩ := yields_make rfl

theorem yields_mapArticles :
    Yields (mapArticles articles) ⟨tabled, #[]⟩ articleClass ⟨mapped, #[]⟩ := yields_act rfl

theorem yields_makeFlag (settings : Settings) (clock : Nat → Instant) :
    Yields (makeFlag settings clock articles) ⟨mapped, #[]⟩ (articleFlag settings clock)
      ⟨{ mapped with nextFlag := 2 }, #[]⟩ :=
  (yields_attempt (a := dateColumn) rfl).bind (yields_make rfl)

theorem exists_yields_makeModel (settings : Settings) (clock : Nat → Instant) :
    ∃ w, Yields (makeModel articleClass (articleFlag settings clock))
      ⟨{ mapped with nextFlag := 2 }, #[]⟩ (articleModel settings clock) ⟨w, #[]⟩ ∧
      Ready settings clock 0 w := by
  obtain ⟨count, every, onDemand, debug⟩ := settings
  cases onDemand with
  | false => exact ⟨_, yields_act rfl, rfl, rfl⟩
  | true => exact ⟨_, yields_act rfl, rfl, rfl⟩

/-! ## Writing articles -/

section Ready

variable {settings : Settings} {clock : Nat → Instant} {drawn : Nat} {w : Workspace}

/-- Whatever it has drawn, a flag names its columns by what it has recorded. -/
theorem Ready.remember (h : Ready settings clock drawn w) (more : Nat) :
    Ready settings clock more (w.remember ⟨1⟩ { w.memoryOf ⟨1⟩ with drawn := more }) := by
  constructor
  · rw [← h.naming]
    have hid : (articleFlag settings clock).id = ⟨1⟩ := rfl
    unfold Workspace.namingOf
    rw [hid, Workspace.memoryOf_remember, if_pos rfl]
    rfl
  · rw [Workspace.memoryOf_remember, if_pos rfl]

/-- Publishing an article takes the next date of the clock, and making it a draft takes none. -/
theorem Ready.exists_write (h : Ready settings clock drawn w) (number : Nat)
    (date : Option Instant) (on : Bool) :
    ∃ next, (articleModel settings clock).write w (article number date) flagName (.boolean on) =
        (.ok (article number (if on then some (clock drawn) else none)), next) ∧
      Ready settings clock (if on then drawn + 1 else drawn) next := by
  have hsingle : (w.namingOf (articleFlag settings clock)).single
      (articleFlag settings clock).columns ⟨1⟩ = .ok (dateColumn, dateName) := by
    show (dateColumn, ·) <$> w.namingOf (articleFlag settings clock) ⟨1⟩ dateColumn = _
    rw [h.naming]
    rfl
  have hassign : (articleFlag settings clock).assign (w.namingOf (articleFlag settings clock)) drawn
      (article number date) (.boolean on) =
        (.ok (article number (if on then some (clock drawn) else none)),
          if on then drawn + 1 else drawn) := by
    have hclass : (article number date).classId = ⟨1⟩ := rfl
    unfold Flag.assign
    rw [hclass, hsingle]
    cases on <;> rfl
  have hwrite : (articleModel settings clock).write w (article number date) flagName (.boolean on) =
      w.assignFlag (articleFlag settings clock) (article number date) (.boolean on) := rfl
  refine ⟨_, ?_, h.remember _⟩
  rw [hwrite, Workspace.assignFlag]
  have hid : (articleFlag settings clock).id = ⟨1⟩ := rfl
  rw [hid, h.drawn, hassign]

/-- An article is made of its number and its title, and then published or not. -/
theorem Ready.exists_create (h : Ready settings clock drawn w) (number : Nat) (on : Bool) :
    ∃ next, (articleModel settings clock).create w
        [("id", .int32 (UInt32.ofNat number).toInt32), ("title", .string (titleOf number)),
          (flagName, .boolean on)] =
        (.ok (article number (if on then some (clock drawn) else none)), next) ∧
      Ready settings clock (if on then drawn + 1 else drawn) next := by
  obtain ⟨next, hwrite, hready⟩ := h.exists_write number none on
  refine ⟨next, ?_, hready⟩
  have hcreate : (articleModel settings clock).create w
      [("id", .int32 (UInt32.ofNat number).toInt32), ("title", .string (titleOf number)),
          (flagName, .boolean on)] =
      (articleModel settings clock).writeAll [(flagName, .boolean on)] w (article number none) := rfl
  rw [hcreate, Model.writeAll, hwrite]
  rfl

end Ready

end RowFlags.Walkthrough
