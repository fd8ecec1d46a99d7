import RowFlags.Proofs.Walkthrough.Arguments
import RowFlags.Proofs.Walkthrough.Publishing

/-!
# What the walkthrough tells

Main statement: for all settings and clocks the walkthrough ends well, and its lines are those of
the closed form in `run_texts`, down to the number of bytes of the snapshot. The loop that seeds is
carried by one invariant (`exists_yields_foldlM_seed`): after `count` articles the store is the
shelf of `seededDates every clock count`, and the flag has drawn `count / every` dates. What follows
the loop looks at the first article only, a draft unless every article is published
(`seededDates_eq_cons`).
-/

set_option autoImplicit false

namespace RowFlags.Walkthrough

open CommandLine (Settings)

/-! ## Seeding -/

/-- The publication date of the article that is seeded after `count` others: every `every`th article
takes the next date of the clock. -/
def seededDate (every : Nat) (clock : Nat → Instant) (count : Nat) : Option Instant :=
  if every ∣ count + 1 then some (clock (count / every)) else none

/-- The publication dates of so many seeded articles. -/
def seededDates (every : Nat) (clock : Nat → Instant) (count : Nat) : List (Option Instant) :=
  (List.range count).map (seededDate every clock)

section Seeding

variable {settings : Settings} {clock : Nat → Instant}

theorem seededDates_succ (every : Nat) (clock : Nat → Instant) (count : Nat) :
    seededDates every clock (count + 1) =
      seededDates every clock count ++ [seededDate every clock count] := by
  rw [seededDates, List.range_succ, List.map_append]
  rfl

@[simp] theorem length_seededDates (every : Nat) (clock : Nat → Instant) (count : Nat) :
    (seededDates every clock count).length = count := by
  simp [seededDates]

/-- Of so many articles, one in `every` is published. -/
theorem countP_seededDates (every : Nat) (clock : Nat → Instant) (count : Nat) :
    (seededDates every clock count).countP Option.isSome = count / every := by
  induction count with
  | zero => rw [Nat.zero_div]; rfl
  | succ count ih =>
    rw [seededDates_succ, List.countP_append, ih, Nat.succ_div, seededDate]
    split <;> rfl

theorem datable_seededDate (hclock : ∀ n, Instant.Storable (clock n).nanoseconds)
    (every count : Nat) : Datable (seededDate every clock count) := by
  intro t ht
  unfold seededDate at ht
  split at ht
  · cases ht
    exact hclock _
  · cases ht

theorem shelvable_seededDates (hclock : ∀ n, Instant.Storable (clock n).nanoseconds) (every : Nat)
    {count : Nat} (h : count < UInt32.size) : Shelvable (seededDates every clock count) := by
  refine ⟨?_, by rwa [length_seededDates]⟩
  intro date hdate
  obtain ⟨i, -, rfl⟩ := List.mem_map.1 hdate
  exact datable_seededDate hclock every i

/-- The number of an article is a multiple exactly if the machine's remainder is zero. -/
theorem mod_eq_zero_iff (every : UInt32) {number : Nat} (h : number < UInt32.size) :
    UInt32.ofNat number % every = 0 ↔ every.toNat ∣ number := by
  rw [← UInt32.toNat_inj, UInt32.toNat_mod, UInt32.toNat_ofNat_of_lt' h, Nat.dvd_iff_mod_eq_zero]
  rfl

/-- Seeding the next article puts it behind the others. -/
theorem exists_yields_seed (hclock : ∀ n, Instant.Storable (clock n).nanoseconds) (every : UInt32)
    {count : Nat} (hroom : count + 1 < UInt32.size) {p : Progress}
    (hready : Ready settings clock (count / every.toNat) p.workspace) :
    ∃ w, Yields (seed (articleModel settings clock) every
        (shelf (seededDates every.toNat clock count)) (UInt32.ofNat (count + 1))) p
        (shelf (seededDates every.toNat clock (count + 1))) { p with workspace := w } ∧
      Ready settings clock ((count + 1) / every.toNat) w := by
  have hmultiple := mod_eq_zero_iff every hroom
  obtain ⟨w, hcreate, hnext⟩ :=
    hready.exists_create (count + 1) (decide (UInt32.ofNat (count + 1) % every = 0))
  have hdate : (if decide (UInt32.ofNat (count + 1) % every = 0) then
      some (clock (count / every.toNat)) else none) = seededDate every.toNat clock count := by
    simp only [hmultiple, decide_eq_true_eq, seededDate]
  have hdrawn : (if decide (UInt32.ofNat (count + 1) % every = 0) then count / every.toNat + 1
      else count / every.toNat) = (count + 1) / every.toNat := by
    simp only [hmultiple, decide_eq_true_eq, Nat.succ_div]
    split <;> rfl
  have hinsert := insert_article (seededDates every.toNat clock count)
    (datable_seededDate hclock every.toNat count) (by rw [length_seededDates]; omega)
  rw [hdate] at hcreate
  rw [hdrawn] at hnext
  rw [length_seededDates, ← seededDates_succ] at hinsert
  refine ⟨w, (yields_act ?_).bind ((yields_attempt hinsert).bind (yields_pure _ _)), hnext⟩
  rw [UInt32.toNat_ofNat_of_lt' hroom]
  exact hcreate

/-- The numbers of so many articles. -/
def numbers (count : Nat) : List UInt32 := (List.range count).map fun k => UInt32.ofNat (k + 1)

/-- Seeding articles one after the other leaves them on a shelf. -/
theorem exists_yields_foldlM_seed (hclock : ∀ n, Instant.Storable (clock n).nanoseconds)
    (every : UInt32) {p : Progress} (hready : Ready settings clock 0 p.workspace) {count : Nat}
    (hroom : count < UInt32.size) :
    ∃ w, Yields ((numbers count).foldlM (seed (articleModel settings clock) every)
        (Store.empty articles)) p (shelf (seededDates every.toNat clock count))
        { p with workspace := w } ∧
      Ready settings clock (count / every.toNat) w := by
  induction count with
  | zero => exact ⟨p.workspace, yields_pure p _, by rwa [Nat.zero_div]⟩
  | succ count ih =>
    obtain ⟨w, hfirst, hnext⟩ := ih (Nat.lt_of_succ_lt hroom)
    obtain ⟨last, hlast, hdone⟩ := exists_yields_seed (p := { p with workspace := w }) hclock every hroom hnext
    refine ⟨last, ?_, hdone⟩
    rw [numbers, List.range_succ, List.map_append, List.foldlM_append]
    refine hfirst.bind ?_
    rw [List.map_singleton, List.foldlM_cons]
    exact hlast.bind (yields_pure _ _)

end Seeding

/-! ## Publishing the first draft -/

section Revising

variable {settings : Settings} {clock : Nat → Instant} {p : Progress} {drawn : Nat}

theorem yields_title (settings : Settings) (clock : Nat → Instant) (p : Progress)
    (date : Option Instant) :
    Yields (title (articleModel settings clock) (article 1 date)) p "'Article 1'" p := by
  have htext : (Value.string (titleOf 1)).sql = "'Article 1'" := by decide +kernel
  have hread : Model.read p.workspace (articleModel settings clock) (article 1 date) "title" =
      .ok (.string (titleOf 1)) := rfl
  refine (yields_get p).bind ((yields_attempt hread).bind ?_)
  rw [htext]
  exact yields_pure p _

theorem yields_count {dates : List (Option Instant)} (h : Shelvable dates) (p : Progress) :
    Yields (countPublished (shelf dates) condition) p (dates.countP Option.isSome) p :=
  yields_attempt (count_shelf h)

theorem Ready.exists_publish (h : Ready settings clock drawn p.workspace) (date : Option Instant)
    (on : Bool) :
    ∃ w, Yields (publish (articleModel settings clock) (article 1 date) on) p
        (article 1 (if on then some (clock drawn) else none)) { p with workspace := w } ∧
      Ready settings clock (if on then drawn + 1 else drawn) w := by
  obtain ⟨w, hwrite, hready⟩ := h.exists_write 1 date on
  exact ⟨w, yields_act hwrite, hready⟩

/-- Whether an article is published is whether it has a date. -/
theorem Ready.getFlag_article (h : Ready settings clock drawn p.workspace) (number : Nat)
    (date : Option Instant) :
    (articleModel settings clock).getFlag p.workspace (article number date) flagName =
      .ok date.isSome := by
  have hvalue : ∀ c, .load c ∈ published.code → ∃ v,
      (articleValues number date)[c.position]? = some v ∧
        (article number date).valueOf (p.workspace.namingOf (articleFlag settings clock)) c =
          .ok v := by
    intro c hc
    obtain rfl : c = dateColumn := by simpa [published] using hc
    refine ⟨dateValue date, rfl, ?_⟩
    have hclass : (article number date).classId = ⟨1⟩ := rfl
    unfold Record.valueOf
    rw [hclass, h.naming]
    rfl
  have hget : (articleModel settings clock).getFlag p.workspace (article number date) flagName =
      Value.truthy <$> published.evaluate FlagError.eval
        ((article number date).valueOf
          (p.workspace.namingOf (articleFlag settings clock))) := rfl
  rw [hget, Store.evaluate_eq_evaluateRow FlagError.eval hvalue, evaluateRow_published]
  rfl

/-- What is told of the first draft, if so many articles are published without it. -/
def revisionLines (bytes count : Nat) (date : Instant) : List Line :=
  [.published "'Article 1'" (Value.timestamp date).sql (count + 1),
    .unpublished "'Article 1'" count, .restored bytes count "'Article 1'" false]

/-- The first draft is published, made a draft again, and found as one in a restored copy. -/
theorem exists_yields_revise {rest : List (Option Instant)} (h : Shelvable (none :: rest))
    (hdate : Instant.Storable (clock drawn).nanoseconds)
    (hready : Ready settings clock drawn p.workspace) :
    ∃ q, Yields (revise (articleModel settings clock) condition (shelf (none :: rest)) ⟨0⟩
        (article 1 none)) p () q ∧
      q.lines.toList = p.lines.toList ++ revisionLines (shelf (none :: rest)).snapshot.length
        (rest.countP Option.isSome) (clock drawn) := by
  have hdatable : Datable (some (clock drawn)) := by
    rintro t ⟨⟩
    exact hdate
  have hpublished : Shelvable (some (clock drawn) :: rest) :=
    ⟨List.forall_mem_cons.2 ⟨hdatable, (List.forall_mem_cons.1 h.datable).2⟩, h.room⟩
  have hupdate := update_first none rest hdatable
  have hupdateBack := update_first (some (clock drawn)) rest (h.datable none List.mem_cons_self)
  have hcount (q : Progress) : Yields (countPublished (shelf (some (clock drawn) :: rest)) condition)
      q (rest.countP Option.isSome + 1) q := by
    rw [← List.countP_cons_of_pos (p := Option.isSome) (a := some (clock drawn)) rfl]
    exact yields_count hpublished q
  have hcountBack (q : Progress) : Yields (countPublished (shelf (none :: rest)) condition) q
      (rest.countP Option.isSome) q := by
    rw [← List.countP_cons_of_neg (p := Option.isSome) (a := none) (by simp)]
    exact yields_count h q
  obtain ⟨w, hon, hready⟩ := hready.exists_publish none true
  obtain ⟨w', hoff, hready⟩ := Ready.exists_publish
    (p := { p with
      workspace := w
      lines := p.lines.push (.published "'Article 1'" (Value.timestamp (clock drawn)).sql
        (rest.countP Option.isSome + 1)) })
    hready (some (clock drawn)) false
  -- published, then a draft again, then restored, in the order of the parts of `revise`
  refine ⟨_, hon.bind <| (yields_attempt hupdate).bind <| (yields_title settings clock _ _).bind <|
    (hcount _).bind <| (yields_tell _ _).bind <| hoff.bind <| (yields_attempt hupdateBack).bind <|
    (yields_title settings clock _ _).bind <| (hcountBack _).bind <| (yields_tell _ _).bind <|
    (yields_attempt (restore_shelf h)).bind <| (yields_attempt load_first).bind <|
    (hcountBack _).bind <| (yields_title settings clock _ _).bind <| (yields_get _).bind <|
    (yields_attempt (hready.getFlag_article 1 none)).bind <| yields_tell _ _, ?_⟩
  simp [revisionLines]

end Revising

/-! ## The whole walkthrough -/

theorem toNat_max_one (n : UInt32) : (max n 1).toNat = max n.toNat 1 := by
  have hmax : max n 1 = if n ≤ 1 then 1 else n := rfl
  have hle : n ≤ 1 ↔ n.toNat ≤ 1 := UInt32.le_iff_toNat_le
  rw [hmax, Nat.max_def]
  by_cases h : n ≤ 1
  · rw [if_pos h, if_pos (hle.1 h)]
    rfl
  · rw [if_neg h, if_neg (mt hle.2 h)]

/-- The first article is a draft unless every article is published. -/
theorem seededDates_eq_cons {every : Nat} (h : every ≠ 1) (clock : Nat → Instant) (count : Nat) :
    ∃ rest, seededDates every clock (count + 1) = none :: rest := by
  have hfirst : seededDate every clock 0 = none := if_neg (mt Nat.dvd_one.1 h)
  rw [seededDates, List.range_succ_eq_map, List.map_cons, hfirst]
  exact ⟨_, rfl⟩

/-- If every article is published, there are no drafts. -/
theorem draftsFrom_seededDates (clock : Nat → Instant) (count : Nat) :
    draftsFrom 0 (seededDates 1 clock count) = [] := by
  refine draftsFrom_eq_nil ?_
  intro date hdate hnone
  obtain ⟨i, -, rfl⟩ := List.mem_map.1 hdate
  rw [seededDate, if_pos (Nat.one_dvd _)] at hnone
  cases hnone

section Tour

variable {settings : Settings} {clock : Nat → Instant}

/-- What is told of the drafts among so many articles, of which every `every`th is published. -/
def draftLines (clock : Nat → Instant) (articles every : Nat) : List Line :=
  if articles = 0 ∨ every = 1 then [.noDrafts]
  else revisionLines (34 + 26 * articles + digitsUpTo articles + 8 * (articles / every))
    (articles / every) (clock (articles / every))

/-- What the walkthrough does with the drafts that it finds. -/
theorem exists_yields_drafts (hclock : ∀ n, Instant.Storable (clock n).nanoseconds)
    {every count : Nat} (hroom : count < UInt32.size) {p : Progress}
    (hready : Ready settings clock (count / every) p.workspace) :
    ∃ q, Yields (match draftsFrom 0 (seededDates every clock count) with
        | [] => tell .noDrafts
        | (row, draft) :: _ => revise (articleModel settings clock) condition
          (shelf (seededDates every clock count)) row draft) p () q ∧
      q.lines.toList = p.lines.toList ++ draftLines clock count every := by
  unfold draftLines
  rcases count with _ | count
  · exact ⟨_, yields_tell p .noDrafts, by simp⟩
  · by_cases hevery : every = 1
    · subst hevery
      rw [draftsFrom_seededDates]
      exact ⟨_, yields_tell p .noDrafts, by simp⟩
    · obtain ⟨rest, hdates⟩ := seededDates_eq_cons hevery clock count
      have hshelf := shelvable_seededDates hclock every hroom
      have hpublished := countP_seededDates every clock (count + 1)
      have hbytes := length_snapshot_shelf (seededDates every clock (count + 1))
      rw [hpublished, length_seededDates] at hbytes
      rw [hdates] at hshelf hpublished hbytes ⊢
      rw [List.countP_cons_of_neg (by simp)] at hpublished
      obtain ⟨q, hyields, hlines⟩ := exists_yields_revise hshelf (hclock _) hready
      refine ⟨q, hyields, ?_⟩
      rw [if_neg (by simp [hevery]), hlines, hpublished, hbytes]

/-- The walkthrough tells the condition, what it seeded, and what it does with the first draft. -/
theorem run_eq (hclock : ∀ n, Instant.Storable (clock n).nanoseconds) {articles every : Nat}
    (harticles : articles = settings.articles.toNat)
    (hevery : every = max settings.publishEvery.toNat 1) :
    run settings clock =
      (.condition condition.sql :: .seeded articles (articles / every) ::
        draftLines clock articles every, none) := by
  have hroom : articles < UInt32.size := harticles ▸ settings.articles.toNat_lt
  rw [← toNat_max_one] at hevery
  have hshelf := shelvable_seededDates hclock every hroom
  obtain ⟨w, hmodel, hready⟩ := exists_yields_makeModel settings clock
  obtain ⟨w', hseed, hready⟩ := exists_yields_foldlM_seed
    (p := ⟨w, #[.condition condition.sql]⟩) hclock (max settings.publishEvery 1) hready hroom
  rw [← hevery] at hseed hready
  obtain ⟨q, hdrafts, hlines⟩ := exists_yields_drafts
    (p := ⟨w', #[.condition condition.sql, .seeded articles (articles / every)]⟩)
    hclock hroom hready
  have htour : Yields (tour settings clock) {} () q := by
    refine yields_makeTable.bind <| yields_mapArticles.bind <|
      (yields_makeFlag settings clock).bind <| hmodel.bind <|
      (yields_attempt (a := condition) rfl).bind <| (yields_tell _ _).bind <| ?_
    rw [← harticles]
    refine hseed.bind <| (yields_count hshelf _).bind <| (yields_tell _ _).bind <|
      (yields_attempt (filter_shelf hshelf)).bind ?_
    rw [size_shelf, length_seededDates, countP_seededDates]
    exact hdrafts
  unfold Yields at htour
  unfold run
  rw [htour]
  exact congrArg (·, none) hlines

end Tour

/-! ## The wording -/

theorem text_condition :
    (Line.condition condition.sql).text = "Flag predicate: article.published_at IS NOT NULL" := by
  decide +kernel

theorem text_published (time : String) (count : Nat) :
    (Line.published "'Article 1'" time count).text =
      s!"Published 'Article 1' at {time}; {count} published" := by
  have hstart : "Published " ++ "'Article 1'" ++ " at " = "Published 'Article 1' at " := by
    decide +kernel
  show "Published " ++ "'Article 1'" ++ " at " ++ time ++ "; " ++ toString count ++ " published" = _
  rw [hstart]
  rfl

theorem text_unpublished (count : Nat) :
    (Line.unpublished "'Article 1'" count).text =
      s!"Unpublished 'Article 1'; {count} published" := by
  have hstart : "Unpublished " ++ "'Article 1'" ++ "; " = "Unpublished 'Article 1'; " := by
    decide +kernel
  show "Unpublished " ++ "'Article 1'" ++ "; " ++ toString count ++ " published" = _
  rw [hstart]
  rfl

theorem text_restored (bytes count : Nat) :
    (Line.restored bytes count "'Article 1'" false).text =
      s!"Snapshot of {bytes} bytes restored; {count} published, 'Article 1' still a draft" := by
  have hend : " published, " ++ ("'Article 1'" ++ (" still " ++ "a draft")) =
      " published, 'Article 1' still a draft" := by
    decide +kernel
  show "Snapshot of " ++ toString bytes ++ " bytes restored; " ++ toString count ++
    " published, " ++ "'Article 1'" ++ " still " ++ "a draft" = _
  rw [String.append_assoc, String.append_assoc, String.append_assoc, hend]
  rfl

/-- Whatever the settings are, their arguments ask for the walkthrough, which succeeds and tells the
following: the condition and what was seeded, and then that there are no drafts, or how the first
draft was published, made a draft again and found in a snapshot, whose bytes are counted. How the
flag finds its attribute does not matter. -/
theorem run_texts (settings : Settings) (clock : Nat → Instant)
    (hclock : ∀ n, Instant.Storable (clock n).nanoseconds) :
    let articles := settings.articles.toNat
    let every := max settings.publishEvery.toNat 1
    let count := articles / every
    let bytes := 34 + 26 * articles + digitsUpTo articles + 8 * count
    CommandLine.read settings.arguments = .ok (.walkthrough settings) ∧
      exitCode (run settings clock).2 = 0 ∧
      (run settings clock).1.map Line.text =
        "Flag predicate: article.published_at IS NOT NULL" ::
        s!"Seeded {articles} articles, {count} published" ::
        if articles = 0 ∨ every = 1 then ["Every article is already published"]
        else
          [s!"Published 'Article 1' at {(Value.timestamp (clock count)).sql}; {count + 1} published",
            s!"Unpublished 'Article 1'; {count} published",
            s!"Snapshot of {bytes} bytes restored; {count} published, 'Article 1' still a draft"] := by
  intro articles every count bytes
  have hrun : run settings clock = _ := run_eq hclock rfl rfl
  refine ⟨settings.read_arguments, by rw [hrun]; rfl, ?_⟩
  rw [hrun, List.map_cons, List.map_cons, text_condition]
  congr 2
  unfold draftLines
  split
  · rfl
  · rw [revisionLines, List.map_cons, List.map_cons, List.map_singleton, text_published,
      text_unpublished, text_restored]

/-- Four articles, of which the third is published, and every name looked up anew. -/
def sampleSettings : Settings := { articles := 4, publishEvery := 3, onDemand := true }

/-- The middle of a leap second. -/
def sampleMoment : Instant := ⟨1341100799, 1500000000, by decide⟩

theorem run_texts_sampleSettings :
    (∀ _ : Nat, Instant.Storable sampleMoment.nanoseconds) ∧
      (run sampleSettings fun _ => sampleMoment).1.map Line.text =
        ["Flag predicate: article.published_at IS NOT NULL", "Seeded 4 articles, 1 published",
          "Published 'Article 1' at '2012-06-30 23:59:60.500'; 2 published",
          "Unpublished 'Article 1'; 1 published",
          "Snapshot of 150 bytes restored; 1 published, 'Article 1' still a draft"] := by
  have hclock : Instant.Storable sampleMoment.nanoseconds := by decide
  obtain ⟨-, -, htexts⟩ := run_texts sampleSettings (fun _ => sampleMoment) fun _ => hclock
  exact ⟨fun _ => hclock, htexts.trans (by decide +kernel)⟩

end RowFlags.Walkthrough
