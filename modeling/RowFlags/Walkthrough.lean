import RowFlags.CommandLine
import RowFlags.Model
import RowFlags.Store.Query
import RowFlags.Store.Snapshot

/-!
# The walkthrough

A tour of flags on one example: articles are published when they have a publication date. Articles
are seeded, some of them published; then the first draft is published, unpublished, and found again
in a restored copy of the store. What the walkthrough tells is a list of lines; a failure ends it
after the lines told so far.
-/

set_option autoImplicit false

namespace RowFlags.Walkthrough

open CommandLine (Settings)

/-- What the walkthrough tells. -/
inductive Line where
  | condition (sql : String)
  | seeded (articles count : Nat)
  | noDrafts
  | published (title time : String) (count : Nat)
  | unpublished (title : String) (count : Nat)
  | restored (bytes count : Nat) (title : String) (isPublished : Bool)

/-- The wording of a line. -/
def Line.text : Line → String
  | .condition sql => "Flag predicate: " ++ sql
  | .seeded articles count => s!"Seeded {articles} articles, {count} published"
  | .noDrafts => "Every article is already published"
  | .published title time count => s!"Published {title} at {time}; {count} published"
  | .unpublished title count => s!"Unpublished {title}; {count} published"
  | .restored bytes count title isPublished =>
    let state := if isPublished then "published" else "a draft"
    s!"Snapshot of {bytes} bytes restored; {count} published, {title} still {state}"

/-- Why the walkthrough ends early. -/
inductive Failure where
  | catalog (e : CatalogError)
  | flag (e : FlagError)
  | store (e : StoreError)
  /-- An article has no publication date to show. -/
  | undated
  deriving DecidableEq

/-- The wording of a failure. -/
def Failure.message : Failure → String
  | .catalog e => e.message
  | .flag e => e.message
  | .store e => e.message
  | .undated => "Article has no publication date"

/-- The workspace as it is now, and the lines told so far. -/
structure Progress where
  workspace : Workspace := {}
  lines : Array Line := #[]

/-- A part of the walkthrough. -/
abbrev Part := ExceptT Failure (StateM Progress)

/-- Tells a line. -/
def tell (line : Line) : Part Unit := modify fun p => { p with lines := p.lines.push line }

/-- Makes something in the workspace. -/
def make {ε α : Type} (failure : ε → Failure) (f : Workspace → Except ε (α × Workspace)) :
    Part α := do
  match f (← get).workspace with
  | .error e => throw (failure e)
  | .ok (a, workspace) =>
    modify fun p => { p with workspace }
    return a

/-- Does something that can change the workspace even by failing. -/
def act {ε α : Type} (failure : ε → Failure) (f : Workspace → Except ε α × Workspace) :
    Part α := do
  let (result, workspace) := f (← get).workspace
  modify fun p => { p with workspace }
  match result with
  | .error e => throw (failure e)
  | .ok a => return a

/-- Something that leaves the workspace alone. -/
def attempt {ε α : Type} (failure : ε → Failure) : Except ε α → Part α
  | .error e => throw (failure e)
  | .ok a => return a

/-- The name of the catalog. -/
def catalogName : String := "main"

/-- The name of the flag that tells published articles from drafts. -/
def flagName : String := "is_published"

/-- The attribute that holds when an article was published. -/
def dateName : String := "publication_date"

/-- Declares the table of articles. -/
def makeTable : Part Table :=
  make Failure.catalog fun w => w.createTable catalogName "article"
    [⟨"id", .int32⟩, ⟨"title", .varchar⟩, ⟨"published_at", .timestamp⟩]

/-- Maps the class of articles. -/
def mapArticles (t : Table) : Part Mapping :=
  act Failure.catalog fun w => w.mapClass catalogName
    (({ className := "Article", table := t : Draft }.mapColumn "id").mapColumn "title"
      |>.mapAs dateName "published_at")

/-- Makes the flag over the publication date; the clock gives the date of each publication. -/
def makeFlag (settings : Settings) (clock : Nat → Instant) (t : Table) : Part Flag := do
  let date ← attempt Failure.catalog (t.column "published_at")
  make Failure.flag fun w => w.makeFlag
    { condition := .column date
      default := some (.producer fun drawn => .timestamp (clock drawn))
      strategy := if settings.onDemand then .onDemand (.catalog catalogName) else .prefetched }

/-- Makes the model of articles with their flag. -/
def makeModel (m : Mapping) (f : Flag) : Part Model :=
  act Failure.flag fun w =>
    Model.build m (NameMap.ofList [(flagName, f)]) (w.catalog catalogName).directory w

/-- Adds the article of a number, published if the number is a multiple of `every`. -/
def seed (model : Model) (every : UInt32) (s : Store) (number : UInt32) : Part Store := do
  let article ← act Failure.flag fun w => model.create w
    [("id", .int32 number.toInt32),
     ("title", .string s!"Article {number.toNat}"),
     (flagName, .boolean (number % every = 0))]
  let (_, s) ← attempt Failure.store (s.insert model.mapping article)
  return s

/-- How many of the stored articles are published. -/
def countPublished (s : Store) (condition : Expr) : Part Nat :=
  attempt Failure.store (s.count condition)

/-- The title of an article, as a literal. -/
def title (model : Model) (article : Record) : Part String := do
  let value ← attempt Failure.flag (Model.read (← get).workspace model article "title")
  return value.sql

/-- Publishes an article or makes it a draft again. -/
def publish (model : Model) (article : Record) (on : Bool) : Part Record :=
  act Failure.flag fun w => model.write w article flagName (.boolean on)

/-- Publishes the draft in a row, makes it a draft again, and finds it in a restored copy. -/
def revise (model : Model) (condition : Expr) (s : Store) (row : RowId) (draft : Record) :
    Part Unit := do
  let draft ← publish model draft true
  let s ← attempt Failure.store (s.update model.mapping row draft)
  let shownTitle ← title model draft
  let some date := draft.attribute? dateName | throw .undated
  tell (.published shownTitle date.sql (← countPublished s condition))
  let draft ← publish model draft false
  let s ← attempt Failure.store (s.update model.mapping row draft)
  let shownTitle ← title model draft
  tell (.unpublished shownTitle (← countPublished s condition))
  let bytes := s.snapshot
  let copy ← attempt Failure.store (Store.restore s.table bytes)
  let reloaded ← attempt Failure.store (copy.load model.mapping row)
  let count ← countPublished copy condition
  let shownTitle ← title model reloaded
  let isPublished ← attempt Failure.flag (model.getFlag (← get).workspace reloaded flagName)
  tell (.restored bytes.length count shownTitle isPublished)

/-- The whole walkthrough. -/
def tour (settings : Settings) (clock : Nat → Instant) : Part Unit := do
  let table ← makeTable
  let mapping ← mapArticles table
  let model ← makeModel mapping (← makeFlag settings clock table)
  let condition ← attempt Failure.flag (model.predicate flagName)
  tell (.condition condition.sql)
  let every := max settings.publishEvery 1
  let numbers := (List.range settings.articles.toNat).map fun k => UInt32.ofNat (k + 1)
  let s ← numbers.foldlM (seed model every) (Store.empty table)
  tell (.seeded s.size (← countPublished s condition))
  match ← attempt Failure.store (s.filter model.mapping condition.not) with
  | [] => tell .noDrafts
  | (row, draft) :: _ => revise model condition s row draft

/-- The lines that the walkthrough tells, and the failure that ends it early, if one does. -/
def run (settings : Settings) (clock : Nat → Instant) : List Line × Option Failure :=
  match (tour settings clock).run.run {} with
  | (.ok (), progress) => (progress.lines.toList, none)
  | (.error e, progress) => (progress.lines.toList, some e)

/-- The exit code of the walkthrough: 1 if it ended early. -/
def exitCode (failure : Option Failure) : UInt32 := if failure.isSome then 1 else 0

end RowFlags.Walkthrough
