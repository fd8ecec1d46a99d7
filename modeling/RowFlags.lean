import RowFlags.Main
import RowFlags.Model
import RowFlags.Store.Query
import RowFlags.Store.Snapshot
import RowFlags.Walkthrough
import RowFlags.Proofs.Expression.Interpretation
import RowFlags.Proofs.Outcome
import RowFlags.Proofs.Expression.Compilation
import RowFlags.Proofs.Stored.Bitmap
import RowFlags.Proofs.Stored.Grammar
import RowFlags.Proofs.Stored.Canonical
import RowFlags.Proofs.Mapping.WellFormed
import RowFlags.Proofs.Naming.Recording
import RowFlags.Proofs.Session.Basic
import RowFlags.Proofs.Session.Sound
import RowFlags.Proofs.Session.Built
import RowFlags.Proofs.Store.Object
import RowFlags.Proofs.Store.History
import RowFlags.Proofs.Store.Agreement
import RowFlags.Proofs.Store.Effects
import RowFlags.Proofs.Expression.Presence
import RowFlags.Proofs.Expression.Renaming
import RowFlags.Proofs.Stored.Snapshot
import RowFlags.Proofs.Naming.Prefetch
import RowFlags.Proofs.Store.Restore
import RowFlags.Proofs.Expression.Elaboration
import RowFlags.Proofs.Mapping.Coverage
import RowFlags.Proofs.Session.Held
import RowFlags.Proofs.Store.Exchange
import RowFlags.Proofs.Store.Typed
import RowFlags.Proofs.Expression.Quoting
import RowFlags.Proofs.Session.Creations
import RowFlags.Proofs.Store.Inherited
import RowFlags.Proofs.Walkthrough.Articles
import RowFlags.Proofs.Walkthrough.Tour
import RowFlags.Proofs.Walkthrough.Arguments
import RowFlags.Proofs.Session.Identified
import RowFlags.Proofs.Store.Revision
import RowFlags.Proofs.Store.Damage
import RowFlags.Proofs.Store.Isolation
import RowFlags.Proofs.Expression.Refusals
import RowFlags.Proofs.Expression.Lookups
import RowFlags.Proofs.Expression.Depth
import RowFlags.Proofs.Store.Queries
import RowFlags.Proofs.Expression.Flattening
import RowFlags.Proofs.Expression.Rephrasing
import RowFlags.Proofs.Session.Assignments
import RowFlags.Proofs.Flag.Reading
import RowFlags.Proofs.Model.Creating
import RowFlags.Proofs.Model.Usable
import RowFlags.Proofs.Store.Splitting
import RowFlags.Proofs.Expression.Exactness
import RowFlags.Proofs.Expression.Membership
import RowFlags.Proofs.Stored.Writing
import RowFlags.Proofs.Naming.Registration
import RowFlags.Proofs.Naming.Uniqueness
import RowFlags.Proofs.Expression.Origins
import RowFlags.Proofs.Text.Pieces
import RowFlags.Proofs.Expression.Pieces
import RowFlags.Proofs.Expression.Dashes
import RowFlags.Proofs.Text.Words
import RowFlags.Proofs.Expression.Operands
import RowFlags.Proofs.Value.Order
import RowFlags.Proofs.Expression.Comparison
