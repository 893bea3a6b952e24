import Badging.Award
import Badging.Badge.Basic
import Badging.Badge.Expiry
import Badging.Badge.Status
import Badging.Console.Command
import Badging.Console.Demonstration
import Badging.Console.Grammar
import Badging.Console.LogFilter
import Badging.Console.Outcome
import Badging.Console.Surroundings
import Badging.Console.Trouble
import Badging.Criterion.Kind
import Badging.Criterion.Method
import Badging.Criterion.Reading
import Badging.Criterion.Rendering
import Badging.Criterion.Tag
import Badging.Definition
import Badging.Document.Badge
import Badging.Document.Basic
import Badging.Document.Criterion
import Badging.Document.Definition
import Badging.Document.Facts
import Badging.Document.Review
import Badging.Document.Tables
import Badging.Facts.Export
import Badging.Facts.Query
import Badging.Facts.Snapshot
import Badging.Ident
import Badging.Json.Decoding
import Badging.Json.Printing
import Badging.Json.Reading
import Badging.Json.Token
import Badging.Json.Value
import Badging.Main
import Badging.Number.Binary64
import Badging.Number.Decimal
import Badging.Number.Integer
import Badging.Pattern.Piece
import Badging.Pattern.Scan
import Badging.Proofs.Award.Expiring
import Badging.Proofs.Award.Justified
import Badging.Proofs.Award.Once
import Badging.Proofs.Criterion.Acceptance
import Badging.Proofs.Criterion.Blame
import Badging.Proofs.Criterion.Canonical
import Badging.Proofs.Criterion.Grammar
import Badging.Proofs.Criterion.Lazy
import Badging.Proofs.Criterion.Meaning
import Badging.Proofs.Criterion.Naming
import Badging.Proofs.Criterion.Reading
import Badging.Proofs.Criterion.RoundTrip
import Badging.Proofs.Criterion.Stopping
import Badging.Proofs.Criterion.Values
import Badging.Proofs.Criterion.Writing
import Badging.Proofs.Definition.Creation
import Badging.Proofs.Definition.Import
import Badging.Proofs.Definition.Validity
import Badging.Proofs.Document.Codec
import Badging.Proofs.Document.Parts
import Badging.Proofs.Document.ReadBack
import Badging.Proofs.Except
import Badging.Proofs.Facts.Import
import Badging.Proofs.Facts.Loading
import Badging.Proofs.Facts.Merge
import Badging.Proofs.History
import Badging.Proofs.Json.ReadBack
import Badging.Proofs.Json.Scanning
import Badging.Proofs.Life.Chronicle
import Badging.Proofs.Life.Complete
import Badging.Proofs.Life.Law
import Badging.Proofs.Life.Locked
import Badging.Proofs.Number.ReadBack
import Badging.Proofs.Number.Rounding
import Badging.Proofs.Register
import Badging.Proofs.Review.Account
import Badging.Proofs.Review.Advance
import Badging.Proofs.Review.Again
import Badging.Proofs.Review.Carry
import Badging.Proofs.Review.Carrying
import Badging.Proofs.Review.Check
import Badging.Proofs.Review.Complaint
import Badging.Proofs.Review.Consulting
import Badging.Proofs.Review.Counting
import Badging.Proofs.Review.Course
import Badging.Proofs.Review.Decision
import Badging.Proofs.Review.Demand
import Badging.Proofs.Review.Dominating
import Badging.Proofs.Review.Effect
import Badging.Proofs.Review.Extent
import Badging.Proofs.Review.Failing
import Badging.Proofs.Review.Isolation
import Badging.Proofs.Review.Locking
import Badging.Proofs.Review.Meaning
import Badging.Proofs.Review.Monotone
import Badging.Proofs.Review.Order
import Badging.Proofs.Review.Passing
import Badging.Proofs.Review.Progressing
import Badging.Proofs.Review.Relocking
import Badging.Proofs.Review.Repeat
import Badging.Proofs.Review.Resolving
import Badging.Proofs.Review.Reviewing
import Badging.Proofs.Review.Selection
import Badging.Proofs.Review.Verdict
import Badging.Proofs.Review.View
import Badging.Proofs.Review.View.Ledger
import Badging.Proofs.Review.View.Tables
import Badging.Proofs.Run.Ends
import Badging.Proofs.Run.Triple
import Badging.Proofs.Service
import Badging.Proofs.Store.Answer
import Badging.Proofs.Store.Catalog
import Badging.Proofs.Store.Faithful
import Badging.Proofs.Store.Identities
import Badging.Proofs.Store.Ledger.Effect
import Badging.Proofs.Store.Ledger.Sound
import Badging.Proofs.Store.Lookup
import Badging.Proofs.Store.Mirror
import Badging.Proofs.Store.Path
import Badging.Proofs.Store.Recorded
import Badging.Proofs.Store.Refinement
import Badging.Proofs.Store.Removal
import Badging.Proofs.Store.Rows
import Badging.Proofs.Store.Stored
import Badging.Proofs.Store.Tables.Effect
import Badging.Proofs.Store.Tables.Rows
import Badging.Proofs.Text.Delimited
import Badging.Proofs.Time.Calendar
import Badging.Proofs.Time.ReadBack
import Badging.Register
import Badging.Review.Learner
import Badging.Review.Pass
import Badging.Review.Progress
import Badging.Review.Verdict
import Badging.Run
import Badging.Settings
import Badging.Settings.File
import Badging.Store.Database
import Badging.Store.Ledger
import Badging.Store.Location
import Badging.Store.Operation
import Badging.Store.Tables
import Badging.Text.Blank
import Badging.Text.Bytes
import Badging.Text.Case
import Badging.Text.Delimited
import Badging.Text.Letter
import Badging.Text.Pieces
import Badging.Time.Calendar
import Badging.Time.Instant
import Badging.Time.Reading
import Badging.Time.Writing
import Badging.Token
