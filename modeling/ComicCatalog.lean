import ComicCatalog.Catalog.Annotation
import ComicCatalog.Catalog.Listing
import ComicCatalog.Catalog.Matching
import ComicCatalog.Catalog.Search
import ComicCatalog.Json.Reader
import ComicCatalog.Json.Value
import ComicCatalog.Json.Writer
import ComicCatalog.Lookup.Counter
import ComicCatalog.Lookup.Program
import ComicCatalog.Lookup.Source
import ComicCatalog.Main
import ComicCatalog.Net.Address
import ComicCatalog.Net.Message
import ComicCatalog.Number.Binary64
import ComicCatalog.Number.Layout
import ComicCatalog.Number.Shortest
import ComicCatalog.Proofs.Catalog.Accounting
import ComicCatalog.Proofs.Catalog.Annotation
import ComicCatalog.Proofs.Catalog.Artists
import ComicCatalog.Proofs.Catalog.Asking
import ComicCatalog.Proofs.Catalog.Composition
import ComicCatalog.Proofs.Catalog.Display
import ComicCatalog.Proofs.Catalog.Failures
import ComicCatalog.Proofs.Catalog.Filtering
import ComicCatalog.Proofs.Catalog.Identifiers
import ComicCatalog.Proofs.Catalog.Items
import ComicCatalog.Proofs.Catalog.Listing
import ComicCatalog.Proofs.Catalog.Matching
import ComicCatalog.Proofs.Catalog.Paging
import ComicCatalog.Proofs.Catalog.Repeats
import ComicCatalog.Proofs.Catalog.Search
import ComicCatalog.Proofs.Catalog.Selects
import ComicCatalog.Proofs.Catalog.Semantics
import ComicCatalog.Proofs.Catalog.ShortCircuits
import ComicCatalog.Proofs.Catalog.Titles
import ComicCatalog.Proofs.Catalog.ValueSets
import ComicCatalog.Proofs.Catalog.Visits
import ComicCatalog.Proofs.Lookup.Among
import ComicCatalog.Proofs.Lookup.Answered
import ComicCatalog.Proofs.Lookup.Courses
import ComicCatalog.Proofs.Lookup.Failures
import ComicCatalog.Proofs.Lookup.Outcome
import ComicCatalog.Proofs.Lookup.Splitting
import ComicCatalog.Proofs.Named
import ComicCatalog.Proofs.Number.ReadBack
import ComicCatalog.Proofs.Number.Rounding
import ComicCatalog.Proofs.Number.Shortest
import ComicCatalog.Proofs.Query.Casing
import ComicCatalog.Proofs.Query.Normal
import ComicCatalog.Proofs.Query.Segments
import ComicCatalog.Proofs.Query.Terms
import ComicCatalog.Proofs.Query.Writing
import ComicCatalog.Proofs.Relay.Chains
import ComicCatalog.Proofs.Settings.Agreement
import ComicCatalog.Proofs.Settings.Environment
import ComicCatalog.Proofs.Settings.Fields
import ComicCatalog.Proofs.Settings.Layers
import ComicCatalog.Proofs.Settings.Loading
import ComicCatalog.Proofs.Settings.Numerals
import ComicCatalog.Proofs.Settings.Overrides
import ComicCatalog.Proofs.Settings.Spelling
import ComicCatalog.Proofs.Store.Answers
import ComicCatalog.Proofs.Store.Cells
import ComicCatalog.Proofs.Store.Equality
import ComicCatalog.Proofs.Store.Integrity
import ComicCatalog.Proofs.Store.Numerals
import ComicCatalog.Proofs.Store.Patterns
import ComicCatalog.Proofs.Store.Reading
import ComicCatalog.Proofs.Store.Sorting
import ComicCatalog.Proofs.Store.Soundness
import ComicCatalog.Proofs.Store.Statements
import ComicCatalog.Proofs.Store.Substrings
import ComicCatalog.Proofs.Store.Ties
import ComicCatalog.Proofs.Text.Bytes
import ComicCatalog.Proofs.Text.Folding
import ComicCatalog.Proofs.Text.Places
import ComicCatalog.Proofs.Text.Runs
import ComicCatalog.Proofs.Toml.Names
import ComicCatalog.Proofs.Web.Grants
import ComicCatalog.Proofs.Web.Images
import ComicCatalog.Proofs.Web.Labels
import ComicCatalog.Proofs.Web.Pages
import ComicCatalog.Proofs.Web.Parameters
import ComicCatalog.Proofs.Web.Requests
import ComicCatalog.Proofs.Web.Startup
import ComicCatalog.Proofs.Work.Candidates
import ComicCatalog.Proofs.Work.Combining
import ComicCatalog.Proofs.Work.Spellings
import ComicCatalog.Query.Criteria
import ComicCatalog.Query.Field
import ComicCatalog.Query.Term
import ComicCatalog.Relay.Client
import ComicCatalog.Relay.Peer
import ComicCatalog.Settings.Basic
import ComicCatalog.Settings.Json
import ComicCatalog.Settings.Loading
import ComicCatalog.Settings.Reading
import ComicCatalog.Settings.Tree
import ComicCatalog.Settings.Variables
import ComicCatalog.Store.Answer
import ComicCatalog.Store.Cell
import ComicCatalog.Store.Database
import ComicCatalog.Store.Error
import ComicCatalog.Store.File
import ComicCatalog.Store.Pattern
import ComicCatalog.Store.Sample
import ComicCatalog.Store.Select
import ComicCatalog.Store.Statement
import ComicCatalog.Store.Table
import ComicCatalog.Text.Basic
import ComicCatalog.Text.Bytes
import ComicCatalog.Text.CaseTable
import ComicCatalog.Text.Fold
import ComicCatalog.Text.Quoted
import ComicCatalog.Toml.Document
import ComicCatalog.Toml.Node
import ComicCatalog.Toml.Scalar
import ComicCatalog.Toml.Text
import ComicCatalog.Toml.Value
import ComicCatalog.Url.Basic
import ComicCatalog.Url.Bootstring
import ComicCatalog.Url.Escape
import ComicCatalog.Url.Host
import ComicCatalog.Url.Reading
import ComicCatalog.Web.Metrics
import ComicCatalog.Web.Request
import ComicCatalog.Web.Service
import ComicCatalog.Web.Startup
import ComicCatalog.Work.Candidates
import ComicCatalog.Work.Entry
import ComicCatalog.Work.Ident
