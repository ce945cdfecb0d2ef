import Typeahead.Json.Reader
import Typeahead.Json.Writer
import Typeahead.Schema.FlagDocument
import Typeahead.Schema.Survey
import Typeahead.Completion.Basic
import Typeahead.Acceptance.Basic
import Typeahead.Settings.Environment
import Typeahead.Store.Run
import Typeahead.Sampling.Sampler
import Typeahead.Http.Response
import Typeahead.TextBox
import Typeahead.Proofs.Selector.Balanced
import Typeahead.Proofs.Selector.Outline
import Typeahead.Proofs.Selector.Written
import Typeahead.Proofs.Selector.Chunk
import Typeahead.Proofs.Selector.Reading
import Typeahead.Proofs.Selector.RoundTrip
import Typeahead.Proofs.Selector.Context
import Typeahead.Proofs.Selector.Unclosed
import Typeahead.Proofs.Selector.Extent
import Typeahead.Proofs.Selector.Walk
import Typeahead.Proofs.Acceptance.Places
import Typeahead.Proofs.Body.Braces
import Typeahead.Proofs.Selector.Cursor
import Typeahead.Proofs.Selector.Descent
import Typeahead.Proofs.Selector.Site
import Typeahead.Proofs.Acceptance.Spelling
import Typeahead.Proofs.Selector.Typed
import Typeahead.Proofs.Acceptance.Adding
import Typeahead.Proofs.Acceptance.KeptFocus
import Typeahead.Proofs.Store.Flights
import Typeahead.Proofs.Store.Availability
import Typeahead.Proofs.Acceptance.Values
import Typeahead.Proofs.Selector.Paths
import Typeahead.Proofs.Acceptance.Containers
import Typeahead.Proofs.Acceptance.Appending
import Typeahead.Proofs.Schema.Sighting
import Typeahead.Proofs.Schema.Record
import Typeahead.Proofs.Schema.Knowledge
import Typeahead.Proofs.Entries
import Typeahead.Proofs.Schema.Finish
import Typeahead.Proofs.Decimal.Normal
import Typeahead.Proofs.Schema.Nullability
import Typeahead.Proofs.Decimal.Exactness
import Typeahead.Proofs.Schema.Listing
import Typeahead.Proofs.Schema.SampleOrder
import Typeahead.Proofs.Selector.Keys
import Typeahead.Proofs.Selector.Origin
import Typeahead.Proofs.Selector.Pieces
import Typeahead.Proofs.Selector.Relocation
import Typeahead.Proofs.Store.Provenance
import Typeahead.Proofs.Decimal.Order
import Typeahead.Proofs.Fuzzy.Columns
import Typeahead.Proofs.Store.Separation
import Typeahead.Proofs.Fuzzy.Sharing
import Typeahead.Proofs.Fuzzy.Search
import Typeahead.Proofs.Completion.Totality
import Typeahead.Proofs.Selector.Caretless
import Typeahead.Proofs.Selector.Pointing
import Typeahead.Proofs.Selector.Forms
import Typeahead.Proofs.Acceptance.ReadBack
import Typeahead.Proofs.Completion.Fields
import Typeahead.Proofs.Schema.Paths
import Typeahead.Proofs.Fuzzy.Edits
import Typeahead.Proofs.Fuzzy.Table
import Typeahead.Proofs.Fuzzy.Ways
import Typeahead.Proofs.Fuzzy.Cheapest
import Typeahead.Proofs.Fuzzy.WalkBack
import Typeahead.Proofs.Fuzzy.Highlight
import Typeahead.Proofs.Trigram.Counts
import Typeahead.Proofs.Trigram.Postings
import Typeahead.Proofs.Trigram.Search
import Typeahead.Proofs.Completion.Typing
import Typeahead.Proofs.Fuzzy.Beginnings
import Typeahead.Proofs.Schema.Enumeration
import Typeahead.Proofs.Selector.Enclosure
import Typeahead.Proofs.Selector.OutsideCaret
import Typeahead.Proofs.Store.Abandonment
import Typeahead.Proofs.Schema.FlagReading
import Typeahead.Proofs.Schema.Linking
import Typeahead.Proofs.Schema.Throughout
import Typeahead.Proofs.Schema.FlagForm
import Typeahead.Proofs.Sampling.Budget
import Typeahead.Proofs.Selector.Nesting
import Typeahead.Proofs.Selector.Surrounding
import Typeahead.Proofs.Selector.Escapes
import Typeahead.Proofs.Text.Pattern
import Typeahead.Proofs.Acceptance.Trimming
import Typeahead.Proofs.Completion.Values
import Typeahead.Proofs.Acceptance.Offers
import Typeahead.Proofs.Selector.Halting
import Typeahead.Proofs.Sampling.Clients
import Typeahead.Proofs.Sampling.Faults
import Typeahead.Proofs.Selector.Gaps
import Typeahead.Proofs.Completion.UsedNames
import Typeahead.Proofs.Schema.Correspondence
