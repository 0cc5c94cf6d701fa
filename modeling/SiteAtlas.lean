import SiteAtlas.Table
import SiteAtlas.Text.Utf8
import SiteAtlas.Text.Blank
import SiteAtlas.Text.Quoted
import SiteAtlas.Decimal.Layout
import SiteAtlas.Json.Printer
import SiteAtlas.Json.Reader
import SiteAtlas.Time.Instant
import SiteAtlas.Codec.Shape
import SiteAtlas.Wire.Request
import SiteAtlas.Error.ClientError
import SiteAtlas.Text.Record
import SiteAtlas.Page.NodeMatch
import SiteAtlas.Page.Path
import SiteAtlas.Page.Change
import SiteAtlas.Page.PageResult
import SiteAtlas.Service.Status
import SiteAtlas.Service.Session
import SiteAtlas.Service.Credentials
import SiteAtlas.Site.MapInfo
import SiteAtlas.Site.Compare
import SiteAtlas.Site.Params
import SiteAtlas.Client.Service
import SiteAtlas.Channel.Transport
import SiteAtlas.Channel.Socket
import SiteAtlas.Config.Settings
import SiteAtlas.Proofs.Accepted
import SiteAtlas.Proofs.Json.Numbers
import SiteAtlas.Proofs.Json.Strings
import SiteAtlas.Proofs.Json.RoundTrip
import SiteAtlas.Proofs.Json.Members
import SiteAtlas.Proofs.Codec.ReadBack
import SiteAtlas.Proofs.Codec.Record
import SiteAtlas.Proofs.Codec.ValueObjects
import SiteAtlas.Proofs.Wire.Framing
import SiteAtlas.Proofs.Wire.Envelope
import SiteAtlas.Proofs.Channel.Segments
import SiteAtlas.Proofs.Channel.Traffic
import SiteAtlas.Proofs.Channel.Ledger
import SiteAtlas.Proofs.Channel.Bookkeeping
import SiteAtlas.Proofs.Channel.History
import SiteAtlas.Proofs.Channel.TearDown
import SiteAtlas.Proofs.Site.Members
import SiteAtlas.Proofs.Client.Outcome
import SiteAtlas.Proofs.Client.Usage
import SiteAtlas.Proofs.Client.Batch
import SiteAtlas.Proofs.Time.Calendar
import SiteAtlas.Proofs.Time.Text
import SiteAtlas.Proofs.Codec.Timestamps
import SiteAtlas.Proofs.Wire.Request
import SiteAtlas.Proofs.Client.Secrets
import SiteAtlas.Proofs.Site.Domain
import SiteAtlas.Proofs.Site.Normalization
import SiteAtlas.Proofs.Table
import SiteAtlas.Proofs.Site.PageSet
import SiteAtlas.Proofs.Site.Comparison
import SiteAtlas.Proofs.Channel.Attempts
import SiteAtlas.Proofs.Channel.Course
import SiteAtlas.Proofs.Channel.Retry
import SiteAtlas.Proofs.Channel.Frames
import SiteAtlas.Proofs.Channel.Phases
import SiteAtlas.Proofs.Channel.Failure
import SiteAtlas.Proofs.Faults
import SiteAtlas.Proofs.Site.Query
import SiteAtlas.Proofs.Site.Params
import SiteAtlas.Proofs.Site.Address
import SiteAtlas.Proofs.Json.Numerals
import SiteAtlas.Proofs.Codec.Acceptance
import SiteAtlas.Proofs.Codec.Defaults
import SiteAtlas.Proofs.Page.Features
import SiteAtlas.Proofs.Codec.Integers
import SiteAtlas.Proofs.Client.Sequence
import SiteAtlas.Proofs.Page.Matches
import SiteAtlas.Proofs.Client.Answers
import SiteAtlas.Proofs.Client.Sessions
import SiteAtlas.Proofs.Client.Comparison
import SiteAtlas.Proofs.Channel.Reach
import SiteAtlas.Proofs.Client.Status
import SiteAtlas.Proofs.Config.Document
import SiteAtlas.Proofs.Config.Settings
import SiteAtlas.Proofs.Json.Locality
import SiteAtlas.Proofs.Json.Containers
import SiteAtlas.Proofs.Json.ObjectText
import SiteAtlas.Proofs.Wire.Response
import SiteAtlas.Proofs.Last
import SiteAtlas.Proofs.Page.Sparse
import SiteAtlas.Proofs.Config.Timeout
import SiteAtlas.Proofs.Site.Piece
import SiteAtlas.Proofs.Site.Clauses
