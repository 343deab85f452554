import EngineClient.Api.Answer
import EngineClient.Api.Connection
import EngineClient.Api.Error
import EngineClient.Api.Fault
import EngineClient.Api.Options
import EngineClient.Api.Report
import EngineClient.Api.Request
import EngineClient.Api.Root
import EngineClient.Api.Service
import EngineClient.Api.Settings
import EngineClient.Api.SignOn
import EngineClient.Api.State
import EngineClient.Api.Token
import EngineClient.Api.TokenCache
import EngineClient.Gzip.Code
import EngineClient.Gzip.Inflate
import EngineClient.Gzip.Member
import EngineClient.Http.Header
import EngineClient.Http.HeaderMap
import EngineClient.Http.RetryAfter
import EngineClient.Http.Status
import EngineClient.Http.Uri
import EngineClient.Json.Leaf
import EngineClient.Json.Number
import EngineClient.Json.Reader
import EngineClient.Json.Tree
import EngineClient.Pool
import EngineClient.Proofs.Accept.Basic
import EngineClient.Proofs.Accept.Connection
import EngineClient.Proofs.Accept.Gathered
import EngineClient.Proofs.Accept.Options
import EngineClient.Proofs.Accept.Roots
import EngineClient.Proofs.Acts
import EngineClient.Proofs.Alike
import EngineClient.Proofs.Alone.Event
import EngineClient.Proofs.Alone.Refusal
import EngineClient.Proofs.Alone.Renewal
import EngineClient.Proofs.Alone.Reuse
import EngineClient.Proofs.Alone.Send
import EngineClient.Proofs.Alone.Session
import EngineClient.Proofs.Alone.Token
import EngineClient.Proofs.Answer.Decided
import EngineClient.Proofs.Answer.Decoded
import EngineClient.Proofs.Answer.Numerals
import EngineClient.Proofs.Answer.Spellings
import EngineClient.Proofs.Answer.Surfaced
import EngineClient.Proofs.Answer.Withheld
import EngineClient.Proofs.Closed
import EngineClient.Proofs.Exchange.Body
import EngineClient.Proofs.Exchange.Calls
import EngineClient.Proofs.Exchange.Closing
import EngineClient.Proofs.Exchange.Course
import EngineClient.Proofs.Exchange.Kinds
import EngineClient.Proofs.Exchange.Outcome
import EngineClient.Proofs.Given.Calls
import EngineClient.Proofs.Given.Course
import EngineClient.Proofs.Given.Past
import EngineClient.Proofs.Given.Session
import EngineClient.Proofs.Headers.Defaults
import EngineClient.Proofs.Headers.Encoded
import EngineClient.Proofs.Headers.Grouped
import EngineClient.Proofs.Headers.Negotiated
import EngineClient.Proofs.Headers.Sources
import EngineClient.Proofs.Log
import EngineClient.Proofs.Outbound
import EngineClient.Proofs.Reach.Authority
import EngineClient.Proofs.Reach.Climb
import EngineClient.Proofs.Reach.Encrypted
import EngineClient.Proofs.Reach.Handed
import EngineClient.Proofs.Reach.Host
import EngineClient.Proofs.Reach.Link
import EngineClient.Proofs.Reach.Located
import EngineClient.Proofs.Reach.Origin
import EngineClient.Proofs.Reach.Parts
import EngineClient.Proofs.Reach.Root
import EngineClient.Proofs.Reach.Segments
import EngineClient.Proofs.Reach.Shown
import EngineClient.Proofs.Reach.Target
import EngineClient.Proofs.Reach.Unsplit
import EngineClient.Proofs.Reach.Usable
import EngineClient.Proofs.Report.Envelope
import EngineClient.Proofs.Report.Format
import EngineClient.Proofs.Report.Markup
import EngineClient.Proofs.Report.Nodes
import EngineClient.Proofs.Report.Objects
import EngineClient.Proofs.Report.Parts
import EngineClient.Proofs.Report.Rendered
import EngineClient.Proofs.Run
import EngineClient.Proofs.Secrecy.Answer
import EngineClient.Proofs.Secrecy.Calls
import EngineClient.Proofs.Secrecy.Document
import EngineClient.Proofs.Secrecy.Exchange
import EngineClient.Proofs.Secrecy.Literal
import EngineClient.Proofs.Secrecy.Log
import EngineClient.Proofs.Secrecy.Paired
import EngineClient.Proofs.Secrecy.Session
import EngineClient.Proofs.Secrecy.State
import EngineClient.Proofs.Sending
import EngineClient.Proofs.Steps
import EngineClient.Proofs.Text.Avoids
import EngineClient.Proofs.Text.Base64
import EngineClient.Proofs.Text.Decimal
import EngineClient.Proofs.Text.Form
import EngineClient.Proofs.Text.Utf8
import EngineClient.Proofs.Token.Account
import EngineClient.Proofs.Token.Calls
import EngineClient.Proofs.Token.Expiry
import EngineClient.Proofs.Token.Forms
import EngineClient.Proofs.Token.Freshness
import EngineClient.Proofs.Token.Invariant
import EngineClient.Proofs.Token.Move
import EngineClient.Proofs.Token.Revocation
import EngineClient.Proofs.Token.SingleFlight
import EngineClient.Proofs.Token.Together
import EngineClient.Secret
import EngineClient.Task
import EngineClient.Text.Ascii
import EngineClient.Text.Base64
import EngineClient.Text.Blank
import EngineClient.Text.Form
import EngineClient.Text.Percent
import EngineClient.Text.Quoted
import EngineClient.Text.Utf8
import EngineClient.Text.Visible
import EngineClient.Time.Calendar
import EngineClient.Time.HttpDate
import EngineClient.Time.Span
import EngineClient.Transport.Body
import EngineClient.Transport.Client
import EngineClient.Transport.Compression
import EngineClient.Transport.Defaults
import EngineClient.Transport.Draft
import EngineClient.Transport.Error
import EngineClient.Transport.Failure
import EngineClient.Transport.Log
import EngineClient.Transport.Network
import EngineClient.Transport.Settings
import EngineClient.Trust.Certificate
import EngineClient.Trust.Pem
import EngineClient.Trust.Store
import EngineClient.Url.Address
import EngineClient.Url.Basic
import EngineClient.Url.Host
import EngineClient.Url.Path
import EngineClient.Xml.Event
import EngineClient.Xml.Token
