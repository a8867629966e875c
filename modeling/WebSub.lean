import WebSub.Delivery.Event
import WebSub.Delivery.Pipeline
import WebSub.Digest.Hmac
import WebSub.Digest.Sha1
import WebSub.Digest.Sha256
import WebSub.Feed.Decoder
import WebSub.Feed.Notification
import WebSub.Flow.Basic
import WebSub.Flow.Request
import WebSub.Http.Answer
import WebSub.Http.Endpoint
import WebSub.Http.Exchange
import WebSub.Http.MediaType
import WebSub.Http.Message
import WebSub.Http.Router
import WebSub.Http.Status
import WebSub.Hub.Client
import WebSub.Hub.Protocol
import WebSub.Json.Basic
import WebSub.Json.Lexer
import WebSub.Json.Reader
import WebSub.Json.Record
import WebSub.LogFilter
import WebSub.Markup.Attribute
import WebSub.Markup.Error
import WebSub.Markup.Event
import WebSub.Markup.Reader
import WebSub.Markup.Reference
import WebSub.Metrics
import WebSub.Proofs.Delivery.AtMostOnce
import WebSub.Proofs.Delivery.AuditTrail
import WebSub.Proofs.Delivery.Signature
import WebSub.Proofs.Feed.Decoding
import WebSub.Proofs.Feed.EmptyElement
import WebSub.Proofs.Feed.FirstEntry
import WebSub.Proofs.Feed.Invariant
import WebSub.Proofs.Feed.Truncation
import WebSub.Proofs.Http.Acknowledgement
import WebSub.Proofs.Http.Handshake
import WebSub.Proofs.Http.Listing
import WebSub.Proofs.Hub.Form
import WebSub.Proofs.Hub.Outcome
import WebSub.Proofs.Interleaving.Run
import WebSub.Proofs.Interleaving.Shared
import WebSub.Proofs.Interleaving.Upheld
import WebSub.Proofs.Settings.Layers
import WebSub.Proofs.Store.AppendOnly
import WebSub.Proofs.Store.Due
import WebSub.Proofs.Store.Interchange
import WebSub.Proofs.Store.Lapsing
import WebSub.Proofs.Store.Paging
import WebSub.Proofs.Store.Selection
import WebSub.Proofs.Subscription.Copies
import WebSub.Proofs.Subscription.Expiry
import WebSub.Proofs.Subscription.LastWrite
import WebSub.Proofs.Subscription.Lease
import WebSub.Proofs.Subscription.Lifecycle
import WebSub.Proofs.Subscription.NamedLease
import WebSub.Proofs.Subscription.Renewability
import WebSub.Proofs.Subscription.Secrets
import WebSub.Proofs.Subscription.Unsubscribing
import WebSub.Proofs.Subscription.Verification
import WebSub.Proofs.Sweep.Background
import WebSub.Proofs.Sweep.Exclusion
import WebSub.Proofs.Sweep.Faults
import WebSub.Proofs.Sweep.Isolation
import WebSub.Proofs.Sweep.Rotation
import WebSub.Proofs.Sweep.Shutdown
import WebSub.Service.Basic
import WebSub.Service.Subscriptions
import WebSub.Settings.Basic
import WebSub.Settings.Error
import WebSub.Settings.Load
import WebSub.Settings.Node
import WebSub.Settings.Path
import WebSub.Settings.Reader
import WebSub.Settings.Source
import WebSub.Signature
import WebSub.Simulation.Run
import WebSub.Simulation.Script
import WebSub.Simulation.Session
import WebSub.Simulation.World
import WebSub.Store.Backend
import WebSub.Store.Call
import WebSub.Store.EventTable
import WebSub.Store.Memory
import WebSub.Store.Schema
import WebSub.Store.SubscriptionTable
import WebSub.Subscription.Basic
import WebSub.Subscription.Input
import WebSub.Subscription.Status
import WebSub.Sweep.Basic
import WebSub.Sweep.Report
import WebSub.Sweep.Ticker
import WebSub.Text.Base64
import WebSub.Text.Binary64
import WebSub.Text.Blank
import WebSub.Text.Charset
import WebSub.Text.Decimal
import WebSub.Text.Form
import WebSub.Text.Hex
import WebSub.Text.Lowercase
import WebSub.Text.Percent
import WebSub.Text.Printable
import WebSub.Text.Quoted
import WebSub.Text.Shortest
import WebSub.Text.SocketAddress
import WebSub.Text.Utf8
import WebSub.Text.Uuid
import WebSub.Time.Calendar
import WebSub.Time.Instant
import WebSub.Time.Stamp
import WebSub.Toml.Lexer
import WebSub.Toml.Moment
import WebSub.Toml.Reader
import WebSub.Toml.Value
import WebSub.Topic
import WebSub.Url.Basic
import WebSub.Url.Host
import WebSub.Url.Punycode
import WebSub.Url.Reader
import WebSub.Url.Reference
