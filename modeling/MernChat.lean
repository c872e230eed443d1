import MernChat.Library.Transition
import MernChat.Library.Transaction
import MernChat.Library.Table
import MernChat.Library.Log
import MernChat.Library.Keyset
import MernChat.Library.Arrivals
import MernChat.Library.SortedSet
import MernChat.Library.WindowCounter
import MernChat.Library.Feed
import MernChat.Library.Pattern
import MernChat.Library.InsertionMap
import MernChat.Library.Pool
import MernChat.Library.Linearization
import MernChat.Runtime.Text
import MernChat.Runtime.Uuid
import MernChat.Runtime.Clock
import MernChat.Runtime.IsoDate
import MernChat.Runtime.Postgres
import MernChat.Runtime.Encoding
import MernChat.Runtime.PercentEncoding
import MernChat.Runtime.Json
import MernChat.Runtime.JsonText
import MernChat.Events.Contracts
import MernChat.Outbox.Row
import MernChat.Outbox.Repository
import MernChat.Outbox.Prefix
import MernChat.Outbox.Lifecycle
import MernChat.Outbox.Publisher
import MernChat.Outbox.Batch
import MernChat.Outbox.Drain
import MernChat.Outbox.Poll
import MernChat.Outbox.System
import MernChat.Outbox.Invariants
import MernChat.Outbox.Delivery
import MernChat.Outbox.Attempts
import MernChat.Outbox.DeadLetter
import MernChat.Outbox.Lease
import MernChat.Outbox.Ordering
import MernChat.Chat.Errors
import MernChat.Chat.Tables
import MernChat.Chat.Repositories
import MernChat.Chat.SendMessage
import MernChat.Chat.SendTransactions
import MernChat.Chat.Atomicity
import MernChat.Chat.MessageCursor
import MernChat.Chat.MessageHistory
import MernChat.Chat.Pagination
import MernChat.Chat.Pages
import MernChat.Chat.Api
import MernChat.Chat.CursorCodec
import MernChat.Chat.Spelling
import MernChat.Database.Migrations
import MernChat.Database.MigrationRuns
import MernChat.Events.Infrastructure
import MernChat.Events.NotificationConsumer
import MernChat.Events.NotificationTables
import MernChat.Pipeline.System
import MernChat.Pipeline.Notifications
import MernChat.Auth.Users
import MernChat.Auth.Sessions
import MernChat.Auth.SessionSystem
import MernChat.Auth.Signup
import MernChat.Auth.HandshakeCookie
import MernChat.Frontend.ConversationStore
import MernChat.Frontend.Merging
import MernChat.Frontend.DisplayOrder
import MernChat.Frontend.Accounts
import MernChat.Presence.Scripts
import MernChat.Presence.Leases
import MernChat.Presence.Broadcasts
import MernChat.Presence.LocalMaps
import MernChat.Presence.Convergence
import MernChat.Chat.ConcurrentCreates
import MernChat.Chat.Confidentiality
import MernChat.Auth.Passwords
import MernChat.Auth.RateLimit
import MernChat.Auth.Throttling
import MernChat.Events.Envelope
import MernChat.Events.RoundTrip
import MernChat.Chat.MessageText
import MernChat.Events.EachMessage
import MernChat.Events.NotDropped
import MernChat.Frontend.LiveSession
import MernChat.Frontend.LiveMessages
import MernChat.Frontend.KeepingUp
import MernChat.Frontend.Interceptor
import MernChat.Frontend.SingleFlight
import MernChat.Frontend.AuthProvider
import MernChat.Frontend.SocketProvider
import MernChat.Frontend.OneSocket
import MernChat.Frontend.StaysSignedIn
import MernChat.Frontend.Page
import MernChat.Observability.Logger
import MernChat.Observability.LogRedaction
import MernChat.Observability.ConnectionUrls
import MernChat.Observability.ConnectionStrings
import MernChat.Observability.Metrics
import MernChat.Observability.MetricsSeries
import MernChat.Observability.TextFormat
import MernChat.Observability.Exposition
import MernChat.Auth.SessionFrames
import MernChat.Api.Requests
import MernChat.Api.Server
import MernChat.Api.Calls
import MernChat.Api.Coherence
import MernChat.Api.Known
import MernChat.Api.Steps
import MernChat.Api.Answers
import MernChat.Api.Security
import MernChat.Api.Sends
import MernChat.Api.Revocation
import MernChat.Api.Credentials
import MernChat.Api.Services
import MernChat.Api.Linearization
