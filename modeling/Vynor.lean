import Vynor.Basic
import Vynor.Lib.Machine
import Vynor.Lib.Table
import Vynor.Contracts.Content
import Vynor.Contracts.Delivery
import Vynor.Schema
import Vynor.Delivery.Errors
import Vynor.Delivery.Statements
import Vynor.Queue.Jobs
import Vynor.Outbox.Events
import Vynor.Outbox.Dispatcher
import Vynor.Outbox.Leases
import Vynor.Outbox.Terminal
import Vynor.Delivery.System
import Vynor.Delivery.Monotone
import Vynor.Delivery.Accepted
import Vynor.Delivery.Receipts
import Vynor.Conversations.Ingest
import Vynor.Conversations.Agents
import Vynor.Conversations.System
import Vynor.Conversations.Commits
import Vynor.Conversations.ExactlyOnce
import Vynor.Conversations.Reopen
import Vynor.Conversations.Summary
import Vynor.Journal.Events
import Vynor.Journal.System
import Vynor.Journal.ExactlyOnce
import Vynor.Inbound.Process
import Vynor.Inbound.Runs
import Vynor.Inbound.Terminal
import Vynor.Outbox.Copies
import Vynor.Outbox.Reconciliation
import Vynor.Inbound.Handover
import Vynor.Inbound.Bookkeeping
import Vynor.Inbound.Attempts
import Vynor.Inbound.Stuck
import Vynor.Outbox.Ledger
import Vynor.Outbox.NotLost
import Vynor.Outbox.Exclusive
import Vynor.Outbox.Polls
import Vynor.Outbox.Bounded
import Vynor.Delivery.ProviderIds
import Vynor.Conversations.Locks
import Vynor.Conversations.Senders
import Vynor.Conversations.Chats
import Vynor.Conversations.Threads
import Vynor.Email.Mail
import Vynor.Email.Polling
import Vynor.Journal.Batch
import Vynor.Polling.System
import Vynor.Telegram.Polling
import Vynor.Polling.Leases
import Vynor.Polling.Moves
import Vynor.Polling.Complete
import Vynor.Conversations.Requests
import Vynor.Inbound.Core
import Vynor.Inbound.Growth
import Vynor.Inbound.Complete
import Vynor.Email.ReplyTrimmer
import Vynor.Lib.Forest
import Vynor.Email.Normalize
import Vynor.Conversations.Replies
import Vynor.Email.ReplyTrees
import Vynor.Idempotency.Store
import Vynor.Idempotency.AtMostOnce
import Vynor.Contracts.Channel
import Vynor.Conversations.Assignment
import Vynor.Webhooks.Routing
import Vynor.Webhooks.Ingest
import Vynor.Channels.Services
import Vynor.Channels.Disconnected
import Vynor.Iam.ActorContext
import Vynor.Realtime.Gateway
import Vynor.Realtime.Tenancy
import Vynor.Webchat.Polling
import Vynor.Webchat.Seen
import Vynor.Lib.Number
import Vynor.Adapters.Payload
import Vynor.Contracts.Inbound
import Vynor.Adapters.Adapter
import Vynor.Adapters.WhatsApp
import Vynor.Adapters.Messaging
import Vynor.Adapters.Line
import Vynor.Adapters.Telegram
import Vynor.Adapters.CustomApi
import Vynor.Adapters.Email
import Vynor.Adapters.Webchat
import Vynor.Adapters.Normalize
import Vynor.Adapters.Sound
import Vynor.Conversations.Columns
import Vynor.Adapters.Lengths
import Vynor.Adapters.Keys
import Vynor.Delivery.ReceiptFrame
import Vynor.Iam.LiveWorkspaces
import Vynor.Conversations.Audit
import Vynor.Conversations.Names
import Vynor.Queue.BullMq
import Vynor.Queue.Lifecycle
import Vynor.Lib.FixedWindow
import Vynor.RateLimit.Store
import Vynor.RateLimit.Limits
import Vynor.AiAgents.Matching
import Vynor.AiAgents.Knowledge
import Vynor.AiAgents.Preview
import Vynor.AiAgents.Turns
import Vynor.Lib.JsonText
import Vynor.Idempotency.Texts
import Vynor.Idempotency.Refinement
import Vynor.Lib.Bytes
import Vynor.Credentials.Cipher
import Vynor.Credentials.Envelope
import Vynor.Credentials.Rotation
import Vynor.Lib.IpAddress
import Vynor.Channels.EndpointPolicy
import Vynor.Channels.Spellings
import Vynor.Lib.Lines
import Vynor.Email.QuotedTail
import Vynor.Lib.Properties
import Vynor.Lib.JsValue
import Vynor.Contracts.Redaction
import Vynor.Lib.JsText
import Vynor.Lib.JsOrder
import Vynor.Lib.Rounding
import Vynor.Lib.DoubleText
import Vynor.Lib.Doubles
import Vynor.Idempotency.Fingerprint
import Vynor.Adapters.Fingerprint
import Vynor.Email.Threading
import Vynor.Lib.Turns
import Vynor.Conversations.Places
import Vynor.Conversations.Fairness
import Vynor.Contracts.Surrogates
import Vynor.Conversations.Cuts
import Vynor.Email.Journal
import Vynor.Lib.Utf8
import Vynor.Lib.IsoDate
import Vynor.Lib.Keyset
import Vynor.Contracts.Pagination
import Vynor.Conversations.Pages
import Vynor.Lib.Percent
import Vynor.Storage.Canonical
import Vynor.Storage.S3Adapter
import Vynor.Lib.Objects
import Vynor.Contracts.Connection
import Vynor.Credentials.Presentation
import Vynor.Credentials.Secrecy
import Vynor.Storage.ObjectKey
import Vynor.Contracts.Summary
import Vynor.Adapters.Readable
import Vynor.Conversations.MediaLinks
import Vynor.Webchat.Visitors
import Vynor.Webhooks.Ingress
import Vynor.Realtime.Hints
import Vynor.Conversations.Inbox
import Vynor.Webchat.Widget
import Vynor.Realtime.Relay
import Vynor.Iam.Guards
import Vynor.Conversations.Routes
import Vynor.Conversations.Authorized
import Vynor.Conversations.Channels
import Vynor.Conversations.Intact
import Vynor.Email.Desk
import Vynor.Email.Correspondence
import Vynor.Lib.Slots
import Vynor.Polling.Scheduler
import Vynor.Polling.Spacing
