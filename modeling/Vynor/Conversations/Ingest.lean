import Vynor.Schema

/-!
# Ingesting a message

The parts of one transaction of `ingestMessage`: the sender's identity, the
conversation the message belongs to, the stored message, and the update of the
conversation.  `ingestInTransaction` puts the writes together.  It takes what
the transaction has read, and writes to the tables as they are when it commits.
-/

namespace Vynor.Conversations

open Lib (Table)

/-- The tables an ingest writes. -/
structure Db where
  contacts : Contacts
  identities : Identities
  conversations : Conversations
  messages : Messages

/-- `sender` of an inbound message, with the members of its metadata. -/
structure Sender where
  identifier : String
  displayName : Option String := none
  avatarUrl : Option String := none
  email : Option String := none
  phone : Option String := none
  username : Option String := none
deriving DecidableEq, Repr

/-- `InboundMessageInput`, with the members of its metadata. -/
structure InboundMessage where
  providerMessageId : String
  sender : Sender
  timestamp : Date
  content : MessageContent
  replyTarget : Option String := none
  threadId : Option String := none
  subject : Option String := none
deriving DecidableEq, Repr

/-- The arguments of `ingestMessage`. -/
structure IngestRequest where
  channel : ProviderAccount
  message : InboundMessage
  providerEventId : Id
  messageId : Id
deriving DecidableEq, Repr

/-- `IngestResult`. -/
structure IngestResult where
  messageId : Id
  conversationId : Id
  duplicate : Bool
  createdConversation : Bool
deriving DecidableEq, Repr

/-- `providerMessageKey` of the message. -/
def IngestRequest.key (request : IngestRequest) : MessageKey :=
  .provider request.channel.id request.message.providerMessageId

/-- `findDuplicate`. -/
def findDuplicate (messages : Messages) (request : IngestRequest) : Option IngestResult :=
  (messages.find? request.key).map fun stored =>
    { messageId := stored.id
      conversationId := stored.conversationId
      duplicate := true
      createdConversation := false }

def MAX_BACKDATE_MS : Date := 7 * 24 * 3600000

def MAX_FUTURE_MS : Date := 5 * 60000

/-- `timelineTimestamp`. -/
def timelineTimestamp (sentAt receivedAt : Date) : Date :=
  if receivedAt - MAX_BACKDATE_MS ≤ sentAt ∧ sentAt ≤ receivedAt + MAX_FUTURE_MS then sentAt
  else receivedAt

/-- The name a sender is stored under, cut to its column. -/
def Sender.storedName (sender : Sender) : CodeUnits :=
  (codeUnits (sender.displayName.getD sender.identifier)).take 255

/-! ## The sender -/

/-- The identity of the sender as the transaction found it, or the ids of the
rows it creates. -/
structure SenderRef where
  identityId : Id
  contactId : Id
  existing : Option (ContactIdentity × Contact)
deriving DecidableEq, Repr

/-- The lookup of `upsertSenderIdentity`. -/
def findSender (db : Db) (request : IngestRequest) (contactId identityId : Id) : SenderRef :=
  match db.identities.find? (.external request.channel.id request.message.sender.identifier) with
  | none => ⟨identityId, contactId, none⟩
  | some identity =>
      ⟨identity.id, identity.contactId,
        (db.contacts.find? identity.contactId).map fun contact => (identity, contact)⟩

/-- The `SET` of an identity that was found. -/
def seen (sender : Sender) (now : Date) (i : ContactIdentity) : ContactIdentity :=
  { i with
    displayName := sender.storedName
    lastSeenAt := now
    username := (truthy sender.username).or i.username }

theorem keys_seen (sender : Sender) (now : Date) (i : ContactIdentity) :
    (seen sender now i).keys = i.keys := rfl

/-- The `SET` of a contact that was found: a name only while it is the
automatic one, and details only where there are none. -/
def refreshed (sender : Sender) (identity : ContactIdentity) (read : Contact) (c : Contact) :
    Contact :=
  { c with
    displayName :=
      if read.displayName = identity.displayName ∧ sender.storedName ≠ read.displayName then
        sender.storedName
      else c.displayName
    email := if (truthy read.email).isNone then (truthy sender.email).or c.email else c.email
    phone := if (truthy read.phone).isNone then (truthy sender.phone).or c.phone else c.phone
    avatarUrl :=
      if (truthy read.avatarUrl).isNone then (truthy sender.avatarUrl).or c.avatarUrl
      else c.avatarUrl }

theorem keys_refreshed (sender : Sender) (identity : ContactIdentity) (read c : Contact) :
    (refreshed sender identity read c).keys = c.keys := rfl

/-- The writes of `upsertSenderIdentity`. -/
def writeSender (db : Db) (request : IngestRequest) (ref : SenderRef) (now : Date) : Option Db :=
  let sender := request.message.sender
  match ref.existing with
  | none =>
      match db.contacts.insert?
          { id := ref.contactId
            workspaceId := request.channel.workspaceId
            displayName := sender.storedName
            email := truthy sender.email
            phone := truthy sender.phone
            avatarUrl := sender.avatarUrl },
        db.identities.insert?
          { id := ref.identityId
            workspaceId := request.channel.workspaceId
            contactId := ref.contactId
            providerAccountId := request.channel.id
            externalId := sender.identifier
            displayName := sender.storedName
            username := truthy sender.username
            lastSeenAt := now } with
      | some contacts, some identities =>
          some { db with contacts := contacts, identities := identities }
      | _, _ => none
  | some (identity, contact) =>
      some { db with
        identities := db.identities.updateMany (fun i => i.id = identity.id) (seen sender now)
          (keys_seen sender now)
        contacts := db.contacts.updateMany (fun c => c.id = identity.contactId)
          (refreshed sender identity contact) (keys_refreshed sender identity contact) }

/-! ## The conversation -/

/-- `OPEN_STATUSES`. -/
def OPEN_STATUSES : List ConversationStatus := [.open, .pending]

/-- The `WHERE` of the sender's open conversation. -/
def openFor (channelId identityId : Id) (c : Conversation) : Bool :=
  c.providerAccountId = channelId && c.contactIdentityId = identityId &&
    c.status ∈ OPEN_STATUSES

/-- `lastMessageAt` descending with nulls last, then `createdAt` descending. -/
def latestFirst (a b : Conversation) : Bool :=
  match a.lastMessageAt, b.lastMessageAt with
  | some x, some y => y < x || (x = y && b.createdAt ≤ a.createdAt)
  | some _, none => true
  | none, some _ => false
  | none, none => b.createdAt ≤ a.createdAt

/-- The `WHERE` of a conversation by its thread. -/
def inThread (channelId : Id) (threadId : String) (c : Conversation) : Bool :=
  c.providerAccountId = channelId && c.externalThreadId = some (codeUnits threadId)

/-- `createdAt` descending. -/
def newestFirst (a b : Conversation) : Bool := b.createdAt ≤ a.createdAt

/-- The conversation an ingest creates. -/
def newConversation (request : IngestRequest) (ref : SenderRef) (conversationId : Id)
    (createdAt : Date) (assignee : Option Id) : Conversation where
  id := conversationId
  workspaceId := request.channel.workspaceId
  providerAccountId := request.channel.id
  contactId := ref.contactId
  contactIdentityId := ref.identityId
  status := .open
  assigneeMembershipId := assignee
  subject := (truthy request.message.subject).map fun s => (codeUnits s).take 500
  externalThreadId := (truthy request.message.threadId).map fun s => (codeUnits s).take 512
  createdAt := createdAt

/-- `isLatest`. -/
def isLatest (read : Conversation) (createdAt : Date) : Bool :=
  match read.lastMessageAt with
  | none => true
  | some lastMessageAt => lastMessageAt ≤ createdAt

/-- `isLatestInbound`. -/
def isLatestInbound (read : Conversation) (createdAt : Date) : Bool :=
  match read.lastInboundAt with
  | none => true
  | some lastInboundAt => lastInboundAt < createdAt

/-- The `SET` of the conversation.  What it writes is decided on the row as it
was read. -/
def counted (read : Conversation) (createdAt : Date) (text : String) (c : Conversation) :
    Conversation :=
  { c with
    unreadCount := c.unreadCount + 1
    lastInboundAt := if isLatestInbound read createdAt then some createdAt else c.lastInboundAt
    lastMessageAt := if isLatest read createdAt then some createdAt else c.lastMessageAt
    lastMessagePreview :=
      if isLatest read createdAt then some (truncatePreview text) else c.lastMessagePreview
    lastMessageDirection :=
      if isLatest read createdAt then some .inbound else c.lastMessageDirection
    status := if read.status ≠ .open then .open else c.status
    resolvedAt := if read.status ≠ .open then none else c.resolvedAt }

/-- A conversation that was read in another status is reopened. -/
theorem status_counted_of_ne {read : Conversation} (h : read.status ≠ .open) (createdAt : Date)
    (text : String) (c : Conversation) :
    (counted read createdAt text c).status = .open ∧
      (counted read createdAt text c).resolvedAt = none := by
  simp [counted, h]

/-- A conversation that was read as `OPEN` keeps the status it has by then. -/
theorem status_counted_of_open {read : Conversation} (h : read.status = .open) (createdAt : Date)
    (text : String) (c : Conversation) :
    (counted read createdAt text c).status = c.status ∧
      (counted read createdAt text c).resolvedAt = c.resolvedAt := by
  simp [counted, h]

theorem keys_counted (read : Conversation) (createdAt : Date) (text : String) (c : Conversation) :
    (counted read createdAt text c).keys = c.keys := rfl

/-! ## The transaction -/

/-- A transaction of an ingest that has read the sender. -/
structure IngestTx where
  request : IngestRequest
  attempt : Nat
  now : Date
  sender : SenderRef
deriving DecidableEq, Repr

/-- The timeline time of the message. -/
def IngestTx.createdAt (tx : IngestTx) : Date :=
  timelineTimestamp tx.request.message.timestamp tx.now

/-- The message an ingest stores. -/
def newMessage (tx : IngestTx) (conversationId : Id) (replyTo : Option Id) : Message where
  id := tx.request.messageId
  workspaceId := tx.request.channel.workspaceId
  conversationId := conversationId
  providerAccountId := tx.request.channel.id
  direction := .inbound
  senderType := .contact
  senderName := tx.request.message.sender.storedName
  content := tx.request.message.content
  text := summarizeMessageContent tx.request.message.content
  providerMessageId := some tx.request.message.providerMessageId
  replyToMessageId := replyTo
  status := .delivered
  providerEventId := some tx.request.providerEventId
  sentAt := some tx.request.message.timestamp
  deliveredAt := some tx.now
  createdAt := tx.createdAt
  updatedAt := tx.now

/-- The conversation the message goes to: the one that was read, or a new row.
The update at the end fails where a conversation that was read is gone. -/
def writeConversation (conversations : Conversations) (read : Option Conversation)
    (fresh : Conversation) : Option (Conversations × Conversation) :=
  match read with
  | some c => if (conversations.find? c.id).isSome then some (conversations, c) else none
  | none => (conversations.insert? fresh).map fun t => (t, fresh)

/-- The writes of `ingestInTransaction` and its result.  `fresh` is the
conversation it creates if it read none. -/
def ingestInTransaction (db : Db) (tx : IngestTx) (read : Option Conversation)
    (replyTo : Option Id) (fresh : Conversation) : Option (Db × IngestResult) := do
  let db ← writeSender db tx.request tx.sender tx.now
  let (conversations, c) ← writeConversation db.conversations read fresh
  let message := newMessage tx c.id replyTo
  let messages ← db.messages.insert? message
  let conversations := conversations.updateMany (fun r => r.id = c.id)
    (counted c tx.createdAt message.text) (keys_counted c tx.createdAt message.text)
  some ({ db with conversations := conversations, messages := messages },
    { messageId := message.id
      conversationId := c.id
      duplicate := false
      createdConversation := read.isNone })

/-! ## What a committed ingest has done -/

/-- The sender's rows are written apart from conversations and messages. -/
theorem writeSender_frame {db db' : Db} {request : IngestRequest} {ref : SenderRef} {now : Date}
    (h : writeSender db request ref now = some db') :
    db'.conversations = db.conversations ∧ db'.messages = db.messages := by
  simp only [writeSender] at h
  split at h
  · split at h
    · cases h
      exact ⟨rfl, rfl⟩
    · cases h
  · cases h
    exact ⟨rfl, rfl⟩

/-- The conversation a committed ingest went to, and the table with it. -/
inductive Target (conversations : Conversations) (fresh : Conversation) :
    Option Conversation → Conversation → Conversations → Prop where
  | read {c row : Conversation} : conversations.find? c.id = some row →
      Target conversations fresh (some c) c conversations
  | created {t : Conversations} : conversations.insert? fresh = some t →
      Target conversations fresh none fresh t

/-- What is known of an ingest that has committed: where the message went, that
it was inserted, and the update of the conversation. -/
structure Ingested (db db' : Db) (tx : IngestTx) (read : Option Conversation) (replyTo : Option Id)
    (fresh : Conversation) (result : IngestResult) (c : Conversation) (t : Conversations) : Prop where
  target : Target db.conversations fresh read c t
  inserted : db.messages.insert? (newMessage tx c.id replyTo) = some db'.messages
  counted : db'.conversations = t.updateMany (fun r => r.id = c.id)
    (counted c tx.createdAt (newMessage tx c.id replyTo).text)
    (keys_counted c tx.createdAt (newMessage tx c.id replyTo).text)
  result : result = ⟨tx.request.messageId, c.id, false, read.isNone⟩

theorem ingested_of_eq_some {db db' : Db} {tx : IngestTx} {read : Option Conversation}
    {replyTo : Option Id} {fresh : Conversation} {result : IngestResult}
    (h : ingestInTransaction db tx read replyTo fresh = some (db', result)) :
    ∃ c t, Ingested db db' tx read replyTo fresh result c t := by
  simp only [ingestInTransaction, Option.bind_eq_bind, Option.bind_eq_some_iff] at h
  obtain ⟨db1, hsender, ⟨t, c⟩, hconversation, messages, hmessages, heq⟩ := h
  obtain ⟨hc, hm⟩ := writeSender_frame hsender
  simp only [Option.some.injEq, Prod.mk.injEq] at heq
  obtain ⟨rfl, rfl⟩ := heq
  rw [hc] at hconversation
  rw [hm] at hmessages
  refine ⟨c, t, ?_, hmessages, rfl, rfl⟩
  cases read with
  | none =>
      simp only [writeConversation, Option.map_eq_some_iff, Prod.mk.injEq] at hconversation
      obtain ⟨t', ht, rfl, rfl⟩ := hconversation
      exact .created ht
  | some r =>
      simp only [writeConversation] at hconversation
      split at hconversation
      next hsome =>
        cases hconversation
        obtain ⟨row, hrow⟩ := Option.isSome_iff_exists.mp hsome
        exact .read hrow
      · cases hconversation

end Vynor.Conversations
