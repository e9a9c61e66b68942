import Vynor.Contracts.Content
import Vynor.Contracts.Delivery
import Vynor.Lib.Table

/-!
# Channels, contacts, conversations and messages

The rows the conversation services read and write, with their unique indexes.
-/

namespace Vynor

open Lib (Table)

/-- `ChannelProviderType`. -/
inductive ChannelProviderType where
  | whatsappCloud
  | metaMessenger
  | metaInstagram
  | telegramBot
  | emailSmtpImap
  | lineMessaging
  | webchatEmbed
  | customWebhook
deriving DecidableEq, Repr

/-- `ChannelType`. -/
inductive ChannelType where
  | whatsapp
  | instagram
  | messenger
  | telegram
  | email
  | line
  | webchat
  | api
deriving DecidableEq, Repr

/-- `ProviderAccountStatus`. -/
inductive ProviderAccountStatus where
  | active
  | inactive
  | disconnected
  | error
deriving DecidableEq, Repr

/-- A channel: a row of `provider_accounts`. -/
structure ProviderAccount where
  id : Id
  workspaceId : Id
  provider : ChannelProviderType
  name : String
  status : ProviderAccountStatus := .active
  deletedAt : Option Date := none
deriving DecidableEq, Repr

/-- A channel that is connected. -/
def exampleChannel : ProviderAccount where
  id := "channel"
  workspaceId := "workspace"
  provider := .telegramBot
  name := "Support"

/-- `MessageDirection`. -/
inductive Direction where
  | inbound
  | outbound
deriving DecidableEq, Repr

/-- `MessageSenderType`. -/
inductive SenderType where
  | contact
  | agent
  | system
deriving DecidableEq, Repr

/-- A row of `messages`. -/
structure Message where
  id : Id
  workspaceId : Id
  conversationId : Id
  providerAccountId : Id
  direction : Direction
  senderType : SenderType
  senderMembershipId : Option Id := none
  senderName : CodeUnits := []
  isPrivate : Bool := false
  content : MessageContent
  text : String
  providerMessageId : Option String := none
  replyToMessageId : Option Id := none
  status : DeliveryStatus := .pending
  errorCode : Option CodeUnits := none
  errorMessage : Option String := none
  providerEventId : Option Id := none
  sentAt : Option Date := none
  deliveredAt : Option Date := none
  readAt : Option Date := none
  failedAt : Option Date := none
  createdAt : Date
  updatedAt : Date
deriving DecidableEq, Repr

/-- A key of `messages`: the primary key, or `(providerAccountId,
providerMessageId)`. -/
inductive MessageKey where
  | id (id : Id)
  | provider (providerAccountId : Id) (providerMessageId : String)
deriving DecidableEq, Repr

/-- The keys a message occupies.  A null provider id occupies none. -/
def Message.keys (m : Message) : List MessageKey :=
  .id m.id :: (m.providerMessageId.map (.provider m.providerAccountId)).toList

@[simp] theorem Message.id_mem_keys {m : Message} {id : Id} :
    MessageKey.id id ∈ m.keys ↔ m.id = id := by
  cases h : m.providerMessageId <;> simp [Message.keys, h, eq_comm]

@[simp] theorem Message.provider_mem_keys {m : Message} {account : Id} {providerId : String} :
    MessageKey.provider account providerId ∈ m.keys ↔
      m.providerAccountId = account ∧ m.providerMessageId = some providerId := by
  cases h : m.providerMessageId <;> simp [Message.keys, h, eq_comm]

/-- The table `messages`. -/
abbrev Messages := Table Message Message.keys

/-- A message found under an id has that id. -/
theorem Message.id_of_find? {t : Messages} {id : Id} {m : Message}
    (h : t.find? (.id id) = some m) : m.id = id :=
  Message.id_mem_keys.mp (Table.find?_eq_some.mp h).2

/-- A row of the table is found under its id. -/
theorem Message.find?_of_mem {t : Messages} {m : Message} (h : m ∈ t.rows) :
    t.find? (.id m.id) = some m :=
  Table.find?_eq_some.mpr ⟨h, Message.id_mem_keys.mpr rfl⟩

/-! ## Contacts and conversations -/

/-- A row of `contacts`. -/
structure Contact where
  id : Id
  workspaceId : Id
  displayName : CodeUnits
  email : Option String := none
  phone : Option String := none
  avatarUrl : Option String := none
deriving DecidableEq, Repr

def Contact.keys (c : Contact) : List Id := [c.id]

/-- A row of `contact_identities`: how a contact is addressed on one channel. -/
structure ContactIdentity where
  id : Id
  workspaceId : Id
  contactId : Id
  providerAccountId : Id
  externalId : String
  displayName : CodeUnits
  username : Option String := none
  lastSeenAt : Date
deriving DecidableEq, Repr

/-- A key of `contact_identities`: the primary key, or `(providerAccountId,
externalId)`. -/
inductive IdentityKey where
  | id (id : Id)
  | external (providerAccountId : Id) (externalId : String)
deriving DecidableEq, Repr

def ContactIdentity.keys (i : ContactIdentity) : List IdentityKey :=
  [.id i.id, .external i.providerAccountId i.externalId]

/-- `ConversationStatus`. -/
inductive ConversationStatus where
  | open
  | pending
  | resolved
deriving DecidableEq, Repr

/-- A row of `conversations`. -/
structure Conversation where
  id : Id
  workspaceId : Id
  providerAccountId : Id
  contactId : Id
  contactIdentityId : Id
  status : ConversationStatus := .open
  assigneeMembershipId : Option Id := none
  subject : Option CodeUnits := none
  externalThreadId : Option CodeUnits := none
  unreadCount : Nat := 0
  lastMessageAt : Option Date := none
  lastMessagePreview : Option String := none
  lastMessageDirection : Option Direction := none
  lastInboundAt : Option Date := none
  resolvedAt : Option Date := none
  createdAt : Date
deriving DecidableEq, Repr

def Conversation.keys (c : Conversation) : List Id := [c.id]

abbrev Contacts := Table Contact Contact.keys

abbrev Identities := Table ContactIdentity ContactIdentity.keys

abbrev Conversations := Table Conversation Conversation.keys

@[simp] theorem Conversation.mem_keys {c : Conversation} {id : Id} : id ∈ c.keys ↔ c.id = id := by
  simp [Conversation.keys, eq_comm]

/-- A conversation found under an id has that id. -/
theorem Conversation.id_of_find? {t : Conversations} {id : Id} {c : Conversation}
    (h : t.find? id = some c) : c.id = id :=
  Conversation.mem_keys.mp (Table.find?_eq_some.mp h).2

end Vynor
