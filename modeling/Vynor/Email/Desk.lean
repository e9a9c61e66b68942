import Vynor.Conversations.Channels
import Vynor.Delivery.ProviderIds
import Vynor.Email.Threading

/-!
# The desk of a mailbox

The customers' mails and the agents' replies of an email channel.  A reply that
waits is read with its conversation, composed with the Message-IDs of the thread,
handed to the mail server, and marked as sent under its own Message-ID, or
without one where that is taken.  Ingests, agents, other channels and the
statements on a status run in between.

`sent` is the history of the mails that the server has taken.  No send reads it.
-/

namespace Vynor.Email

open Lib (Table Machine)

/-- An email channel. -/
structure EmailChannel where
  channelId : Id
  account : MailAccount

/-- The Message-ID of a reply from this mailbox. -/
def EmailChannel.messageIdOf (mailbox : EmailChannel) (replyId : Id) : String :=
  outboundMessageId replyId mailbox.account.emailAddress

abbrev SendId := Nat

/-- Where a send stands. -/
inductive Sending where
  | idle
  | prepared (reply : OutboundMessage)
  | calling (intent : OutboundMessageIntent)
  | marking (replyId : Id) (providerMessageId : String) (sentAt : Date)
  | remarking (replyId : Id) (sentAt : Date)
  | ended

/-- A mail that the server has taken, and the reply it is of. -/
structure SentMail where
  replyId : Id
  mail : MailOptions
  providerMessageId : String

structure Desk where
  chats : Conversations.World
  sending : SendId → Sending
  sent : List SentMail

/-- The tables. -/
abbrev Desk.db (s : Desk) : Conversations.Db := s.chats.db

/-- The same desk with one send at another point. -/
def Desk.setSending (s : Desk) (i : SendId) (stage : Sending) : Desk :=
  { s with sending := Function.update s.sending i stage }

@[simp] theorem Desk.setSending_self (s : Desk) (i : SendId) (stage : Sending) :
    (s.setSending i stage).sending i = stage := by
  simp [Desk.setSending]

theorem Desk.setSending_other (s : Desk) {i j : SendId} (stage : Sending) (h : j ≠ i) :
    (s.setSending i stage).sending j = s.sending j := by
  simp [Desk.setSending, h]

/-- The same desk with another table of messages. -/
def Desk.setMessages (s : Desk) (t : Messages) : Desk :=
  { s with chats := { s.chats with db := { s.chats.db with messages := t } } }

/-! ## Statements of other code -/

/-- The statements on a status that are no `markSent`. -/
inductive Statement where
  | fail (messageId : Id) (code text : String) (now : Date)
  | transition (message : Message) (receipt : DeliveryReceipt) (now : Date)
  | markFetched (delivered : List Id) (now : Date)
  | markRetried (messageId : Id) (now : Date)

/-- The table after a statement. -/
def Statement.on (t : Messages) : Statement → Messages
  | .fail messageId code text now => Delivery.fail t messageId code text now
  | .transition message receipt now => (Delivery.transition t message receipt now).1
  | .markFetched delivered now => Delivery.markFetched t delivered now
  | .markRetried messageId now => Delivery.markRetried t messageId now

/-! ## A send -/

instance (messages : Messages) (conversationId : Id) (thread : List Message) :
    Decidable (IsThread messages conversationId thread) :=
  decidable_of_iff
    (thread.Perm (messages.rows.filter (inThread conversationId)) ∧
      thread.Pairwise fun a b => a.createdAt ≤ b.createdAt)
    ⟨fun h => ⟨h.1, h.2⟩, fun h => ⟨h.perm, h.ordered⟩⟩

/-- A reply that waits, with what `OUTBOUND_INCLUDE` reads along with it. -/
def readReply (db : Conversations.Db) (message : Message) : Option OutboundMessage := do
  let conversation ← db.conversations.find? message.conversationId
  let contactIdentity ← db.identities.find? (.id conversation.contactIdentityId)
  some ⟨message, .email, conversation, contactIdentity⟩

/-- What can happen next, and what the environment answers. -/
inductive DeskAction where
  | chat (a : Conversations.Action)
  | state (statement : Statement)
  | markElsewhere (messageId : Id) (providerMessageId : Option String) (sentAt now : Date)
  | send (i : SendId) (replyId : Id)
  | compose (i : SendId) (thread : List Message)
  | accepted (i : SendId) (info : SendInfo) (now : Date)
  | markSent (i : SendId) (now : Date)
  | ends (i : SendId)

/-- The transaction of `markSent`: with the Message-ID first, and without it where
that is taken. -/
def Desk.stepMarkSent (s : Desk) (i : SendId) (now : Date) : Option Desk :=
  match s.sending i with
  | .marking replyId providerMessageId sentAt =>
      match Delivery.markSent s.db.messages replyId (some providerMessageId) sentAt now with
      | some t => some ((s.setSending i .ended).setMessages t)
      | none => some (s.setSending i (.remarking replyId sentAt))
  | .remarking replyId sentAt =>
      (Delivery.markSent s.db.messages replyId none sentAt now).map
        (s.setSending i .ended).setMessages
  | _ => none

namespace EmailChannel

variable (mailbox : EmailChannel)

/-- The start of `send`: the reply is read, if it waits. -/
def stepSend (s : Desk) (i : SendId) (replyId : Id) : Option Desk :=
  match s.db.messages.find? (.id replyId) with
  | none => some (s.setSending i .ended)
  | some message =>
      if message.providerAccountId ≠ mailbox.channelId then none
      else if ¬ Delivery.Reply message ∨ message.status ≠ .pending ∨
          message.content.isOutbound = false then
        some (s.setSending i .ended)
      else (readReply s.db message).map fun reply => s.setSending i (.prepared reply)

/-- The server has taken the mail of an intent. -/
def stepAccepted (s : Desk) (i : SendId) (intent : OutboundMessageIntent) (info : SendInfo)
    (now : Date) : Desk :=
  match intent.content, sendMessage (fun _ => .ok info) mailbox.account now intent with
  | .text text, .ok result =>
      { s.setSending i (.marking intent.intentId result.providerMessageId
          result.providerTimestamp) with
        sent := ⟨intent.intentId, mailOptions mailbox.account intent text,
          result.providerMessageId⟩ :: s.sent }
  | _, _ => s.setSending i .ended

/-- One action.  A send may end at any point: it fails, or the worker stops. -/
def step (s : Desk) : DeskAction → Option Desk
  | .chat a => (Conversations.step s.chats a).map fun chats => { s with chats := chats }
  | .state statement => some (s.setMessages (statement.on s.db.messages))
  | .markElsewhere messageId providerMessageId sentAt now =>
      match s.db.messages.find? (.id messageId) with
      | some m =>
          if m.providerAccountId = mailbox.channelId then none
          else
            (Delivery.markSent s.db.messages messageId providerMessageId sentAt now).map
              s.setMessages
      | none => none
  | .send i replyId =>
      match s.sending i with
      | .idle => mailbox.stepSend s i replyId
      | _ => none
  | .compose i thread =>
      match s.sending i with
      | .prepared reply =>
          if IsThread s.db.messages reply.conversation.id thread then
            some (s.setSending i
              (.calling (buildIntent s.db.messages thread reply reply.message.content)))
          else none
      | _ => none
  | .accepted i info now =>
      match s.sending i with
      | .calling intent => some (mailbox.stepAccepted s i intent info now)
      | _ => none
  | .markSent i now => s.stepMarkSent i now
  | .ends i => some (s.setSending i .ended)

/-- The desk as a machine. -/
def machine : Machine Desk DeskAction := ⟨mailbox.step⟩

/-! ## What is written to the messages -/

/-- What a write on a status leaves of a message. -/
structure Kept (m m' : Message) : Prop where
  id : m'.id = m.id
  conversationId : m'.conversationId = m.conversationId
  providerAccountId : m'.providerAccountId = m.providerAccountId
  direction : m'.direction = m.direction

/-- The rows are rewritten in place.  On the channel a message keeps its provider
id, or it is a reply without one, and takes its own Message-ID. -/
structure Rewrites (t t' : Messages) (f : Message → Message) : Prop where
  rows : t'.rows = t.rows.map f
  kept : ∀ m, Kept m (f m)
  providerMessageId : ∀ m ∈ t.rows, m.providerAccountId = mailbox.channelId →
    (f m).providerMessageId = m.providerMessageId ∨
      m.direction = .outbound ∧ m.providerMessageId = none ∧
        (f m).providerMessageId = some (mailbox.messageIdOf m.id)

variable {mailbox} {t t' : Messages} {f : Message → Message}

theorem Kept.refl (m : Message) : Kept m m := ⟨rfl, rfl, rfl, rfl⟩

theorem kept_received (receipt : DeliveryReceipt) (now : Date) (m : Message) :
    Kept m (Delivery.received receipt now m) := by
  unfold Delivery.received
  cases receipt.status <;> exact ⟨rfl, rfl, rfl, rfl⟩

/-- An update that keeps these members of a row rewrites the table. -/
theorem rewrites_updateMany {p : Message → Bool} {g : Message → Message}
    (hg : ∀ m, (g m).keys = m.keys) (hkept : ∀ m, Kept m (g m))
    (hid : ∀ m, (g m).providerMessageId = m.providerMessageId) :
    mailbox.Rewrites t (t.updateMany p g hg) fun m => if p m then g m else m where
  rows := rfl
  kept m := by
    split
    · exact hkept m
    · exact .refl m
  providerMessageId m _ _ := by
    split
    · exact Or.inl (hid m)
    · exact Or.inl rfl

theorem rewrites_refl : mailbox.Rewrites t t id where
  rows := (List.map_id _).symm
  kept := .refl
  providerMessageId _ _ _ := Or.inl rfl

/-- The other statements leave every provider id. -/
theorem rewrites_statement (statement : Statement) :
    ∃ f, mailbox.Rewrites t (statement.on t) f := by
  cases statement with
  | fail messageId code text now =>
      exact ⟨_, rewrites_updateMany (fun m => Delivery.keys_failed m now code text)
        (fun _ => ⟨rfl, rfl, rfl, rfl⟩) fun _ => rfl⟩
  | transition message receipt now =>
      rw [Statement.on, Delivery.transition]
      split
      · exact ⟨_, rewrites_updateMany (fun m => Delivery.keys_received m receipt now)
          (kept_received receipt now) (Delivery.providerMessageId_received receipt now)⟩
      · exact ⟨_, rewrites_refl⟩
  | markFetched delivered now =>
      exact ⟨_, rewrites_updateMany (fun m => Delivery.keys_fetched m now)
        (fun _ => ⟨rfl, rfl, rfl, rfl⟩) fun _ => rfl⟩
  | markRetried messageId now =>
      exact ⟨_, rewrites_updateMany (fun m => Delivery.keys_retried m now)
        (fun _ => ⟨rfl, rfl, rfl, rfl⟩) fun _ => rfl⟩

/-- `markSent` on a message whose provider id may become this one. -/
theorem rewrites_markSent {messageId : Id} {providerMessageId : Option String} {sentAt now : Date}
    (h : Delivery.markSent t messageId providerMessageId sentAt now = some t')
    (hown : ∀ m ∈ t.rows, m.id = messageId → m.providerAccountId = mailbox.channelId →
      providerMessageId = m.providerMessageId ∨
        m.direction = .outbound ∧ m.providerMessageId = none ∧
          providerMessageId = some (mailbox.messageIdOf m.id)) :
    ∃ f, mailbox.Rewrites t t' f := by
  refine ⟨_, Table.rows_of_updateMany? h, fun m => ?_, fun m hm hchannel => ?_⟩
  · split
    · exact ⟨rfl, rfl, rfl, rfl⟩
    · exact .refl m
  · split
    · next hselected =>
        simp only [Bool.and_eq_true, decide_eq_true_eq] at hselected
        exact hown m hm hselected.1 hchannel
    · exact Or.inl rfl

section Rewrites

variable (h : mailbox.Rewrites t t' f)

include h

/-- A message is still found under its id. -/
theorem Rewrites.find?_id {id : Id} {m : Message} (hm : t.find? (.id id) = some m) :
    t'.find? (.id id) = some (f m) := by
  have hid : (f m).id = id := (h.kept m).id.trans (Message.id_of_find? hm)
  rw [← hid]
  exact Message.find?_of_mem (h.rows ▸ List.mem_map_of_mem (Table.find?_eq_some.mp hm).1)

/-- A message of the channel is still found under its provider id. -/
theorem Rewrites.find?_provider {id : String} {m : Message}
    (hm : t.find? (.provider mailbox.channelId id) = some m) :
    t'.find? (.provider mailbox.channelId id) = some (f m) := by
  obtain ⟨hmem, hkey⟩ := Table.find?_eq_some.mp hm
  obtain ⟨hchannel, hid⟩ := Message.provider_mem_keys.mp hkey
  refine Table.find?_eq_some.mpr ⟨h.rows ▸ List.mem_map_of_mem hmem, ?_⟩
  refine Message.provider_mem_keys.mpr ⟨(h.kept m).providerAccountId.trans hchannel, ?_⟩
  rcases h.providerMessageId m hmem hchannel with hsame | ⟨_, hnone, _⟩
  · exact hsame.trans hid
  · rw [hnone] at hid
    cases hid

/-- A message that came in was found under its provider id before. -/
theorem Rewrites.find?_inbound {id : String} {m' : Message}
    (hm' : t'.find? (.provider mailbox.channelId id) = some m') (hin : m'.direction = .inbound) :
    ∃ m, t.find? (.provider mailbox.channelId id) = some m ∧ Kept m m' := by
  obtain ⟨hmem, hkey⟩ := Table.find?_eq_some.mp hm'
  obtain ⟨hchannel, hid⟩ := Message.provider_mem_keys.mp hkey
  rw [h.rows] at hmem
  obtain ⟨m, hm, rfl⟩ := List.mem_map.mp hmem
  have hchannel' := (h.kept m).providerAccountId.symm.trans hchannel
  refine ⟨m, Table.find?_eq_some.mpr ⟨hm, Message.provider_mem_keys.mpr ⟨hchannel', ?_⟩⟩,
    h.kept m⟩
  rcases h.providerMessageId m hm hchannel' with hsame | ⟨hout, _, _⟩
  · exact hsame.symm.trans hid
  · rw [(h.kept m).direction, hout] at hin
    cases hin

end Rewrites

end EmailChannel

end Vynor.Email
