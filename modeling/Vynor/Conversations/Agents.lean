import Vynor.Conversations.Ingest

/-!
# What agents do in a conversation

`sendMessage`, `markRead` and `update` each read the conversation first and
write it in a transaction of their own.  Each function below is one half: the
checks on what was read, or the writes of the transaction.
-/

namespace Vynor.Conversations

open Lib (Table)

/-- The acting member, with the two permissions `update` asks for. -/
structure Actor where
  workspaceId : Id
  membershipId : Id
  displayName : String
  canAssign : Bool
  canClose : Bool
deriving DecidableEq, Repr

/-- `findConversation`. -/
def findConversation (db : Db) (actor : Actor) (id : Id) : Option Conversation :=
  (db.conversations.find? id).filter fun c => c.workspaceId = actor.workspaceId

/-- `INSERT` of several messages. -/
def insertAll (t : Messages) : List Message → Option Messages
  | [] => some t
  | m :: ms => (t.insert? m).bind fun t' => insertAll t' ms

/-! ## Sending a message -/

/-- `SendMessageRequest`. -/
structure SendMessageRequest where
  text : String
  isPrivate : Bool := false
  replyToMessageId : Option Id := none
deriving DecidableEq, Repr

/-- A send past its checks: the conversation as read, the new id and the moment
the server took. -/
structure Draft where
  actor : Actor
  conversation : Conversation
  request : SendMessageRequest
  id : Id
  now : Date
deriving DecidableEq, Repr

/-- The checks of `sendMessage`. -/
def canSend (db : Db) (channel : ProviderAccount) (conversationId : Id)
    (request : SendMessageRequest) : Bool :=
  (request.isPrivate || (channel.deletedAt.isNone && channel.status ≠ .disconnected)) &&
    match truthy request.replyToMessageId with
    | none => true
    | some target =>
        match db.messages.find? (.id target) with
        | none => false
        | some m => m.conversationId = conversationId

/-- The message `sendMessage` creates. -/
def draftMessage (d : Draft) (createdAt : Date) : Message where
  id := d.id
  workspaceId := d.conversation.workspaceId
  conversationId := d.conversation.id
  providerAccountId := d.conversation.providerAccountId
  direction := .outbound
  senderType := .agent
  senderMembershipId := some d.actor.membershipId
  senderName := codeUnits d.actor.displayName
  isPrivate := d.request.isPrivate
  content := .text d.request.text
  text := d.request.text
  replyToMessageId := d.request.replyToMessageId
  status := if d.request.isPrivate then .sent else .pending
  createdAt := createdAt
  updatedAt := createdAt

/-- The `SET` of the conversation.  It writes the server's time whatever the
row has. -/
def answered (now : Date) (text : String) (c : Conversation) : Conversation :=
  { c with
    lastMessageAt := some now
    lastMessagePreview := some (truncatePreview text)
    lastMessageDirection := some .outbound
    unreadCount := 0 }

theorem keys_answered (now : Date) (text : String) (c : Conversation) :
    (answered now text c).keys = c.keys := rfl

/-- The transaction of `sendMessage`. -/
def commitSend (db : Db) (d : Draft) (createdAt : Date) : Option Db := do
  let messages ← db.messages.insert? (draftMessage d createdAt)
  if d.request.isPrivate then some { db with messages := messages }
  else if (db.conversations.find? d.conversation.id).isSome then
    some { db with
      messages := messages
      conversations := db.conversations.updateMany (fun c => c.id = d.conversation.id)
        (answered d.now d.request.text) (keys_answered d.now d.request.text) }
  else none

/-! ## Marking a conversation as read -/

/-- The `SET` of `markRead`. -/
def markedRead (c : Conversation) : Conversation := { c with unreadCount := 0 }

theorem keys_markedRead (c : Conversation) : (markedRead c).keys = c.keys := rfl

/-- The transaction of `markRead`. -/
def commitMarkRead (db : Db) (conversationId : Id) : Option Db :=
  if (db.conversations.find? conversationId).isSome then
    some { db with
      conversations := db.conversations.updateMany (fun c => c.id = conversationId) markedRead
        keys_markedRead }
  else none

/-! ## Changing status and assignee -/

/-- `UpdateConversationRequest`. -/
structure UpdateConversationRequest where
  assigneeMembershipId : Option (Option Id) := none
  status : Option ConversationStatus := none
deriving DecidableEq, Repr

/-- An update past its checks: the conversation as read, and what to write. -/
structure Change where
  conversation : Conversation
  assigneeMembershipId : Option (Option Id)
  status : Option (ConversationStatus × Option Date)
  events : List String
deriving DecidableEq, Repr

/-- The assignee an update writes and its timeline entry, or `none` where the
request is refused.  `member` is the active member found for the request. -/
def planAssignee (actor : Actor) (c : Conversation) (request : UpdateConversationRequest)
    (member : Option (Id × String)) : Option (Option (Option Id) × List String) :=
  match request.assigneeMembershipId with
  | none => some (none, [])
  | some assignee =>
      if assignee = c.assigneeMembershipId then some (none, [])
      else if actor.canAssign = false then none
      else
        match truthy assignee, member with
        | none, _ => some (some assignee, ["Unassigned by " ++ actor.displayName])
        | some _, none => none
        | some _, some (id, name) =>
            some (some assignee,
              [if id = actor.membershipId then actor.displayName ++ " took this conversation"
                else "Assigned to " ++ name ++ " by " ++ actor.displayName])

/-- The timeline entry of a status. -/
def statusEvent (actor : Actor) : ConversationStatus → String
  | .resolved => "Resolved by " ++ actor.displayName
  | .pending => "Marked as pending by " ++ actor.displayName
  | .open => "Reopened by " ++ actor.displayName

/-- The status an update writes with its `resolvedAt`, and its timeline entry,
or `none` where the request is refused. -/
def planStatus (actor : Actor) (c : Conversation) (request : UpdateConversationRequest)
    (now : Date) : Option (Option (ConversationStatus × Option Date) × List String) :=
  match request.status with
  | none => some (none, [])
  | some status =>
      if status = c.status then some (none, [])
      else if status = .resolved ∧ actor.canClose = false then none
      else
        some (some (status, if status = .resolved then some now else none),
          [statusEvent actor status])

/-- The checks of `update`. -/
def planUpdate (actor : Actor) (c : Conversation) (request : UpdateConversationRequest)
    (member : Option (Id × String)) (now : Date) : Option Change := do
  let (assignee, events) ← planAssignee actor c request member
  let (status, events') ← planStatus actor c request now
  some ⟨c, assignee, status, events ++ events'⟩

/-- The `SET` of `update`. -/
def changed (ch : Change) (c : Conversation) : Conversation :=
  { c with
    assigneeMembershipId := ch.assigneeMembershipId.getD c.assigneeMembershipId
    status := (ch.status.map Prod.fst).getD c.status
    resolvedAt := (ch.status.map Prod.snd).getD c.resolvedAt }

theorem keys_changed (ch : Change) (c : Conversation) : (changed ch c).keys = c.keys := rfl

/-- `beforeState` of the audit record. -/
def auditBefore (ch : Change) : ConversationStatus × Option Id :=
  (ch.conversation.status, ch.conversation.assigneeMembershipId)

/-- `afterState` of the audit record.  A null assignee falls back to the one
that was read. -/
def auditAfter (ch : Change) : ConversationStatus × Option Id :=
  ((ch.status.map Prod.fst).getD ch.conversation.status,
    ch.assigneeMembershipId.join.or ch.conversation.assigneeMembershipId)

/-- A timeline entry of `update`. -/
def systemMessage (ch : Change) (createdAt : Date) (entry : Id × String) : Message where
  id := entry.1
  workspaceId := ch.conversation.workspaceId
  conversationId := ch.conversation.id
  providerAccountId := ch.conversation.providerAccountId
  direction := .outbound
  senderType := .system
  senderName := codeUnits "VYNOR"
  isPrivate := true
  content := .text entry.2
  text := entry.2
  status := .sent
  createdAt := createdAt
  updatedAt := createdAt

/-- The transaction of `update`.  `ids` are the ids generated for its timeline
entries. -/
def commitUpdate (db : Db) (ch : Change) (ids : List Id) (createdAt : Date) : Option Db := do
  if (db.conversations.find? ch.conversation.id).isNone then none
  let messages ←
    insertAll db.messages ((ids.zip ch.events).map (systemMessage ch createdAt))
  some { db with
    messages := messages
    conversations := db.conversations.updateMany (fun c => c.id = ch.conversation.id) (changed ch)
      (keys_changed ch) }

/-! ## What the committed transactions have done -/

/-- Inserted messages come after the rows that were there. -/
theorem rows_of_insertAll {ms : List Message} :
    ∀ {t t' : Messages}, insertAll t ms = some t' → t'.rows = t.rows ++ ms := by
  induction ms with
  | nil =>
      intro t t' h
      cases h
      simp
  | cons m ms ih =>
      intro t t' h
      obtain ⟨t1, h1, h2⟩ := Option.bind_eq_some_iff.mp h
      rw [ih h2, (Table.insert?_eq_some.mp h1).2, List.append_assoc, List.singleton_append]

/-- A committed send has inserted its message, and has updated the conversation
unless it is private. -/
theorem commitSend_eq_some {db db' : Db} {d : Draft} {createdAt : Date}
    (h : commitSend db d createdAt = some db') :
    db.messages.insert? (draftMessage d createdAt) = some db'.messages ∧
      (d.request.isPrivate = true ∧ db'.conversations = db.conversations ∨
        d.request.isPrivate = false ∧ (db.conversations.find? d.conversation.id).isSome = true ∧
          db'.conversations = db.conversations.updateMany (fun c => c.id = d.conversation.id)
            (answered d.now d.request.text) (keys_answered d.now d.request.text)) := by
  simp only [commitSend, Option.bind_eq_bind, Option.bind_eq_some_iff] at h
  obtain ⟨messages, hm, h⟩ := h
  split at h
  next hprivate =>
    cases h
    exact ⟨hm, Or.inl ⟨hprivate, rfl⟩⟩
  next hpublic =>
    split at h
    next hsome =>
      cases h
      exact ⟨hm, Or.inr ⟨by simpa using hpublic, hsome, rfl⟩⟩
    · cases h

/-- A committed `markRead` has reset the conversation. -/
theorem commitMarkRead_eq_some {db db' : Db} {conversationId : Id}
    (h : commitMarkRead db conversationId = some db') :
    (db.conversations.find? conversationId).isSome = true ∧ db'.messages = db.messages ∧
      db'.conversations = db.conversations.updateMany (fun c => c.id = conversationId) markedRead
        keys_markedRead := by
  simp only [commitMarkRead] at h
  split at h
  next hsome =>
    cases h
    exact ⟨hsome, rfl, rfl⟩
  · cases h

/-- A committed update has written the conversation and its timeline entries. -/
theorem commitUpdate_eq_some {db db' : Db} {ch : Change} {ids : List Id} {createdAt : Date}
    (h : commitUpdate db ch ids createdAt = some db') :
    (db.conversations.find? ch.conversation.id).isSome = true ∧
      insertAll db.messages ((ids.zip ch.events).map (systemMessage ch createdAt))
        = some db'.messages ∧
      db'.conversations = db.conversations.updateMany (fun c => c.id = ch.conversation.id)
        (changed ch) (keys_changed ch) := by
  simp only [commitUpdate] at h
  split at h
  · cases h
  next hsome =>
    simp only [Option.bind_eq_bind, Option.bind_eq_some_iff] at h
    obtain ⟨messages, hm, heq⟩ := h
    cases heq
    exact ⟨by simpa [Option.isSome_iff_ne_none] using hsome, hm, rfl⟩

end Vynor.Conversations
