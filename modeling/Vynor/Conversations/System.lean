import Vynor.Conversations.Agents
import Vynor.Lib.Machine

/-!
# Ingests and agents on one database

Any number of `ingestMessage`, `sendMessage`, `markRead` and `update` calls run
against one database.  A call is cut at its reads: under `READ COMMITTED` each
read sees what has committed by then and takes no lock, and the writes of a
transaction take effect together, on the rows as they are when it commits.

An ingest looks for a stored copy, waits for the advisory lock of its sender,
reads the sender, the conversation and the reply target, and commits.  A
transaction may fail at any point and then writes nothing; `withTransaction`
repeats it after a deadlock or serialization failure, at most `maxRetries`
times.  A unique violation at the commit leads to a second look for a stored
copy (`violated`).

`log` is the history of committed transactions, latest first.  No call reads
it.
-/

namespace Vynor.Conversations

open Lib (Table Machine)

/-- A committed transaction on a conversation.  An update carries the two states
of its audit record. -/
inductive Entry where
  | ingested (conversationId messageId : Id)
  | sent (conversationId messageId : Id) (now : Date) (isPrivate : Bool)
  | markedRead (conversationId : Id)
  | updated (conversationId : Id) (before after : ConversationStatus × Option Id)
deriving DecidableEq, Repr

/-- The conversation of a committed transaction. -/
def Entry.conversationId : Entry → Id
  | .ingested c _ => c
  | .sent c _ _ _ => c
  | .markedRead c => c
  | .updated c _ _ => c

/-- Where a call stands. -/
inductive Call where
  | idle
  | waiting (request : IngestRequest) (attempt : Nat)
  | locked (request : IngestRequest) (attempt : Nat)
  | resolving (tx : IngestTx)
  | threading (tx : IngestTx) (target : String)
  | targeted (tx : IngestTx) (conversationId : Id)
  | resolved (tx : IngestTx) (conversation : Option Conversation)
  | writing (tx : IngestTx) (conversation : Option Conversation) (replyTo : Option Id)
  | violated (request : IngestRequest)
  | ingested (request : IngestRequest) (result : IngestResult)
  | marking (conversationId : Id)
  | sending (draft : Draft)
  | updating (change : Change)
  | returned
  | threw
deriving DecidableEq, Repr

/-- The call has resolved or rejected. -/
def Call.ended : Call → Bool
  | .ingested _ _ => true
  | .returned => true
  | .threw => true
  | _ => false

/-- The request and the attempt of a call that holds the advisory lock. -/
def Call.transaction? : Call → Option (IngestRequest × Nat)
  | .locked request attempt => some (request, attempt)
  | .resolving tx => some (tx.request, tx.attempt)
  | .threading tx _ => some (tx.request, tx.attempt)
  | .targeted tx _ => some (tx.request, tx.attempt)
  | .resolved tx _ => some (tx.request, tx.attempt)
  | .writing tx _ _ => some (tx.request, tx.attempt)
  | _ => none

abbrev CallId := Nat

/-- The key of the advisory lock: the channel and the sender. -/
abbrev LockKey := Id × String

def IngestRequest.lockKey (request : IngestRequest) : LockKey :=
  (request.channel.id, request.message.sender.identifier)

structure World where
  db : Db
  locks : List LockKey
  call : CallId → Call
  log : List Entry

/-- The same world with one call at another point. -/
def World.setCall (w : World) (i : CallId) (c : Call) : World :=
  { w with call := Function.update w.call i c }

/-- The same world with one call past its commit. -/
def World.commit (w : World) (i : CallId) (c : Call) (db : Db) (e : Entry) : World :=
  { w.setCall i c with db := db, log := e :: w.log }

/-- The same world without a lock. -/
def World.unlock (w : World) (key : LockKey) : World := { w with locks := w.locks.erase key }

/-- `maxRetries` of `withTransaction`. -/
def MAX_RETRIES : Nat := 3

/-- The point an ingest reaches when its transaction has failed. -/
def afterFailure (request : IngestRequest) (attempt : Nat) (retryable : Bool) : Call :=
  if retryable = true ∧ attempt ≤ MAX_RETRIES then .waiting request (attempt + 1) else .threw

/-- The point an ingest reaches after a look for a stored copy. -/
def afterLookup (found : Option IngestResult) (request : IngestRequest) (otherwise : Call) : Call :=
  match found with
  | some result => .ingested request result
  | none => otherwise

/-- The entry of a conversation after an email thread was looked up. -/
def afterThread (tx : IngestTx) : List Conversation → Call
  | c :: _ => .resolved tx (some c)
  | [] =>
      match tx.request.message.replyTarget with
      | some target => .threading tx target
      | none => .resolved tx none

/-- The reply target of an ingest. -/
def replyTarget (db : Db) (tx : IngestTx) : Option Id :=
  tx.request.message.replyTarget.bind fun target =>
    (db.messages.find? (.provider tx.request.channel.id target)).map Message.id

/-- What can happen next, and what the environment answers. -/
inductive Action where
  | ingest (i : CallId) (request : IngestRequest)
  | lock (i : CallId)
  | readSender (i : CallId) (now : Date) (contactId identityId : Id)
  | readOpen (i : CallId) (found : List Conversation)
  | readThread (i : CallId) (found : List Conversation)
  | readTarget (i : CallId)
  | readConversation (i : CallId)
  | readReplyTarget (i : CallId)
  | commitIngest (i : CallId) (conversationId : Id) (createdAt : Date) (assignee : Option Id)
  | lookAgain (i : CallId)
  | markRead (i : CallId) (actor : Actor) (conversationId : Id)
  | commitMarkRead (i : CallId)
  | send (i : CallId) (actor : Actor) (channel : ProviderAccount) (conversationId : Id)
      (request : SendMessageRequest) (id : Id) (now : Date)
  | commitSend (i : CallId) (createdAt : Date)
  | update (i : CallId) (actor : Actor) (conversationId : Id) (request : UpdateConversationRequest)
      (member : Option (Id × String)) (now : Date)
  | commitUpdate (i : CallId) (ids : List Id) (createdAt : Date)
  | fails (i : CallId) (retryable : Bool)
deriving DecidableEq, Repr

/-- The call an action moves. -/
def Action.call : Action → CallId
  | .ingest i _ => i
  | .lock i => i
  | .readSender i _ _ _ => i
  | .readOpen i _ => i
  | .readThread i _ => i
  | .readTarget i => i
  | .readConversation i => i
  | .readReplyTarget i => i
  | .commitIngest i _ _ _ => i
  | .lookAgain i => i
  | .markRead i _ _ => i
  | .commitMarkRead i => i
  | .send i _ _ _ _ _ _ => i
  | .commitSend i _ => i
  | .update i _ _ _ _ _ => i
  | .commitUpdate i _ _ => i
  | .fails i _ => i

/-- The commit of an ingest.  Where an insert finds a key taken, the transaction
fails with a unique violation.  No statement deletes the conversation it read. -/
def stepCommitIngest (w : World) (i : CallId) (conversationId : Id) (createdAt : Date)
    (assignee : Option Id) : Option World :=
  match w.call i with
  | .writing tx read replyTo =>
      let fresh := newConversation tx.request tx.sender conversationId createdAt assignee
      match ingestInTransaction w.db tx read replyTo fresh with
      | some (db, result) =>
          some ((w.commit i (.ingested tx.request result) db
            (.ingested result.conversationId result.messageId)).unlock tx.request.lockKey)
      | none => some ((w.setCall i (.violated tx.request)).unlock tx.request.lockKey)
  | _ => none

/-- The failure of a call at the point where it stands. -/
def stepFails (w : World) (i : CallId) (retryable : Bool) : Option World :=
  match (w.call i).transaction? with
  | some (request, attempt) =>
      some ((w.setCall i (afterFailure request attempt retryable)).unlock request.lockKey)
  | none =>
      match w.call i with
      | .waiting request attempt => some (w.setCall i (afterFailure request attempt retryable))
      | c => if c.ended then none else some (w.setCall i .threw)

/-- One action. -/
def step (w : World) : Action → Option World
  | .ingest i request =>
      match w.call i with
      | .idle =>
          some (w.setCall i
            (afterLookup (findDuplicate w.db.messages request) request (.waiting request 1)))
      | _ => none
  | .lock i =>
      match w.call i with
      | .waiting request attempt =>
          if request.lockKey ∈ w.locks then none
          else
            some { w.setCall i (.locked request attempt) with
              locks := request.lockKey :: w.locks }
      | _ => none
  | .readSender i now contactId identityId =>
      match w.call i with
      | .locked request attempt =>
          some (w.setCall i
            (.resolving ⟨request, attempt, now, findSender w.db request contactId identityId⟩))
      | _ => none
  | .readOpen i found =>
      match w.call i with
      | .resolving tx =>
          if truthy tx.request.message.threadId = none ∧
              w.db.conversations.Selects (openFor tx.request.channel.id tx.sender.identityId)
                latestFirst 1 found then
            some (w.setCall i (.resolved tx found.head?))
          else none
      | _ => none
  | .readThread i found =>
      match w.call i with
      | .resolving tx =>
          match truthy tx.request.message.threadId with
          | none => none
          | some threadId =>
              if w.db.conversations.Selects (inThread tx.request.channel.id threadId) newestFirst 1
                  found then
                some (w.setCall i (afterThread tx found))
              else none
      | _ => none
  | .readTarget i =>
      match w.call i with
      | .threading tx target =>
          match w.db.messages.find? (.provider tx.request.channel.id target) with
          | some m => some (w.setCall i (.targeted tx m.conversationId))
          | none => some (w.setCall i (.resolved tx none))
      | _ => none
  | .readConversation i =>
      match w.call i with
      | .targeted tx conversationId =>
          some (w.setCall i (.resolved tx (w.db.conversations.find? conversationId)))
      | _ => none
  | .readReplyTarget i =>
      match w.call i with
      | .resolved tx conversation =>
          some (w.setCall i (.writing tx conversation (replyTarget w.db tx)))
      | _ => none
  | .commitIngest i conversationId createdAt assignee =>
      stepCommitIngest w i conversationId createdAt assignee
  | .lookAgain i =>
      match w.call i with
      | .violated request =>
          some (w.setCall i (afterLookup (findDuplicate w.db.messages request) request .threw))
      | _ => none
  | .markRead i actor conversationId =>
      match w.call i with
      | .idle =>
          match findConversation w.db actor conversationId with
          | none => some (w.setCall i .threw)
          | some c =>
              some (w.setCall i (if c.unreadCount = 0 then .returned else .marking c.id))
      | _ => none
  | .commitMarkRead i =>
      match w.call i with
      | .marking conversationId =>
          (commitMarkRead w.db conversationId).map fun db =>
            w.commit i .returned db (.markedRead conversationId)
      | _ => none
  | .send i actor channel conversationId request id now =>
      match w.call i with
      | .idle =>
          match findConversation w.db actor conversationId with
          | none => some (w.setCall i .threw)
          | some c =>
              if channel.id = c.providerAccountId then
                some (w.setCall i
                  (if canSend w.db channel c.id request then .sending ⟨actor, c, request, id, now⟩
                    else .threw))
              else none
      | _ => none
  | .commitSend i createdAt =>
      match w.call i with
      | .sending d =>
          (commitSend w.db d createdAt).map fun db =>
            w.commit i .returned db (.sent d.conversation.id d.id d.now d.request.isPrivate)
      | _ => none
  | .update i actor conversationId request member now =>
      match w.call i with
      | .idle =>
          match findConversation w.db actor conversationId with
          | none => some (w.setCall i .threw)
          | some c =>
              match planUpdate actor c request member now with
              | none => some (w.setCall i .threw)
              | some ch => some (w.setCall i (if ch.events = [] then .returned else .updating ch))
      | _ => none
  | .commitUpdate i ids createdAt =>
      match w.call i with
      | .updating ch =>
          if ids.length = ch.events.length then
            (commitUpdate w.db ch ids createdAt).map fun db =>
              w.commit i .returned db
                (.updated ch.conversation.id (auditBefore ch) (auditAfter ch))
          else none
      | _ => none
  | .fails i retryable => stepFails w i retryable

/-- Ingests and agents as a machine. -/
def machine : Machine World Action := ⟨step⟩

@[simp] theorem machine_step (w : World) (a : Action) : machine.step w a = step w a := rfl

/-- Tables without rows, and no call. -/
def World.init : World := ⟨⟨.empty, .empty, .empty, .empty⟩, [], fun _ => .idle, []⟩

/-! ## One visitor -/

/-- A message of one visitor. -/
def exampleRequest (messageId : Id) (providerMessageId : String) (timestamp : Date) :
    IngestRequest where
  channel := exampleChannel
  message := { providerMessageId := providerMessageId, sender := { identifier := "visitor" },
               timestamp := timestamp, content := .text "Hello" }
  providerEventId := messageId
  messageId := messageId

/-- An ingest of such a message that finds these open conversations, without
interruption.  `id` and `now` stand for the ids and times the run needs. -/
def exampleIngest (i : CallId) (request : IngestRequest) (id : Id) (now : Date)
    (found : List Conversation) : List Action :=
  [.ingest i request, .lock i, .readSender i now "contact" "identity", .readOpen i found,
    .readReplyTarget i, .commitIngest i id now none]

/-- The conversation after the visitor's first message. -/
def exampleConversation : Conversation :=
  let fresh := newConversation (exampleRequest "e1" "p1" 1) ⟨"identity", "contact", none⟩ "c" 2 none
  counted fresh 1 "Hello" fresh

section SetCall

variable (w : World) (i : CallId) (c : Call) (db : Db) (e : Entry) (key : LockKey)

@[simp] theorem World.setCall_db : (w.setCall i c).db = w.db := rfl

@[simp] theorem World.setCall_log : (w.setCall i c).log = w.log := rfl

@[simp] theorem World.setCall_self : (w.setCall i c).call i = c := by
  simp [World.setCall]

@[simp] theorem World.commit_db : (w.commit i c db e).db = db := rfl

@[simp] theorem World.commit_log : (w.commit i c db e).log = e :: w.log := rfl

@[simp] theorem World.commit_call : (w.commit i c db e).call = (w.setCall i c).call := rfl

@[simp] theorem World.unlock_db : (w.unlock key).db = w.db := rfl

@[simp] theorem World.unlock_log : (w.unlock key).log = w.log := rfl

@[simp] theorem World.unlock_call : (w.unlock key).call = w.call := rfl

end SetCall

theorem World.setCall_other (w : World) {i j : CallId} (c : Call) (h : j ≠ i) :
    (w.setCall i c).call j = w.call j := by
  simp [World.setCall, h]

end Vynor.Conversations
