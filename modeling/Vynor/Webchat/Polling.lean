import Vynor.Conversations.Senders
import Vynor.Delivery.System

/-!
# The chat widget

A visitor's widget polls `WebchatService.messages` while the ingests and agents
of `Vynor.Conversations` run on the same database and `markSent` commits.  A
poll asks with the time of the last message the widget was given.  The service
looks the visitor up, reads a page of messages, marks the sent replies among
them as delivered, and answers.  The answer may be lost on its way, and a poll
may start before another one has come back.

An answer carries two things that no code reads: the visitor's messages when the
page was read, and what the widget had been given by then.
-/

namespace Vynor.Webchat

open Lib
open Conversations (Db)
open Delivery (Directory deliveredIds markFetched markSent visible)

/-- A visitor of a channel. -/
structure Visitor where
  channelId : Id
  visitorId : String
deriving DecidableEq, Repr

/-- What a poll looks up outside `messages`. -/
def directory (db : Db) : Directory where
  account := fun _ => none
  identity := fun channelId visitorId =>
    (db.identities.find? (.external channelId visitorId)).map ContactIdentity.id
  contactIdentityId := fun id => (db.conversations.find? id).map Conversation.contactIdentityId

namespace Visitor

variable (v : Visitor)

/-- The identity of the visitor. -/
def identityId (db : Db) : Option Id := (directory db).identity v.channelId v.visitorId

/-- The messages of the visitor that are not private. -/
def messages (db : Db) : List Message :=
  match v.identityId db with
  | none => []
  | some identityId => db.messages.rows.filter (visible (directory db) identityId none)

end Visitor

/-- The answer of a poll, with the visitor's messages and what the widget had
been given when its page was read. -/
structure Answer where
  rows : List Message
  seen : List Message
  before : List Id
deriving DecidableEq, Repr

def Answer.ids (answer : Answer) : List Id := answer.rows.map Message.id

/-- The time the widget would ask with after this answer. -/
def Answer.last? (answer : Answer) : Option Date := answer.rows.getLast?.map Message.createdAt

/-- Where a poll stands. -/
inductive Poll where
  | idle
  | started (after : Option Date)
  | fetching (identityId : Id) (since : Option Date)
  | delivering (answer : Answer)
  | answered (answer : Answer)
  | closed
deriving DecidableEq, Repr

/-- The page a poll has read. -/
def Poll.answer? : Poll → Option Answer
  | .delivering answer => some answer
  | .answered answer => some answer
  | _ => none

/-- The time a poll asks with, or would leave the widget with. -/
def Poll.cursor? : Poll → Option Date
  | .started after => after
  | .fetching _ since => since
  | .delivering answer => answer.last?
  | .answered answer => answer.last?
  | _ => none

abbrev PollId := Nat

/-- The database with its calls, the widget, and its polls. -/
structure World where
  base : Conversations.World
  lastSeen : Option Date
  given : List Id
  poll : PollId → Poll

abbrev World.db (w : World) : Db := w.base.db

/-- The same world with other messages. -/
def World.setMessages (w : World) (t : Messages) : World :=
  { w with base := { w.base with db := { w.base.db with messages := t } } }

/-- The same world with one poll at another point. -/
def World.setPoll (w : World) (p : PollId) (s : Poll) : World :=
  { w with poll := Function.update w.poll p s }

def World.init : World := ⟨Conversations.World.init, none, [], fun _ => .idle⟩

/-- What can happen next. -/
inductive Action where
  | conversations (a : Conversations.Action)
  | markSent (messageId : Id) (providerMessageId : Option String) (sentAt now : Date)
  | poll (p : PollId)
  | findIdentity (p : PollId)
  | fetch (p : PollId) (rows : List Message)
  | deliver (p : PollId) (now : Date)
  | receive (p : PollId)
  | lose (p : PollId)
deriving DecidableEq, Repr

/-- The `take` of a page. -/
def PAGE_SIZE : Nat := 100

/-- The point a poll reaches with its page. -/
def afterFetch (answer : Answer) : Poll :=
  if deliveredIds answer.rows = [] then .answered answer else .delivering answer

section Step

variable (v : Visitor)

/-- The lookup of the visitor's identity.  Without one there is nothing to give. -/
def afterIdentity (w : World) (after : Option Date) : Poll :=
  match v.identityId w.db with
  | none => .answered ⟨[], v.messages w.db, w.given⟩
  | some identityId => .fetching identityId after

def step (w : World) : Action → Option World
  | .conversations a => (Conversations.step w.base a).map fun base => { w with base := base }
  | .markSent messageId providerMessageId sentAt now =>
      (markSent w.db.messages messageId providerMessageId sentAt now).map w.setMessages
  | .poll p =>
      match w.poll p with
      | .idle => some (w.setPoll p (.started w.lastSeen))
      | _ => none
  | .findIdentity p =>
      match w.poll p with
      | .started after => some (w.setPoll p (afterIdentity v w after))
      | _ => none
  | .fetch p rows =>
      match w.poll p with
      | .fetching identityId since =>
          if w.db.messages.Selects (visible (directory w.db) identityId since)
              (fun a b => a.createdAt ≤ b.createdAt) PAGE_SIZE rows then
            some (w.setPoll p (afterFetch ⟨rows, v.messages w.db, w.given⟩))
          else none
      | _ => none
  | .deliver p now =>
      match w.poll p with
      | .delivering answer =>
          some ((w.setMessages (markFetched w.db.messages (deliveredIds answer.rows) now)).setPoll p
            (.answered answer))
      | _ => none
  | .receive p =>
      match w.poll p with
      | .answered answer =>
          some { (w.setPoll p .closed) with
            lastSeen := answer.last?.or w.lastSeen
            given := w.given ++ answer.ids }
      | _ => none
  | .lose p => some (w.setPoll p .closed)

def machine : Machine World Action := ⟨step v⟩

end Step

/-! ## What the visitor is -/

namespace Visitor

variable {v : Visitor} {db : Db}

theorem mem_messages {m : Message} : m ∈ v.messages db ↔
    ∃ identityId, v.identityId db = some identityId ∧ m ∈ db.messages.rows ∧
      m.isPrivate = false ∧
        ∃ c, db.conversations.find? m.conversationId = some c ∧
          c.contactIdentityId = identityId := by
  unfold messages
  cases v.identityId db with
  | none => simp
  | some identityId =>
      simp only [List.mem_filter, visible, directory, Bool.and_eq_true, decide_eq_true_eq,
        Option.map_eq_some_iff, and_true, Option.some.injEq, exists_eq_left']
      tauto

/-- A page reads messages of the visitor, later than the time it asks with. -/
theorem visible_iff {identityId : Id} {since : Option Date} {m : Message}
    (hidentity : v.identityId db = some identityId) (hm : m ∈ db.messages.rows) :
    visible (directory db) identityId since m = true ↔
      m ∈ v.messages db ∧ ∀ t, since = some t → t < m.createdAt := by
  rw [messages, hidentity]
  simp only [List.mem_filter, hm, true_and]
  cases since with
  | none => simp [visible]
  | some t => simp [visible]

end Visitor

end Vynor.Webchat
