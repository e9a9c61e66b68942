import Vynor.Conversations.Audit
import Vynor.Conversations.Inbox
import Vynor.Iam.Guards

/-!
# The routes of the conversations

`ConversationsController` behind the guards, on the database that ingests write to
as well.  A request is cut at its queries.  Between two of them messages come in,
other requests go on, and users, memberships and roles change in any way.

A handler that writes begins one of the calls of the world, which goes on by itself.
-/

namespace Vynor.Conversations

open Lib (Machine Table)

/-! ## The routes -/

/-- The handlers of `ConversationsController`, with their parsed parameters. -/
inductive Route where
  | list (query : ListConversationsQuery)
  | get (id : Id)
  | update (id : Id) (body : UpdateConversationRequest)
  | markRead (id : Id)
  | messages (id : Id) (query : ListMessagesQuery)
  | send (id : Id) (body : SendMessageRequest)

/-- `RequirePermissions` of the handler. -/
def Route.requiredPermissions : Route → List String
  | .list _ => ["conversation:read"]
  | .get _ => ["conversation:read"]
  | .update _ _ => ["conversation:write"]
  | .markRead _ => ["conversation:read"]
  | .messages _ _ => ["message:read"]
  | .send _ _ => ["message:send"]

/-- The metadata of the handler.  Its class has none. -/
def Route.metadata (route : Route) : Iam.Metadata :=
  Iam.Metadata.override { requiredPermissions := some route.requiredPermissions } {}

/-- What the service reads of an actor. -/
def agentOf (actor : Iam.ActorContext) : Actor where
  workspaceId := actor.workspace.id
  membershipId := actor.membership.id
  displayName := actor.user.displayName
  canAssign := Iam.hasPermission actor.permissions "conversation:assign"
  canClose := Iam.hasPermission actor.permissions "conversation:close"

/-- The member that `update` looks for. -/
def findMember (directory : Iam.Database) (actor : Actor) (request : UpdateConversationRequest) :
    Option (Id × String) :=
  (truthy request.assigneeMembershipId.join).bind fun id =>
    ((directory.memberships.find? (.id id)).filter fun m =>
        m.workspaceId = actor.workspaceId && m.status = .active && m.deletedAt.isNone).bind fun m =>
      (directory.users.find? (.id m.userProfileId)).map fun u => (m.id, u.displayName)

/-! ## The server -/

abbrev RequestId := Nat

/-- How a request ends. -/
inductive Outcome where
  | refused (response : Iam.ErrorResponse)
  | threw
  | conversations (shown : List Conversation) (nextCursor : Option String)
  | messages (conversationId : Id) (page : MessagePage Message)
  /-- A call that writes was begun. -/
  | began (i : CallId)
deriving DecidableEq, Repr

/-- Where a request stands. -/
inductive Standing where
  | idle
  | authenticated (route : Route) (auth : Iam.Authentication)
  | userFound (route : Route) (auth : Iam.Authentication) (user : Iam.UserProfile)
  | workspaceFound (route : Route) (auth : Iam.Authentication) (user : Iam.UserProfile)
      (workspaceId : Id)
  | admitted (route : Route) (actor : Iam.ActorContext)
  | ended (outcome : Outcome)

/-- The tables of the guards, those of the conversations, and the requests.  The
conversations of the directory are not used. -/
structure Server where
  directory : Iam.Database
  world : World
  standing : RequestId → Standing

/-- The same server with one request at another point. -/
def Server.move (s : Server) (r : RequestId) (standing : Standing) : Server :=
  { s with standing := Function.update s.standing r standing }

inductive ServerAction where
  | request (r : RequestId) (route : Route) (headers : Iam.Headers) (now : Date)
      (generated : String)
  | readUser (r : RequestId) (now : Date)
  | readWorkspace (r : RequestId) (found : Option Iam.Workspace) (now : Date)
  | readMembership (r : RequestId) (now : Date)
  /-- The handlers that only read. -/
  | read (r : RequestId)
  | markRead (r : RequestId) (i : CallId)
  | send (r : RequestId) (i : CallId) (channel : ProviderAccount) (id : Id) (now : Date)
  | update (r : RequestId) (i : CallId) (now : Date)
  /-- A query fails, or the parameters do not parse. -/
  | throws (r : RequestId)
  /-- An ingest, or a call that was begun, goes on. -/
  | work (a : Action)
  /-- Users, workspaces, memberships and roles change. -/
  | administer (directory : Iam.Database)

/-- The calls that the routes begin. -/
def Action.isAgents : Action → Bool
  | .markRead _ _ _ => true
  | .send _ _ _ _ _ _ _ => true
  | .update _ _ _ _ _ _ => true
  | _ => false

/-- What the API is made with. -/
structure Api (ω : Type) where
  jwt : Iam.JwtVerifier
  collation : Collation ω
  search : Search
  dates : Dates

namespace Api

variable {ω : Type} [LinearOrder ω] (S : Api ω)

/-- The point after a lookup of `resolveActorContext`. -/
def afterLookup {α : Type} (auth : Iam.Authentication) (now : Date) (next : α → Standing) :
    Except Iam.IamException α → Standing
  | .ok a => next a
  | .error exception => .ended (.refused (auth.refuse now exception))

/-- The end of the handlers that only read. -/
def readOutcome (db : Db) (actor : Actor) : Route → Option Outcome
  | .list query =>
      some (match list S.collation id S.search db actor query with
        | some page => .conversations page.data page.nextCursor
        | none => .threw)
  | .get id =>
      some (match findConversation db actor id with
        | some c => .conversations [c] none
        | none => .threw)
  | .messages id query =>
      some (match listMessages S.collation (fun m => m) S.dates db actor id query with
        | .ok page => .messages id page
        | .error _ => .threw)
  | _ => none

/-- The server after a handler began a call. -/
def begin (s : Server) (r : RequestId) (i : CallId) (a : Action) : Option Server :=
  (Conversations.step s.world a).map fun world =>
    { s.move r (.ended (.began i)) with world := world }

def step (s : Server) : ServerAction → Option Server
  | .request r route headers now generated =>
      match s.standing r with
      | .idle =>
          some (s.move r (match Iam.authenticate S.jwt now generated headers with
            | .ok auth => .authenticated route auth
            | .error response => .ended (.refused response)))
      | _ => none
  | .readUser r now =>
      match s.standing r with
      | .authenticated route auth =>
          some (s.move r (match auth.sub with
            | none => .ended .threw
            | some sub =>
                afterLookup auth now (.userFound route auth) (Iam.activeUser s.directory sub)))
      | _ => none
  | .readWorkspace r found now =>
      match s.standing r with
      | .userFound route auth user =>
          if auth.workspaceIdentifier.all fun identifier => s.directory.finds identifier found then
            some (s.move r (afterLookup auth now (.workspaceFound route auth user)
              (Iam.targetWorkspaceId s.directory user auth.workspaceIdentifier found)))
          else none
      | _ => none
  | .readMembership r now =>
      match s.standing r with
      | .workspaceFound route auth user workspaceId =>
          some (s.move r (afterLookup auth now
            (fun membership =>
              let actor := Iam.actorContext user (s.directory.workspace membership.2) membership.1
                auth.correlationId
              match Iam.permit route.metadata (some actor) (some auth.correlationId) now with
              | .ok () => .admitted route actor
              | .error response => .ended (.refused response))
            (Iam.activeMembership s.directory workspaceId user.id)))
      | _ => none
  | .read r =>
      match s.standing r with
      | .admitted route actor =>
          (S.readOutcome s.world.db (agentOf actor) route).map fun outcome =>
            s.move r (.ended outcome)
      | _ => none
  | .markRead r i =>
      match s.standing r with
      | .admitted (.markRead id) actor => begin s r i (.markRead i (agentOf actor) id)
      | _ => none
  | .send r i channel id now =>
      match s.standing r with
      | .admitted (.send conversationId body) actor =>
          begin s r i (.send i (agentOf actor) channel conversationId body id now)
      | _ => none
  | .update r i now =>
      match s.standing r with
      | .admitted (.update id body) actor =>
          begin s r i (.update i (agentOf actor) id body
            (findMember s.directory (agentOf actor) body) now)
      | _ => none
  | .throws r =>
      match s.standing r with
      | .idle => none
      | .ended _ => none
      | _ => some (s.move r (.ended .threw))
  | .work a =>
      if a.isAgents then none
      else (Conversations.step s.world a).map fun world => { s with world := world }
  | .administer directory => some { s with directory := directory }

def machine : Machine Server ServerAction := { step := S.step }

end Api

/-- No request has been made and no call begun. -/
def Server.start (directory : Iam.Database) (db : Db) : Server where
  directory := directory
  world := .start db
  standing := fun _ => .idle

end Vynor.Conversations
