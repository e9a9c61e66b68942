import Vynor.Iam.ActorContext
import Vynor.Lib.Json
import Vynor.Lib.Machine

/-!
# The realtime gateway

The handlers of `RealtimeGateway` on one socket, in any order and any number.
The handshake of a socket stays what it was when it connected.

The gateway checks the membership of the workspace it finds under the
handshake's identifier, which may be an id or a slug, and joins the room of the
identifier itself.
-/

namespace Vynor.Realtime

open Lib
open Iam (ActorContext Database Workspace hasPermission resolveActorContext)

/-! ## Rooms -/

/-- `ROOM_ID_PATTERN`. -/
def isRoomId (id : String) : Bool :=
  id ≠ "" && id.toList.all fun c => c.isAlphanum || c = '_' || c = '-'

/-- The name of a workspace's room. -/
def workspaceRoom (workspaceId : String) : String := "workspace:" ++ workspaceId

/-- The name of a conversation's room. -/
def conversationRoom (conversationId : String) : String := "conversation:" ++ conversationId

/-- `workspaceRoomName`, which throws on an id outside the pattern. -/
def workspaceRoomName (workspaceId : String) : Option String :=
  if isRoomId workspaceId then some (workspaceRoom workspaceId) else none

/-- `conversationRoomName`. -/
def conversationRoomName (conversationId : String) : Option String :=
  if isRoomId conversationId then some (conversationRoom conversationId) else none

theorem workspaceRoom_inj {a b : String} : workspaceRoom a = workspaceRoom b ↔ a = b := by
  constructor
  · intro h
    have hlist := congrArg String.toList h
    rw [workspaceRoom, workspaceRoom, String.toList_append, String.toList_append] at hlist
    exact String.toList_inj.mp (List.append_cancel_left hlist)
  · exact congrArg workspaceRoom

theorem conversationRoom_inj {a b : String} :
    conversationRoom a = conversationRoom b ↔ a = b := by
  constructor
  · intro h
    have hlist := congrArg String.toList h
    rw [conversationRoom, conversationRoom, String.toList_append, String.toList_append] at hlist
    exact String.toList_inj.mp (List.append_cancel_left hlist)
  · exact congrArg conversationRoom

/-- No room is of both kinds. -/
theorem workspaceRoom_ne_conversationRoom {a b : String} :
    workspaceRoom a ≠ conversationRoom b := by
  intro h
  have hlist := congrArg (fun s => s.toList.head?) h
  simp [workspaceRoom, conversationRoom, String.toList_append] at hlist

/-! ## The socket -/

/-- `RealtimeHandshakeAuth`. -/
structure HandshakeAuth where
  accessToken : String
  workspaceId : String
  clientVersion : Option String
  lastSeenEventId : Option String
deriving DecidableEq, Repr

/-- A string that is there and not empty. -/
def nonemptyString : Option Json → Option String
  | some (.string value) => if value = "" then none else some value
  | _ => none

/-- A string that may be missing: `none` where the value is refused. -/
def optionalString (accepts : String → Bool) : Option Json → Option (Option String)
  | none => some none
  | some (.string value) => if accepts value then some (some value) else none
  | some _ => none

def isClientVersion (value : String) : Bool := value ≠ "" && (codeUnits value).length ≤ 64

/-- `RealtimeHandshakeAuthSchema`. -/
def parseHandshake (isUuid : String → Bool) (auth : Json) : Option HandshakeAuth :=
  match auth with
  | .object members => do
      let accessToken ← nonemptyString (Json.Members.get? members "accessToken")
      let workspaceId ← nonemptyString (Json.Members.get? members "workspaceId")
      let clientVersion ← optionalString isClientVersion
        (Json.Members.get? members "clientVersion")
      let lastSeenEventId ← optionalString isUuid (Json.Members.get? members "lastSeenEventId")
      some ⟨accessToken, workspaceId, clientVersion, lastSeenEventId⟩
  | _ => none

/-- `RealtimeAuthErrorCode`, as far as the gateway sends it. -/
inductive AuthErrorCode where
  | tokenMissing
  | tokenInvalid
  | workspaceAccessDenied
deriving DecidableEq, Repr

/-- `RealtimeResyncReason`. -/
inductive ResyncReason where
  | initialConnection
  | reconnected
deriving DecidableEq, Repr

/-- `RealtimeResyncResource`, as far as the gateway sends it. -/
inductive ResyncResource where
  | conversationList
  | notifications
  | conversationDetail
  | messages
deriving DecidableEq, Repr

/-- `RealtimeResyncInstruction`. -/
structure ResyncInstruction where
  schemaVersion : Nat := 1
  reason : ResyncReason
  resources : List ResyncResource
  serverTime : Date
  workspaceId : String
  conversationId : Option String := none
  lastSeenEventId : Option String := none
deriving DecidableEq, Repr

/-- What a socket is sent. -/
inductive Emission where
  | resync (instruction : ResyncInstruction)
  | authError (code : AuthErrorCode) (message : String) (timestamp : Date)
deriving DecidableEq, Repr

/-- `RealtimeSocketContext`. -/
structure SocketContext where
  socketId : String
  actor : ActorContext
  authenticatedAt : Date
  joinedRooms : List String
deriving DecidableEq, Repr

/-- A socket: the rooms it is in, and what the gateway keeps with it. -/
structure Socket where
  id : String
  context : Option SocketContext := none
  rooms : List String := []
  connected : Bool := true
  emitted : List Emission := []
deriving DecidableEq, Repr

/-- The actor of a socket. -/
def Socket.actor (s : Socket) : Option ActorContext := s.context.map SocketContext.actor

/-- `socket.join`. -/
def Socket.join (s : Socket) (room : String) : Socket :=
  { s with rooms := if room ∈ s.rooms then s.rooms else s.rooms ++ [room] }

/-- `socket.leave`. -/
def Socket.leave (s : Socket) (room : String) : Socket :=
  { s with rooms := s.rooms.filter (· ≠ room) }

def Socket.emit (s : Socket) (emission : Emission) : Socket :=
  { s with emitted := s.emitted ++ [emission] }

@[simp] theorem Socket.mem_rooms_join {s : Socket} {room r : String} :
    r ∈ (s.join room).rooms ↔ r ∈ s.rooms ∨ r = room := by
  simp only [Socket.join]
  split
  · next hmem =>
      constructor
      · exact Or.inl
      · rintro (h | rfl)
        · exact h
        · exact hmem
  · rw [List.mem_append, List.mem_singleton]

@[simp] theorem Socket.mem_rooms_leave {s : Socket} {room r : String} :
    r ∈ (s.leave room).rooms ↔ r ∈ s.rooms ∧ r ≠ room := by
  simp [Socket.leave]

/-- `rejectConnection`.  A disconnected socket is in no room. -/
def Socket.rejectConnection (s : Socket) (code : AuthErrorCode) (message : String) (now : Date) :
    Socket :=
  { s.emit (.authError code message now) with rooms := [], connected := false }

/-! ## The handlers -/

/-- What the handlers of one socket work with: the tables, its handshake, the
verifier of tokens, and the text a template makes of a JSON value. -/
structure Gateway where
  db : Database
  auth : Json
  verify : Date → String → Option String
  isUuid : String → Bool
  text : Json → String
  text_string : ∀ value, text (.string value) = value

namespace Gateway

variable (G : Gateway)

/-- The handshake of the socket. -/
def handshake : Option HandshakeAuth := parseHandshake G.isUuid G.auth

/-- `handleConnection`.  `found` is what the lookup by id or slug returned, or
`none` where a query failed. -/
def handleConnection (s : Socket) (now : Date) (found : Option (Option Workspace)) : Socket :=
  match G.handshake with
  | none =>
      s.rejectConnection .tokenMissing "Invalid or missing handshake authentication." now
  | some auth =>
      match G.verify now auth.accessToken with
      | none => s.rejectConnection .tokenInvalid "Access token is invalid or expired." now
      | some supabaseAuthId =>
          let denied := s.rejectConnection .workspaceAccessDenied
            "Actor has no active membership in requested workspace." now
          match found with
          | none => denied
          | some found =>
              match resolveActorContext G.db supabaseAuthId (some auth.workspaceId) found
                ("req_" ++ toString now) with
              | .error _ => denied
              | .ok actor =>
                  match workspaceRoomName auth.workspaceId with
                  | none => denied
                  | some wsRoom =>
                      let context : SocketContext :=
                        { socketId := s.id
                          actor := actor
                          authenticatedAt := now
                          joinedRooms := [wsRoom] }
                      ({ s with context := some context }.join wsRoom).emit <| .resync
                        { reason :=
                            if auth.lastSeenEventId.isSome then .reconnected else .initialConnection
                          resources := [.conversationList, .notifications]
                          serverTime := now
                          workspaceId := auth.workspaceId
                          lastSeenEventId := auth.lastSeenEventId }

/-- `handleJoinConversation`, with its answer.  `queried` is false where the
query failed. -/
def handleJoinConversation (s : Socket) (payload : Json) (now : Date) (queried : Bool) :
    Socket × Except String Unit :=
  match s.context with
  | none => (s, .error "Unauthorized")
  | some context =>
      match nonemptyString (payload.property? "conversationId") with
      | none => (s, .error "Invalid conversationId")
      | some conversationId =>
          if !hasPermission context.actor.permissions "conversation:read" then
            (s, .error "Forbidden: missing conversation:read permission")
          else if !queried then (s, .error "Failed to join conversation room")
          else
            match G.db.conversations.rows.find? fun c =>
              c.id = conversationId ∧ c.workspaceId = context.actor.workspace.id with
            | none => (s, .error "Conversation not found")
            | some _ =>
                match conversationRoomName conversationId with
                | none => (s, .error "Failed to join conversation room")
                | some room =>
                    let joinedRooms :=
                      if room ∈ context.joinedRooms then context.joinedRooms
                      else context.joinedRooms ++ [room]
                    let joined := { s.join room with
                      context := some { context with joinedRooms := joinedRooms } }
                    (joined.emit <| .resync
                      { reason := .initialConnection
                        resources := [.conversationDetail, .messages]
                        serverTime := now
                        workspaceId := context.actor.workspace.id
                        conversationId := some conversationId }, .ok ())

/-- `handleLeaveConversation`, with its answer. -/
def handleLeaveConversation (s : Socket) (payload : Json) : Socket × Bool :=
  match s.context, payload.property? "conversationId" with
  | some context, some conversationId =>
      if !conversationId.truthy then (s, false)
      else
        match conversationRoomName (G.text conversationId) with
        | none => (s, false)
        | some room =>
            let left := { context with joinedRooms := context.joinedRooms.erase room }
            ({ s.leave room with context := some left }, true)
  | _, _ => (s, false)

/-! ## Any sequence of calls -/

/-- A call of a handler. -/
inductive Call where
  | handleConnection (now : Date) (found : Option (Option Workspace))
  | handleJoinConversation (payload : Json) (now : Date) (queried : Bool)
  | handleLeaveConversation (payload : Json)

/-- The lookup of a connection can return this. -/
def finds (found : Option (Option Workspace)) : Bool :=
  G.handshake.all fun auth => found.all (G.db.finds auth.workspaceId)

def step (s : Socket) : Call → Option Socket
  | .handleConnection now found =>
      if G.finds found then some (G.handleConnection s now found) else none
  | .handleJoinConversation payload now queried =>
      some (G.handleJoinConversation s payload now queried).1
  | .handleLeaveConversation payload => some (G.handleLeaveConversation s payload).1

def machine : Machine Socket Call := ⟨G.step⟩

/-! ## One connection -/

/-- The actor of a connection that is admitted: the handshake is well formed, its
token is verified, and the actor is resolved in the workspace that was found. -/
structure Admits (now : Date) (found : Option (Option Workspace)) (auth : HandshakeAuth)
    (supabaseAuthId : String) (w : Workspace) (actor : ActorContext) : Prop where
  handshake : G.handshake = some auth
  verified : G.verify now auth.accessToken = some supabaseAuthId
  found : found = some (some w)
  resolved : resolveActorContext G.db supabaseAuthId (some auth.workspaceId) (some w)
    ("req_" ++ toString now) = .ok actor
  roomId : isRoomId auth.workspaceId = true

variable {G}

theorem workspaceId_ne_empty {auth : HandshakeAuth} (h : G.handshake = some auth) :
    auth.workspaceId ≠ "" := by
  unfold handshake parseHandshake at h
  split at h
  · simp only [Option.bind_eq_bind, Option.bind_eq_some_iff] at h
    obtain ⟨accessToken, _, workspaceId, hworkspaceId, _, _, _, _, heq⟩ := h
    cases heq
    unfold nonemptyString at hworkspaceId
    split at hworkspaceId
    · split at hworkspaceId
      · cases hworkspaceId
      · next hne =>
          cases hworkspaceId
          exact hne
    · cases hworkspaceId
  · cases h

section Admits

variable {now : Date} {found : Option (Option Workspace)} {auth : HandshakeAuth}
  {supabaseAuthId : String} {w : Workspace} {actor : ActorContext}

/-- An admitted actor is an active member of the workspace that was found. -/
theorem Admits.acts (h : G.Admits now found auth supabaseAuthId w actor) :
    G.db.Acts supabaseAuthId actor ∧ w.id = actor.workspace.id := by
  obtain ⟨hacts, w', hw, hid⟩ := Iam.acts_of_resolve (workspaceId_ne_empty h.handshake) h.resolved
  cases hw
  exact ⟨hacts, hid⟩

/-- An admitted connection joins the room of the handshake's identifier. -/
theorem Admits.joins (h : G.Admits now found auth supabaseAuthId w actor) (s : Socket) :
    (G.handleConnection s now found).actor = some actor ∧
      ∀ r, r ∈ (G.handleConnection s now found).rooms ↔
        r ∈ s.rooms ∨ r = workspaceRoom auth.workspaceId := by
  simp only [handleConnection, h.handshake, h.verified, h.found, h.resolved, workspaceRoomName,
    h.roomId, if_true]
  exact ⟨rfl, fun r => Socket.mem_rooms_join⟩

end Admits

/-- A connection is admitted or rejected. -/
theorem admits_or_rejected (s : Socket) (now : Date) (found : Option (Option Workspace)) :
    (∃ auth supabaseAuthId w actor, G.Admits now found auth supabaseAuthId w actor) ∨
      ∃ code message, G.handleConnection s now found = s.rejectConnection code message now := by
  unfold handleConnection
  split
  · exact Or.inr ⟨_, _, rfl⟩
  · next auth hauth =>
      split
      · exact Or.inr ⟨_, _, rfl⟩
      · next supabaseAuthId hverify =>
          split
          · exact Or.inr ⟨_, _, rfl⟩
          · next found =>
              split
              · exact Or.inr ⟨_, _, rfl⟩
              · next actor hactor =>
                  split
                  · exact Or.inr ⟨_, _, rfl⟩
                  · next wsRoom hroom =>
                      obtain ⟨_, w, rfl, _⟩ :=
                        Iam.acts_of_resolve (workspaceId_ne_empty hauth) hactor
                      have hroomId : isRoomId auth.workspaceId = true := by
                        unfold workspaceRoomName at hroom
                        split at hroom
                        · assumption
                        · cases hroom
                      exact Or.inl ⟨auth, supabaseAuthId, w, actor, hauth, hverify, rfl, hactor,
                        hroomId⟩

/-! ## The conversation handlers -/

/-- A join leaves the socket alone, or adds the room of a conversation of the
actor's workspace. -/
theorem handleJoinConversation_cases (s : Socket) (payload : Json) (now : Date) (queried : Bool) :
    (G.handleJoinConversation s payload now queried).1 = s ∨
      ∃ actor, s.actor = some actor ∧
        (G.handleJoinConversation s payload now queried).1.actor = some actor ∧
        ∃ c ∈ G.db.conversations.rows, c.workspaceId = actor.workspace.id ∧
          ∀ r, r ∈ (G.handleJoinConversation s payload now queried).1.rooms ↔
            r ∈ s.rooms ∨ r = conversationRoom c.id := by
  unfold handleJoinConversation
  split
  · exact Or.inl rfl
  · next context hcontext =>
      split
      · exact Or.inl rfl
      · next conversationId _ =>
          split
          · exact Or.inl rfl
          · split
            · exact Or.inl rfl
            · split
              · exact Or.inl rfl
              · next c hfind =>
                  split
                  · exact Or.inl rfl
                  · next room hroom =>
                      have hc := List.find?_some hfind
                      rw [decide_eq_true_iff] at hc
                      have hname : room = conversationRoom c.id := by
                        unfold conversationRoomName at hroom
                        split at hroom
                        · cases hroom
                          rw [hc.1]
                        · cases hroom
                      refine Or.inr ⟨context.actor, by rw [Socket.actor, hcontext]; rfl, rfl, c,
                        List.mem_of_find?_eq_some hfind, hc.2, fun r => ?_⟩
                      rw [← hname]
                      exact Socket.mem_rooms_join

/-- A leave takes a conversation's room away at most. -/
theorem handleLeaveConversation_cases (s : Socket) (payload : Json) :
    (G.handleLeaveConversation s payload).1.actor = s.actor ∧
      (∀ r ∈ (G.handleLeaveConversation s payload).1.rooms, r ∈ s.rooms) := by
  unfold handleLeaveConversation
  split
  · next context conversationId hcontext _ =>
      split
      · exact ⟨rfl, fun r hr => hr⟩
      · split
        · exact ⟨rfl, fun r hr => hr⟩
        · next room _ =>
            constructor
            · have hactor : s.actor = some context.actor := by rw [Socket.actor, hcontext]; rfl
              exact hactor.symm
            · intro r hr
              exact (Socket.mem_rooms_leave.mp hr).1
  · exact ⟨rfl, fun r hr => hr⟩

end Gateway

end Vynor.Realtime
