import Vynor.Lib.JsonText
import Vynor.Realtime.Tenancy

/-!
# Realtime hints

A transaction that changes a conversation or a channel notifies the API of it
with a text.  The relay reads the text back and publishes an event to the room of
the workspace and to that of the conversation, if there is one.

The text is read back as the notification (`relay_notifyRealtime`).  While
sockets connect, join and leave, and hints are delivered or lost, a socket is
sent events of one workspace of its user only, each notification once at most and
in the order of the commits (`hints_in_tenant`).
-/

namespace Vynor.Realtime

open Lib
open Iam (Database)

/-! ## Notifications -/

/-- `RealtimeNotification`. -/
structure Notification where
  eventType : String
  workspaceId : String
  conversationId : Option String := none
  messageId : Option String := none
  channelId : Option String := none
  correlationId : Option String := none
deriving DecidableEq, Repr

/-- Members whose values may be missing. -/
def presentMembers (members : List (String × Option String)) : Json.Members :=
  members.filterMap fun m => m.2.map fun value => (m.1, .string value)

def Notification.json (n : Notification) : Json :=
  .object (presentMembers
    [("eventType", some n.eventType), ("workspaceId", some n.workspaceId),
      ("conversationId", n.conversationId), ("messageId", n.messageId),
      ("channelId", n.channelId), ("correlationId", n.correlationId)])

/-- The payload of `pg_notify`. -/
def notifyRealtime (n : Notification) : String := Json.stringify n.json

/-- A string, which must be there. -/
def requiredString : Option Json → Option String
  | some (.string value) => some value
  | _ => none

/-- `RealtimeNotificationSchema.safeParse`. -/
def parseNotification : Json → Option Notification
  | .object members => do
      let eventType ← requiredString (Json.Members.get? members "eventType")
      let workspaceId ← requiredString (Json.Members.get? members "workspaceId")
      let conversationId ← optionalString (fun _ => true)
        (Json.Members.get? members "conversationId")
      let messageId ← optionalString (fun _ => true) (Json.Members.get? members "messageId")
      let channelId ← optionalString (fun _ => true) (Json.Members.get? members "channelId")
      let correlationId ← optionalString (fun _ => true)
        (Json.Members.get? members "correlationId")
      some ⟨eventType, workspaceId, conversationId, messageId, channelId, correlationId⟩
  | _ => none

/-! ## Events -/

/-- What an event says, but for its id and its times. -/
structure Hint where
  eventType : String
  workspaceId : String
  rooms : List String
  correlationId : String
  payload : List (String × String)
deriving DecidableEq, Repr

/-- `RealtimeEventEnvelope`. -/
structure Envelope where
  hint : Hint
  eventId : String
  occurredAt : Date
  emittedAt : Date
deriving DecidableEq, Repr

def isLower (c : Char) : Bool := 'a' ≤ c && c ≤ 'z'

/-- `[a-z]` and then characters of a class. -/
def isSegment (accepts : Char → Bool) : List Char → Bool
  | [] => false
  | c :: cs => isLower c && cs.all fun d => isLower d || d.isDigit || accepts d

/-- `RealtimeEventTypeSchema`. -/
def isEventType (text : String) : Bool :=
  3 ≤ (codeUnits text).length && (codeUnits text).length ≤ 128 &&
    match text.toList.splitOn '.' with
    | first :: second :: rest =>
        isSegment (fun _ => false) first && (second :: rest).all (isSegment fun c => c = '-')
    | _ => false

/-- What follows a prefix is the id of a room. -/
def isRoomUnder (label name : String) : Bool :=
  (name.toList.dropPrefix? label.toList).any fun id => isRoomId (String.ofList id)

/-- `RealtimeRoomNameSchema`. -/
def isRoomName (name : String) : Bool :=
  isRoomUnder "workspace:" name || isRoomUnder "conversation:" name

/-- `createRealtimeEvent`, which throws where the schema refuses. -/
def createRealtimeEvent (hint : Hint) (eventId : String) (now : Date) : Option Envelope :=
  if isEventType hint.eventType && hint.workspaceId ≠ "" && hint.rooms.all isRoomName &&
      !hint.rooms.isEmpty && hint.correlationId ≠ "" && decide hint.rooms.Nodup then
    some ⟨hint, eventId, now, now⟩
  else none

/-- The rooms of a notification. -/
def Notification.rooms? (n : Notification) : Option (List String) := do
  let room ← workspaceRoomName n.workspaceId
  match truthy n.conversationId with
  | none => some [room]
  | some conversationId =>
      let conversation ← conversationRoomName conversationId
      some [room, conversation]

/-- What the relay says of a notification. -/
def Notification.hint? (n : Notification) : Option Hint :=
  n.rooms?.map fun rooms =>
    { eventType := n.eventType
      workspaceId := n.workspaceId
      rooms := rooms
      correlationId := n.correlationId.getD "realtime-relay"
      payload :=
        [("conversationId", truthy n.conversationId), ("messageId", truthy n.messageId),
          ("channelId", truthy n.channelId)].filterMap fun m => m.2.map fun value => (m.1, value) }

/-- `handle` of the relay: the event that is published. -/
def relay (text eventId : String) (now : Date) : Option Envelope :=
  if text = "" then none
  else do
    let json ← Json.parse text
    let notification ← parseNotification json
    let hint ← notification.hint?
    createRealtimeEvent hint eventId now

/-! ## The round trip -/

theorem isSound_json (n : Notification) : Json.isSound n.json = true := by
  obtain ⟨eventType, workspaceId, conversationId, messageId, channelId, correlationId⟩ := n
  cases conversationId <;> cases messageId <;> cases channelId <;> cases correlationId <;> rfl

theorem parseNotification_json (n : Notification) : parseNotification n.json = some n := by
  obtain ⟨eventType, workspaceId, conversationId, messageId, channelId, correlationId⟩ := n
  cases conversationId <;> cases messageId <;> cases channelId <;> cases correlationId <;> rfl

theorem notifyRealtime_ne_empty (n : Notification) : notifyRealtime n ≠ "" := by
  intro hempty
  have hparse := Json.parse_stringify (isSound_json n)
  rw [← notifyRealtime, hempty] at hparse
  have hnone : Json.parse "" = none := rfl
  rw [hnone] at hparse
  cases hparse

/-- The relay publishes what was notified. -/
theorem relay_notifyRealtime (n : Notification) (eventId : String) (now : Date) :
    relay (notifyRealtime n) eventId now =
      n.hint?.bind fun hint => createRealtimeEvent hint eventId now := by
  rw [relay, if_neg (notifyRealtime_ne_empty n), notifyRealtime,
    Json.parse_stringify (isSound_json n)]
  simp only [Option.bind_eq_bind, Option.bind_some, parseNotification_json]

theorem createRealtimeEvent_eq_some {hint : Hint} {eventId : String} {now : Date} {e : Envelope}
    (h : createRealtimeEvent hint eventId now = some e) : e.hint = hint := by
  unfold createRealtimeEvent at h
  split at h
  · cases h
    rfl
  · cases h

/-- The rooms of a notification are that of its workspace, and that of its
conversation. -/
theorem mem_rooms {n : Notification} {rooms : List String} (h : n.rooms? = some rooms)
    {room : String} (hroom : room ∈ rooms) :
    room = workspaceRoom n.workspaceId ∨
      ∃ conversationId, n.conversationId = some conversationId ∧
        room = conversationRoom conversationId := by
  obtain ⟨first, hfirst, h⟩ := Option.bind_eq_some_iff.mp h
  have hname : first = workspaceRoom n.workspaceId := by
    unfold workspaceRoomName at hfirst
    split at hfirst
    · exact (Option.some.inj hfirst).symm
    · cases hfirst
  split at h
  next =>
    cases h
    exact Or.inl ((List.mem_singleton.mp hroom).trans hname)
  next conversationId hconversation =>
    obtain ⟨second, hsecond, h⟩ := Option.bind_eq_some_iff.mp h
    cases h
    rcases List.mem_cons.mp hroom with rfl | hroom
    · exact Or.inl hname
    · right
      refine ⟨conversationId, (truthy_eq_some.mp hconversation).1, ?_⟩
      rw [List.mem_singleton.mp hroom]
      unfold conversationRoomName at hsecond
      split at hsecond
      · exact (Option.some.inj hsecond).symm
      · cases hsecond

/-! ## Hints and sockets -/

abbrev SocketId := Nat

/-- What the gateway of an API instance works with, and the handshakes of its
sockets. -/
structure Instance where
  db : Database
  verify : Date → String → Option String
  isUuid : String → Bool
  text : Json → String
  text_string : ∀ value, text (.string value) = value
  auth : SocketId → Json

/-- The gateway for one socket. -/
def Instance.gateway (I : Instance) (s : SocketId) : Gateway where
  db := I.db
  auth := I.auth s
  verify := I.verify
  isUuid := I.isUuid
  text := I.text
  text_string := I.text_string

/-- The sockets of an instance and what they were sent, and what was notified and
is not delivered yet. -/
structure Hub where
  socket : SocketId → Socket
  received : SocketId → List Envelope
  notified : List Notification
  pending : List String

/-- No socket has connected. -/
def Hub.init : Hub := ⟨fun s => { id := toString s }, fun _ => [], [], []⟩

inductive HubAction where
  | call (s : SocketId) (c : Gateway.Call)
  /-- A transaction that notified commits. -/
  | commit (n : Notification)
  /-- The oldest text comes to the relay. -/
  | deliver (eventId : String) (now : Date)
  /-- The relay is not connected, and misses the oldest text. -/
  | lose

/-- `server.to(rooms).emit`: the sockets in one of the rooms get the event. -/
def emitTo (socket : SocketId → Socket) (e : Envelope) (received : SocketId → List Envelope)
    (s : SocketId) : List Envelope :=
  if (socket s).rooms.any fun room => room ∈ e.hint.rooms then received s ++ [e] else received s

namespace Instance

variable (I : Instance)

def step (w : Hub) : HubAction → Option Hub
  | .call s c =>
      ((I.gateway s).step (w.socket s) c).map fun socket =>
        { w with socket := Function.update w.socket s socket }
  | .commit n =>
      some { w with notified := w.notified ++ [n], pending := w.pending ++ [notifyRealtime n] }
  | .deliver eventId now =>
      match w.pending with
      | [] => none
      | text :: rest =>
          some { w with
            pending := rest
            received := match relay text eventId now with
              | none => w.received
              | some e => emitTo w.socket e w.received }
  | .lose =>
      match w.pending with
      | [] => none
      | _ :: rest => some { w with pending := rest }

def machine : Machine Hub HubAction := { step := I.step }

/-- The conversation of a notification is one of its workspace. -/
def WellFormed (n : Notification) : Prop :=
  ∀ conversationId, n.conversationId = some conversationId →
    ∃ c ∈ I.db.conversations.rows, c.id = conversationId ∧ c.workspaceId = n.workspaceId

/-- Connections name their workspace by its id, and what is notified is well
formed. -/
def Orderly (_ : Hub) (a : HubAction) (_ : Hub) : Prop :=
  match a with
  | .call s c => (I.gateway s).NamedById c
  | .commit n => I.WellFormed n
  | _ => True

end Instance

/-! ## Who is sent what -/

/-- The actor of a socket stays the user of its token and a member. -/
theorem Gateway.member_step {G : Gateway} {s s' : Socket} {a : Gateway.Call}
    (h : ∀ actor, s.actor = some actor → G.Member actor) (hs : G.step s a = some s') :
    ∀ actor, s'.actor = some actor → G.Member actor := by
  cases a with
  | handleConnection now found =>
      change (if G.finds found then some (G.handleConnection s now found) else none) = some s' at hs
      split at hs
      · cases hs
        rcases Gateway.admits_or_rejected (G := G) s now found with
          ⟨auth, supabaseAuthId, w, actor, hadmits⟩ | ⟨code, message, hrejected⟩
        · intro actor' hactor'
          rw [(hadmits.joins s).1] at hactor'
          cases hactor'
          exact ⟨now, auth, supabaseAuthId, hadmits.handshake, hadmits.verified, hadmits.acts.1⟩
        · rw [hrejected]
          exact h
      · cases hs
  | handleJoinConversation payload now queried =>
      cases hs
      rcases Gateway.handleJoinConversation_cases (G := G) s payload now queried with
        heq | ⟨actor, hactor, hactor', _⟩
      · rw [heq]
        exact h
      · rw [hactor', ← hactor]
        exact h
  | handleLeaveConversation payload =>
      cases hs
      rw [(Gateway.handleLeaveConversation_cases (G := G) s payload).1]
      exact h

namespace Instance

variable {I : Instance}

/-- What holds between the steps. -/
structure Sound (I : Instance) (w : Hub) : Prop where
  tenant : ∀ s, (I.gateway s).Tenant (w.socket s)
  member : ∀ s actor, (w.socket s).actor = some actor → (I.gateway s).Member actor
  formed : ∀ n ∈ w.notified, I.WellFormed n
  /-- The texts of the last notifications are pending, and of the others each
  socket was sent some. -/
  sent : ∃ done rest, w.notified = done ++ rest ∧ w.pending = rest.map notifyRealtime ∧
    ∀ s, ((w.received s).map Envelope.hint).Sublist (done.filterMap Notification.hint?)
  own : ∀ s, ∀ e ∈ w.received s, ∃ actor, actor.workspace.id = e.hint.workspaceId ∧
    (I.gateway s).Member actor

theorem sound_init (I : Instance) : Sound I Hub.init where
  tenant := fun s => Gateway.tenant_init _
  member := fun s actor h => by cases h
  formed := fun n hn => by cases hn
  sent := ⟨[], [], rfl, rfl, fun s => List.Sublist.refl _⟩
  own := fun s e he => by cases he

/-- A socket in a room of a notification has a member of its workspace. -/
theorem Sound.member_of_room {w : Hub} (h : Sound I w) {n : Notification} (hn : I.WellFormed n)
    {rooms : List String} (hrooms : n.rooms? = some rooms) {s : SocketId} {room : String}
    (hroom : room ∈ rooms) (hin : room ∈ (w.socket s).rooms) :
    ∃ actor, actor.workspace.id = n.workspaceId ∧ (I.gateway s).Member actor := by
  rcases mem_rooms hrooms hroom with rfl | ⟨conversationId, hconversation, rfl⟩
  · obtain ⟨actor, _, hname, hmember⟩ := (h.tenant s).inTenant.workspaceRooms _ hin
    refine ⟨actor, ?_, hmember⟩
    unfold workspaceRoomName at hname
    split at hname
    · exact workspaceRoom_inj.mp (Option.some.inj hname)
    · cases hname
  · obtain ⟨actor, hactor, c, hc, hid, hworkspace⟩ :=
      (h.tenant s).inTenant.conversationRooms _ hin
    obtain ⟨c', hc', hid', hworkspace'⟩ := hn conversationId hconversation
    have hsame : c = c' := by
      refine Table.eq_of_shared_key hc hc' (k := conversationId) ?_ ?_
      · exact Conversation.mem_keys.mpr hid
      · exact Conversation.mem_keys.mpr hid'
    refine ⟨actor, ?_, h.member s actor hactor⟩
    rw [← hworkspace, hsame, hworkspace']

theorem sound_call {w : Hub} (h : Sound I w) {s : SocketId} {c : Gateway.Call} {socket : Socket}
    (hs : (I.gateway s).step (w.socket s) c = some socket) (hnamed : (I.gateway s).NamedById c) :
    Sound I { w with socket := Function.update w.socket s socket } where
  tenant := by
    intro t
    by_cases ht : t = s
    · rw [ht]
      simp only [Function.update_self]
      exact Gateway.tenant_step (h.tenant s) hs hnamed
    · simp only [Function.update_of_ne ht]
      exact h.tenant t
  member := by
    intro t
    by_cases ht : t = s
    · rw [ht]
      simp only [Function.update_self]
      exact Gateway.member_step (h.member s) hs
    · simp only [Function.update_of_ne ht]
      exact h.member t
  formed := h.formed
  sent := h.sent
  own := h.own

theorem sound_commit {w : Hub} (h : Sound I w) {n : Notification} (hn : I.WellFormed n) :
    Sound I { w with
      notified := w.notified ++ [n]
      pending := w.pending ++ [notifyRealtime n] } where
  tenant := h.tenant
  member := h.member
  formed := by
    intro m hm
    rcases List.mem_append.mp hm with hm | hm
    · exact h.formed m hm
    · exact List.mem_singleton.mp hm ▸ hn
  sent := by
    obtain ⟨done, rest, hnotified, hpending, hsent⟩ := h.sent
    refine ⟨done, rest ++ [n], ?_, ?_, hsent⟩
    · rw [hnotified, List.append_assoc]
    · rw [hpending, List.map_append, List.map_singleton]
  own := h.own

theorem sound_lose {w : Hub} (h : Sound I w) {text : String} {rest : List String}
    (hpending : w.pending = text :: rest) : Sound I { w with pending := rest } where
  tenant := h.tenant
  member := h.member
  formed := h.formed
  sent := by
    obtain ⟨done, left, hnotified, htexts, hsent⟩ := h.sent
    rw [hpending] at htexts
    cases left with
    | nil => cases htexts
    | cons n left =>
        rw [List.map_cons, List.cons.injEq] at htexts
        refine ⟨done ++ [n], left, ?_, htexts.2, fun s => ?_⟩
        · rw [hnotified, List.append_assoc, List.singleton_append]
        · rw [List.filterMap_append]
          exact (hsent s).trans (List.sublist_append_left _ _)
  own := h.own

theorem sound_deliver {w : Hub} (h : Sound I w) {text eventId : String} {now : Date}
    {rest : List String} {e : Envelope} (hpending : w.pending = text :: rest)
    (hrelay : relay text eventId now = some e) :
    Sound I { w with pending := rest, received := emitTo w.socket e w.received } := by
  obtain ⟨done, left, hnotified, htexts, hsent⟩ := h.sent
  rw [hpending] at htexts
  cases left with
  | nil => cases htexts
  | cons n left =>
      rw [List.map_cons, List.cons.injEq] at htexts
      obtain ⟨rfl, htexts⟩ := htexts
      rw [relay_notifyRealtime] at hrelay
      obtain ⟨hint, hhint, hcreate⟩ := Option.bind_eq_some_iff.mp hrelay
      have he := createRealtimeEvent_eq_some hcreate
      have hn : n ∈ w.notified := by
        rw [hnotified]
        exact List.mem_append_right _ List.mem_cons_self
      refine ⟨h.tenant, h.member, h.formed, ?_, ?_⟩
      · refine ⟨done ++ [n], left, ?_, htexts, fun s => ?_⟩
        · simp only [hnotified, List.append_assoc, List.singleton_append]
        · simp only [emitTo]
          rw [List.filterMap_append, List.filterMap_cons_some hhint, List.filterMap_nil]
          split
          · rw [List.map_append, List.map_singleton, he]
            exact (hsent s).append (List.Sublist.refl _)
          · exact (hsent s).trans (List.sublist_append_left _ _)
      · intro s env henv
        simp only [emitTo] at henv
        split at henv
        next hany =>
          rcases List.mem_append.mp henv with hold | hnew
          · exact h.own s env hold
          · rw [List.mem_singleton.mp hnew]
            obtain ⟨room, hin, hroom⟩ := List.any_eq_true.mp hany
            obtain ⟨rooms, hrooms, rfl⟩ := Option.map_eq_some_iff.mp hhint
            rw [he] at hroom ⊢
            exact h.member_of_room (h.formed n hn) hrooms (of_decide_eq_true hroom) hin
        next => exact h.own s env henv

theorem sound_step {w w' : Hub} {a : HubAction} (h : Sound I w) (hs : I.step w a = some w')
    (horderly : I.Orderly w a w') : Sound I w' := by
  cases a with
  | call s c =>
      obtain ⟨socket, hsocket, rfl⟩ := Option.map_eq_some_iff.mp hs
      exact sound_call h hsocket horderly
  | commit n =>
      cases hs
      exact sound_commit h horderly
  | deliver eventId now =>
      rw [step] at hs
      split at hs
      next => cases hs
      next text rest hpending =>
        cases hs
        cases hrelay : relay text eventId now with
        | none => exact sound_lose h hpending
        | some e => exact sound_deliver h hpending hrelay
  | lose =>
      rw [step] at hs
      split at hs
      next => cases hs
      next text rest hpending =>
        cases hs
        exact sound_lose h hpending

/-- In every run in which connections name their workspace by its id and
transactions notify of conversations of their workspace, what a socket was sent
stands for notifications that were committed, each once at most and in their
order, and it is of workspaces in which the user of its token is an active member. -/
theorem hints_in_tenant {actions : List HubAction} {w : Hub}
    (horderly : I.machine.Along I.Orderly Hub.init actions)
    (hrun : I.machine.run Hub.init actions = some w) (s : SocketId) :
    ((w.received s).map Envelope.hint).Sublist (w.notified.filterMap Notification.hint?) ∧
      ∀ e ∈ w.received s, ∃ actor, actor.workspace.id = e.hint.workspaceId ∧
        (I.gateway s).Member actor := by
  have hsound := Machine.invariant_along (I := Sound I)
    (fun _ _ _ h hs hP => sound_step h hs hP) (sound_init I) horderly hrun
  refine ⟨?_, hsound.own s⟩
  obtain ⟨done, rest, hnotified, _, hsent⟩ := hsound.sent
  rw [hnotified, List.filterMap_append]
  exact (hsent s).trans (List.sublist_append_left _ _)

/-! ## A message of a member -/

/-- The second workspace of the example, which Ann is a member of here. -/
def exampleWorkspace : Iam.Workspace := { id := "second", name := "Second", slug := "other" }

/-- An instance whose sockets all are hers. -/
def exampleInstance : Instance where
  db := { Gateway.exampleDatabase with
    memberships := .singleton { id := "member", workspaceId := "second", userProfileId := "ann" }
    workspaceOf := by
      intro m hm
      rw [List.mem_singleton.mp hm]
      exact ⟨exampleWorkspace, rfl⟩ }
  verify := Gateway.exampleGateway.verify
  isUuid := Gateway.exampleGateway.isUuid
  text := Gateway.exampleGateway.text
  text_string := Gateway.exampleGateway.text_string
  auth := fun _ => Gateway.exampleGateway.auth

/-- A message came in. -/
def exampleNotification : Notification :=
  { eventType := "message.created", workspaceId := "second" }

def exampleHints : List HubAction :=
  [.call 0 (.handleConnection 0 (some (some exampleWorkspace))), .commit exampleNotification,
    .deliver "event" 0]

theorem rooms_relay :
    (relay (notifyRealtime exampleNotification) "event" 0).map (fun e => e.hint.rooms) =
      some ["workspace:second"] := by
  rw [relay_notifyRealtime]
  decide

/-- A socket that is connected gets what is notified to one of its rooms. -/
theorem run_hint {I : Instance} {s : SocketId} {c : Gateway.Call} {socket : Socket}
    {n : Notification} {eventId : String} {now : Date} {e : Envelope}
    (hsocket : (I.gateway s).step (Hub.init.socket s) c = some socket)
    (he : relay (notifyRealtime n) eventId now = some e)
    (hin : socket.rooms.any (fun room => room ∈ e.hint.rooms) = true) :
    ∃ w, I.machine.run Hub.init [.call s c, .commit n, .deliver eventId now] = some w ∧
      w.received s = [e] := by
  have hcall : I.machine.step Hub.init (.call s c) =
      some ⟨Function.update Hub.init.socket s socket, Hub.init.received, [], []⟩ := by
    change ((I.gateway s).step (Hub.init.socket s) c).map _ = _
    rw [hsocket]
    rfl
  have hdeliver : I.machine.step ⟨Function.update Hub.init.socket s socket, Hub.init.received,
      [n], [notifyRealtime n]⟩ (.deliver eventId now) =
        some ⟨Function.update Hub.init.socket s socket,
          emitTo (Function.update Hub.init.socket s socket) e Hub.init.received, [n], []⟩ := by
    simp only [machine, step, he]
  refine ⟨_, (Machine.run_cons_eq_some _).mpr ⟨_, hcall, (Machine.run_cons_eq_some _).mpr
    ⟨_, rfl, (Machine.run_cons_eq_some _).mpr ⟨_, hdeliver, rfl⟩⟩⟩, ?_⟩
  simp only [emitTo, Function.update_self, hin, if_true]
  rfl

/-- Ann's socket gets it, in her workspace. -/
theorem message_hinted :
    ∃ w, exampleInstance.machine.run Hub.init exampleHints = some w ∧
      (w.received 0).length = 1 ∧
      ((w.received 0).map Envelope.hint).Sublist (w.notified.filterMap Notification.hint?) ∧
      ∀ e ∈ w.received 0, ∃ actor, actor.workspace.id = e.hint.workspaceId ∧
        (exampleInstance.gateway 0).Member actor := by
  have hstep : ((exampleInstance.gateway 0).step (Hub.init.socket 0)
      (.handleConnection 0 (some (some exampleWorkspace)))).map Socket.rooms =
        some ["workspace:second"] := by
    decide
  obtain ⟨socket, hsocket, hrooms⟩ := Option.map_eq_some_iff.mp hstep
  obtain ⟨e, he, hto⟩ := Option.map_eq_some_iff.mp rooms_relay
  have hin : socket.rooms.any (fun room => room ∈ e.hint.rooms) = true := by
    rw [hrooms, hto]
    rfl
  obtain ⟨w, hrun, hreceived⟩ := run_hint hsocket he hin
  have hlength : (w.received 0).length = 1 := by
    rw [hreceived]
    rfl
  refine ⟨w, hrun, hlength, hints_in_tenant ?_ hrun 0⟩
  refine Machine.along_of_forall (fun a ha s s' _ => ?_) _
  rcases List.mem_cons.mp ha with rfl | ha
  · intro auth supabaseAuthId w actor hadmits
    have hw := hadmits.found
    have hauth := hadmits.handshake
    cases hw
    have hid : ((exampleInstance.gateway 0).handshake).map HandshakeAuth.workspaceId =
        some "second" := by decide
    rw [hauth] at hid
    exact (Option.some.inj hid).symm
  · rcases List.mem_cons.mp ha with rfl | ha
    · intro conversationId h
      cases h
    · rw [List.mem_singleton.mp ha]
      trivial

end Instance

end Vynor.Realtime
