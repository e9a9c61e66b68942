import Vynor.Adapters.Adapter
import Vynor.Lib.IsoDate
import Vynor.Lib.JsonText

/-!
# The Custom API

`CustomApiAdapter.extractEvents` and `normalizeInbound`.  The customer's own
system posts single events or lists of them.  A time stamp is passed on as it
came.

The adapter posts replies and pings to the customer's system in turn, and signs
them as the customer signs what it posts.  They are no events themselves
(`extractEvents_outbound`).
-/

namespace Vynor.Adapters.CustomApi

open Lib (Json)

/-- The key of an item before it is cut. -/
def itemKey (item : Record) : Option String :=
  (truthy (asString (prop item "messageId"))).map fun messageId =>
    if (asString (prop item "type")).getD "message" = "status" then
      "status:" ++ messageId ++ ":" ++ (asString (prop item "status")).getD "unknown"
    else "msg:" ++ messageId

/-- The items of a payload. -/
def items (payload : Json) : List Record :=
  let body := asRecord (some payload)
  match prop body "events" with
  | some (.array events) => events.map fun e => asRecord (some e)
  | _ => [body]

def extractEvents (payload : Json) : List ExtractedEvent :=
  (items payload).filterMap fun item =>
    (itemKey item).map fun key => { providerEventKey := cutKey key, payload := item }

theorem exists_of_mem_extractEvents {payload : Json} {e : ExtractedEvent}
    (h : e ∈ extractEvents payload) :
    ∃ key, itemKey e.payload = some key ∧ e.providerEventKey = cutKey key := by
  obtain ⟨item, _, h⟩ := List.mem_filterMap.mp h
  obtain ⟨key, hkey, rfl⟩ := Option.map_eq_some_iff.mp h
  exact ⟨key, hkey, rfl⟩

/-- Events stand in objects that have members. -/
theorem exists_object_of_extractEvents {payload : Json} (h : extractEvents payload ≠ []) :
    ∃ members, payload = .object members ∧ members ≠ [] := by
  cases payload with
  | object members =>
      refine ⟨members, rfl, ?_⟩
      rintro rfl
      exact h rfl
  | null => exact absurd rfl h
  | bool b => exact absurd rfl h
  | number n => exact absurd rfl h
  | string s => exact absurd rfl h
  | array items => exact absurd rfl h

/-! ## What is posted to the customer's system -/

/-- What `post` is called with. -/
inductive Outbound where
  /-- `sendMessage`. -/
  | message (intentId destination text : String) (createdAt : Date) (conversationId : Option String)
  /-- `healthCheck`. -/
  | ping (sentAt : Date)
deriving DecidableEq, Repr

/-- The body for a channel. -/
def Outbound.body (channelId : String) : Outbound → Json
  | .message intentId destination text createdAt conversationId =>
      .object ([("type", .string "message"), ("id", .string intentId),
        ("channelId", .string channelId), ("contact", .object [("id", .string destination)]),
        ("text", .string text), ("createdAt", .string (Lib.IsoDate.toISOString createdAt))] ++
        (compact [("conversationId", conversationId)]).map fun m => (m.1, .string m.2))
  | .ping sentAt =>
      .object [("type", .string "ping"), ("channelId", .string channelId),
        ("sentAt", .string (Lib.IsoDate.toISOString sentAt))]

theorem isSound_outbound (channelId : String) (outbound : Outbound) :
    Json.isSound (outbound.body channelId) = true := by
  cases outbound with
  | message intentId destination text createdAt conversationId =>
      cases conversationId with
      | none => rfl
      | some conversationId => rfl
  | ping sentAt => rfl

/-- What is posted has neither a message id nor a list of events. -/
theorem extractEvents_outbound (channelId : String) (outbound : Outbound) :
    extractEvents (outbound.body channelId) = [] := by
  cases outbound with
  | message intentId destination text createdAt conversationId =>
      cases conversationId with
      | none => rfl
      | some conversationId => rfl
  | ping sentAt => rfl

section Normalize

variable (payload : Record) (context : NormalizeContext) (account : AdapterAccount) (now : Date)

/-- The time stamp of an item. -/
def timestamp : Timestamp :=
  match asString (prop payload "timestamp") with
  | some text => .text text
  | none => .iso now

/-- The receipt of a status that is mapped. -/
def statusReceipt (messageId : String) (status : Looked DeliveryStatus) :
    NormalizedDeliveryReceipt :=
  let error := asRecord (prop payload "error")
  { context := context
    providerMessageId := messageId
    recipientIdentifier := (asString (prop (asRecord (prop payload "contact")) "id")).getD ""
    status := status
    timestamp := timestamp payload now
    error := if status = .own .failed then
        some ((asString (prop error "code")).getD "FAILED",
          (asString (prop error "message")).getD "Your system reported a delivery failure.")
      else none }

/-- The message of an item with a contact and a text. -/
def inboundMessage (messageId contactId text : String) : NormalizedInboundMessage :=
  let contact := asRecord (prop payload "contact")
  let email := asString (prop contact "email")
  let phone := asString (prop contact "phone")
  { context := context
    channelType := .api
    provider := .customWebhook
    providerMessageId := messageId
    sender :=
      { identifier := contactId
        displayName := some ((((asString (prop contact "name")).or email).or phone).getD
          ("Contact " ++ contactId))
        metadata := compact [("email", email), ("phone", phone)] }
    recipient :=
      { identifier := account.accountIdentifier, displayName := some account.displayIdentifier }
    timestamp := timestamp payload now
    content := .text text }

def normalizeInbound : List NormalizedInboundResult :=
  match truthy (asString (prop payload "messageId")) with
  | none => [.ignored "Event without messageId."]
  | some messageId =>
      if asString (prop payload "type") = some "status" then
        match lookup STATUS_MAP ((asString (prop payload "status")).getD "") with
        | none => [.ignored "Unknown status value."]
        | some status => [.deliveryReceipt (statusReceipt payload context now messageId status)]
      else
        match truthy (asString (prop (asRecord (prop payload "contact")) "id")),
          truthy (asString (prop payload "text")) with
        | some contactId, some text =>
            [.message (inboundMessage payload context account now messageId contactId text)]
        | _, _ => [.ignored "Messages need contact.id and text."]

end Normalize

end Vynor.Adapters.CustomApi
