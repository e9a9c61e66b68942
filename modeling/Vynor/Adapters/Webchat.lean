import Vynor.Adapters.Adapter
import Vynor.Lib.Number

/-!
# Web chat

`webchatEventFor` and `WebchatAdapter.normalizeInbound`, with the requests the
public endpoint accepts.
-/

namespace Vynor.Adapters.Webchat

open Lib (Json toNat_of_isAlphanum)

/-- `WebchatVisitorMessage`.  `sentAt` is the ISO text of a moment. -/
structure WebchatVisitorMessage where
  visitorId : String
  visitorName : Option String := none
  visitorEmail : Option String := none
  clientMessageId : String
  text : String
  sentAt : String
  pageUrl : Option String := none
deriving DecidableEq, Repr

/-- The key of a message before it is cut. -/
def messageKey (message : WebchatVisitorMessage) : String :=
  "msg:" ++ message.visitorId ++ ":" ++ message.clientMessageId

/-- The members of a message, as a payload. -/
def WebchatVisitorMessage.record (message : WebchatVisitorMessage) : Record :=
  (compact
    [("visitorId", some message.visitorId), ("visitorName", message.visitorName),
      ("visitorEmail", message.visitorEmail), ("clientMessageId", some message.clientMessageId),
      ("text", some message.text), ("sentAt", some message.sentAt),
      ("pageUrl", message.pageUrl)]).map fun m => (m.1, .string m.2)

/-- The members of a payload are those of its message. -/
theorem asString_record (message : WebchatVisitorMessage) :
    asString (prop message.record "visitorId") = some message.visitorId ∧
      asString (prop message.record "clientMessageId") = some message.clientMessageId ∧
      asString (prop message.record "visitorEmail") = message.visitorEmail := by
  obtain ⟨visitorId, visitorName, visitorEmail, clientMessageId, text, sentAt, pageUrl⟩ := message
  cases visitorName <;> cases visitorEmail <;> cases pageUrl <;> exact ⟨rfl, rfl, rfl⟩

def webchatEventFor (message : WebchatVisitorMessage) : ExtractedEvent where
  providerEventKey := cutKey (messageKey message)
  payload := message.record

/-! ## What the endpoint accepts -/

/-- `[A-Za-z0-9_-]`. -/
def isIdChar (c : Char) : Bool := c.isAlphanum || c = '_' || c = '-'

/-- `/^v_[A-Za-z0-9_-]{8,64}$/`. -/
def isVisitorId (id : String) : Bool :=
  match id.toList with
  | 'v' :: '_' :: rest => 8 ≤ rest.length && rest.length ≤ 64 && rest.all isIdChar
  | _ => false

/-- `/^[A-Za-z0-9_-]{6,64}$/`. -/
def isClientMessageId (id : String) : Bool :=
  6 ≤ id.toList.length && id.toList.length ≤ 64 && id.toList.all isIdChar

section Patterns

variable {id : String}

theorem length_charUnits_of_isIdChar {c : Char} (h : isIdChar c = true) : (charUnits c).length = 1 := by
  have hsmall : c.toNat < 0x10000 := by
    rw [isIdChar, Bool.or_eq_true, Bool.or_eq_true, decide_eq_true_eq, decide_eq_true_eq] at h
    rcases h with (halphanum | rfl) | rfl
    · have hrange := toNat_of_isAlphanum halphanum
      omega
    · decide
    · decide
  rw [charUnits, if_pos hsmall]
  rfl

theorem length_flatMap_charUnits {cs : List Char} (h : cs.all isIdChar = true) :
    (cs.flatMap charUnits).length = cs.length := by
  induction cs with
  | nil => rfl
  | cons c cs ih =>
      rw [List.all_cons, Bool.and_eq_true] at h
      rw [List.flatMap_cons, List.length_append, length_charUnits_of_isIdChar h.1, ih h.2,
        List.length_cons, Nat.add_comm]

theorem length_visitorId_le (h : isVisitorId id = true) : (codeUnits id).length ≤ 66 := by
  unfold isVisitorId at h
  split at h
  · next rest hlist =>
      simp only [Bool.and_eq_true, decide_eq_true_eq] at h
      have hrest := length_flatMap_charUnits h.2
      rw [codeUnits, hlist]
      simp only [List.flatMap_cons, List.length_append, hrest,
        length_charUnits_of_isIdChar (show isIdChar 'v' = true from rfl),
        length_charUnits_of_isIdChar (show isIdChar '_' = true from rfl)]
      omega
  · cases h

theorem length_clientMessageId_le (h : isClientMessageId id = true) :
    (codeUnits id).length ≤ 64 := by
  simp only [isClientMessageId, Bool.and_eq_true, decide_eq_true_eq] at h
  rw [codeUnits, length_flatMap_charUnits h.2]
  exact h.1.2

end Patterns

/-- `WebchatMessageRequest`, as the schema accepts it. -/
structure WebchatMessageRequest where
  visitorId : String
  clientMessageId : String
  text : String
  name : Option String := none
  email : Option String := none
  pageUrl : Option String := none
  visitorId_pattern : isVisitorId visitorId = true
  clientMessageId_pattern : isClientMessageId clientMessageId = true
  email_length : ∀ text, email = some text → (codeUnits text).length ≤ 255

/-- The event `postMessage` journals. -/
def WebchatMessageRequest.event (request : WebchatMessageRequest) (sentAt : String) :
    ExtractedEvent :=
  webchatEventFor
    { visitorId := request.visitorId
      clientMessageId := request.clientMessageId
      text := request.text
      sentAt := sentAt
      visitorName := truthy request.name
      visitorEmail := truthy request.email
      pageUrl := truthy request.pageUrl }

section Normalize

variable (toUpperCase : String → String) (payload : Record) (context : NormalizeContext)
  (account : AdapterAccount) (now : Date)

/-- The time stamp of a message. -/
def timestamp : Timestamp :=
  match asString (prop payload "sentAt") with
  | some text => .text text
  | none => .iso now

/-- The message of a complete payload. -/
def inboundMessage (visitorId clientMessageId text : String) : NormalizedInboundMessage :=
  let email := asString (prop payload "visitorEmail")
  { context := context
    channelType := .webchat
    provider := .webchatEmbed
    providerMessageId := visitorId ++ ":" ++ clientMessageId
    sender :=
      { identifier := visitorId
        displayName := some (((truthy (asString (prop payload "visitorName"))).or
          (truthy email)).getD ("Website visitor " ++ toUpperCase (lastFour visitorId)))
        metadata := compact [("email", email), ("pageUrl", asString (prop payload "pageUrl"))] }
    recipient :=
      { identifier := account.accountIdentifier, displayName := some account.displayIdentifier }
    timestamp := timestamp payload now
    content := .text text }

def normalizeInbound : List NormalizedInboundResult :=
  match truthy (asString (prop payload "visitorId")),
    truthy (asString (prop payload "clientMessageId")), truthy (asString (prop payload "text")) with
  | some visitorId, some clientMessageId, some text =>
      [.message (inboundMessage toUpperCase payload context account now visitorId clientMessageId
        text)]
  | _, _, _ => [.ignored "Incomplete widget message."]

end Normalize

end Vynor.Adapters.Webchat
