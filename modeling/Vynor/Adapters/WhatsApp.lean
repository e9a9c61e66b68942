import Vynor.Adapters.Adapter

/-!
# WhatsApp

`WhatsAppCloudAdapter.extractEvents` and `normalizeInbound`.  A batch has an
event for each message and for each status.
-/

namespace Vynor.Adapters.WhatsApp

open Lib (Json)

/-! ## The events of a batch -/

/-- The event of a message. -/
def messageEvent (metadata : Record) (contacts : List Record) (message : Record) :
    Option ExtractedEvent :=
  (truthy (asString (prop message "id"))).map fun id =>
    let contact := contacts.find? fun c => asString (prop c "wa_id") = asString (prop message "from")
    { providerEventKey := codeUnits ("msg:" ++ id)
      payload := [("metadata", .object metadata), ("message", .object message)] ++
        (contact.map fun c => ("contact", .object c)).toList
      routingAccountIdentifier := truthy (asString (prop metadata "phone_number_id")) }

/-- The event of a status. -/
def statusEvent (metadata : Record) (status : Record) : Option ExtractedEvent :=
  match truthy (asString (prop status "id")), truthy (asString (prop status "status")) with
  | some id, some state =>
      some
        { providerEventKey := codeUnits ("status:" ++ id ++ ":" ++ state)
          payload := [("metadata", .object metadata), ("status", .object status)]
          routingAccountIdentifier := truthy (asString (prop metadata "phone_number_id")) }
  | _, _ => none

/-- The events of a change. -/
def changeEvents (change : Record) : List ExtractedEvent :=
  if isText (prop change "field") "messages" then
    let value := asRecord (prop change "value")
    let metadata := asRecord (prop value "metadata")
    let contacts := (asArray (prop value "contacts")).map fun c => asRecord (some c)
    (asArray (prop value "messages")).filterMap (fun m => messageEvent metadata contacts
        (asRecord (some m))) ++
      (asArray (prop value "statuses")).filterMap fun s => statusEvent metadata (asRecord (some s))
  else []

def extractEvents (payload : Json) : List ExtractedEvent :=
  let body := asRecord (some payload)
  if isText (prop body "object") "whatsapp_business_account" then
    (asArray (prop body "entry")).flatMap fun entry =>
      (asArray (prop (asRecord (some entry)) "changes")).flatMap fun change =>
        changeEvents (asRecord (some change))
  else []

/-- The event of a message with this id. -/
structure OfMessage (e : ExtractedEvent) (id : String) : Prop where
  key : e.providerEventKey = codeUnits ("msg:" ++ id)
  noStatus : prop e.payload "status" = none
  id : truthy (asString (prop (asRecord (prop e.payload "message")) "id")) = some id

/-- The event of a status with this id and this state. -/
structure OfStatus (e : ExtractedEvent) (id state : String) : Prop where
  key : e.providerEventKey = codeUnits ("status:" ++ id ++ ":" ++ state)
  hasStatus : isTruthy (prop e.payload "status") = true
  id : truthy (asString (prop (asRecord (prop e.payload "status")) "id")) = some id
  state : truthy (asString (prop (asRecord (prop e.payload "status")) "status")) = some state

theorem ofMessage_messageEvent {metadata message : Record} {contacts : List Record}
    {e : ExtractedEvent} (h : messageEvent metadata contacts message = some e) :
    ∃ id, OfMessage e id := by
  obtain ⟨id, hid, rfl⟩ := Option.map_eq_some_iff.mp h
  refine ⟨id, rfl, ?_, hid⟩
  cases contacts.find? fun c => asString (prop c "wa_id") = asString (prop message "from") <;> rfl

theorem ofStatus_statusEvent {metadata status : Record} {e : ExtractedEvent}
    (h : statusEvent metadata status = some e) : ∃ id state, OfStatus e id state := by
  simp only [statusEvent] at h
  split at h
  · next id state hid hstate =>
      cases h
      exact ⟨id, state, rfl, rfl, hid, hstate⟩
  · cases h

/-- An event is that of a message or that of a status. -/
theorem ofMessage_or_ofStatus {payload : Json} {e : ExtractedEvent} (h : e ∈ extractEvents payload) :
    (∃ id, OfMessage e id) ∨ ∃ id state, OfStatus e id state := by
  simp only [extractEvents] at h
  split at h
  · obtain ⟨entry, _, h⟩ := List.mem_flatMap.mp h
    obtain ⟨change, _, h⟩ := List.mem_flatMap.mp h
    simp only [changeEvents] at h
    split at h
    · rcases List.mem_append.mp h with h | h
      · obtain ⟨message, _, h⟩ := List.mem_filterMap.mp h
        exact .inl (ofMessage_messageEvent h)
      · obtain ⟨status, _, h⟩ := List.mem_filterMap.mp h
        exact .inr (ofStatus_statusEvent h)
    · cases h
  · cases h

/-! ## Content -/

/-- `MEDIA_TYPES`. -/
def MEDIA_TYPES : List (String × MediaType) :=
  [("image", .image), ("video", .video), ("audio", .audio), ("document", .document),
    ("sticker", .sticker)]

/-- `/^[^@\s]+@[^@\s]+\.[^@\s]+$/`: one `@` with text before it, and a point
inside the text after it. -/
def looksLikeEmail (text : String) : Bool :=
  match text.toList.splitOn '@' with
  | [name, domain] =>
      !name.isEmpty && (domain.drop 1).dropLast.contains '.' && !text.toList.any isSpace
  | _ => false

/-- A contact of a `contacts` message. -/
def contactCard (raw : Json) : ContactCard :=
  let c := asRecord (some raw)
  let name := asRecord (prop c "name")
  let phones := (asArray (prop c "phones")).map fun p => asRecord (some p)
  let emails := (asArray (prop c "emails")).map fun e => asRecord (some e)
  { formattedName :=
      ((asString (prop name "formatted_name")).or (asString (prop name "first_name"))).getD "Contact"
    firstName := asString (prop name "first_name")
    lastName := asString (prop name "last_name")
    phones := (phones.map fun p =>
      { value := ((asString (prop p "phone")).or (asString (prop p "wa_id"))).getD ""
        type := asString (prop p "type") }).filter fun entry => entry.value ≠ ""
    emails := (emails.map fun e =>
      { value := (asString (prop e "email")).getD ""
        type := asString (prop e "type") }).filter fun entry => looksLikeEmail entry.value
    organization := asString (prop (asRecord (prop c "org")) "company") }

/-- The content of a message of one of the media types. -/
def mediaContent (message : Record) (type : String) (mediaType : MediaType) : MediaContent :=
  let media := asRecord (prop message type)
  { mediaType := .own (if mediaType = .audio ∧ isTrue (prop media "voice") then .voice else mediaType)
    mimeType := .own ((asString (prop media "mime_type")).getD "application/octet-stream")
    providerMediaId := asString (prop media "id")
    caption := asString (prop media "caption")
    filename := asString (prop media "filename")
    sha256 := asString (prop media "sha256") }

def locationContent (message : Record) : InboundMessageContent :=
  let location := asRecord (prop message "location")
  .location (.finite ((asNumber (prop location "latitude")).getD 0))
    (.finite ((asNumber (prop location "longitude")).getD 0)) (asString (prop location "name"))
    (asString (prop location "address"))

def interactiveContent (message : Record) : InboundMessageContent :=
  let interactive := asRecord (prop message "interactive")
  let isList := asString (prop interactive "type") = some "list_reply"
  let reply := asRecord (prop interactive (if isList then "list_reply" else "button_reply"))
  .interactive (if isList then .listReply else .buttonReply) ((asString (prop reply "id")).getD "")
    ((asString (prop reply "title")).getD "") (asString (prop reply "description"))

def buttonContent (message : Record) : InboundMessageContent :=
  let button := asRecord (prop message "button")
  .interactive .quickReply ((asString (prop button "payload")).getD "")
    ((asString (prop button "text")).getD "") none

def reactionContent (message : Record) : InboundMessageContent :=
  let reaction := asRecord (prop message "reaction")
  let emoji := (asString (prop reaction "emoji")).getD ""
  .reaction emoji ((asString (prop reaction "message_id")).getD "")
    (if emoji = "" then .unreact else .react)

def unsupportedContent (message : Record) (type : String) : InboundMessageContent :=
  let errors := asArray (prop message "errors")
  let description :=
    match truthy (asString (prop (asRecord errors.head?) "title")) with
    | some title => "Unsupported WhatsApp message (" ++ title ++ ")"
    | none => "Unsupported WhatsApp message type \"" ++ type ++ "\""
  .unsupported type (some (.own description)) none

def normalizeWhatsAppContent (message : Record) : InboundMessageContent :=
  let type := (asString (prop message "type")).getD "unknown"
  let contacts := (asArray (prop message "contacts")).map contactCard
  if type = "text" then .text ((asString (prop (asRecord (prop message "text")) "body")).getD "")
  else
    match MEDIA_TYPES.find? fun entry => entry.1 = type with
    | some entry => .media (mediaContent message type entry.2)
    | none =>
        if type = "location" then locationContent message
        else if type = "contacts" ∧ contacts ≠ [] then .contact contacts
        else if type = "interactive" then interactiveContent message
        else if type = "button" then buttonContent message
        else if type = "reaction" then reactionContent message
        else unsupportedContent message type

/-! ## Results -/

section Normalize

variable (payload : Record) (context : NormalizeContext) (account : AdapterAccount) (now : Date)

/-- The error of a status. -/
def statusError (status : Record) : String × String :=
  let error := asRecord (asArray (prop status "errors")).head?
  let details := asString (prop (asRecord (prop error "error_data")) "details")
  let title := (asString (prop error "title")).or (asString (prop error "message"))
  ((asString (prop error "code")).getD "UNKNOWN",
    (truthy (some (": ".intercalate (present [title, details])))).getD
      "WhatsApp could not deliver this message.")

/-- The receipt of a status that is mapped. -/
def statusReceipt (status : Record) (mapped : Looked DeliveryStatus) (timestamp : Date) :
    NormalizedDeliveryReceipt where
  context := context
  providerMessageId := (asString (prop status "id")).getD ""
  recipientIdentifier := (asString (prop status "recipient_id")).getD ""
  status := mapped
  timestamp := .iso timestamp
  error := if mapped = .own .failed then some (statusError status) else none

def normalizeStatus : Except Thrown (List NormalizedInboundResult) :=
  let status := asRecord (prop payload "status")
  match lookup STATUS_MAP ((asString (prop status "status")).getD "") with
  | none =>
      (stringOf (prop status "status")).map fun text =>
        [.ignored ("Status \"" ++ text ++ "\" is not tracked.")]
  | some mapped =>
      (toIsoTimestamp (prop status "timestamp") .seconds now).map fun timestamp =>
        [.deliveryReceipt (statusReceipt context status mapped timestamp)]

/-- The message of an event with a sender and an id. -/
def inboundMessage (id sender : String) (timestamp : Date) : NormalizedInboundMessage :=
  let message := asRecord (prop payload "message")
  let metadata := asRecord (prop payload "metadata")
  let profile := asRecord (prop (asRecord (prop payload "contact")) "profile")
  let replied := asRecord (prop message "context")
  { context := context
    channelType := .whatsapp
    provider := .whatsappCloud
    providerMessageId := id
    sender :=
      { identifier := sender
        displayName := some ((asString (prop profile "name")).getD ("+" ++ sender))
        metadata := [("phone", "+" ++ sender)] }
    recipient :=
      { identifier := (asString (prop metadata "phone_number_id")).getD account.accountIdentifier
        displayName := some account.displayIdentifier }
    timestamp := .iso timestamp
    content := normalizeWhatsAppContent message
    replyTarget := truthy (asString (prop replied "id"))
    metadata := if isTruthy (prop replied "forwarded") then [("forwarded", .bool true)] else [] }

def normalizeMessage : Except Thrown (List NormalizedInboundResult) :=
  let message := asRecord (prop payload "message")
  match truthy (asString (prop message "from")), truthy (asString (prop message "id")) with
  | some sender, some id =>
      (toIsoTimestamp (prop message "timestamp") .seconds now).map fun timestamp =>
        [.message (inboundMessage payload context account id sender timestamp)]
  | _, _ => .ok [.ignored "Message without sender or ID."]

def normalizeInbound : Except Thrown (List NormalizedInboundResult) :=
  if isTruthy (prop payload "status") then normalizeStatus payload context now
  else normalizeMessage payload context account now

end Normalize

end Vynor.Adapters.WhatsApp
