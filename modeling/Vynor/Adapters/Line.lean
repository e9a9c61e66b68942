import Vynor.Adapters.Adapter

/-!
# LINE

`LineMessagingAdapter.extractEvents` and `normalizeInbound`.
-/

namespace Vynor.Adapters.Line

open Lib (Json)

/-- The events of a batch that have an id. -/
def extractEvents (payload : Json) : List ExtractedEvent :=
  let body := asRecord (some payload)
  (asArray (prop body "events")).filterMap fun raw =>
    let event := asRecord (some raw)
    (truthy (asString (prop event "webhookEventId"))).map fun id =>
      { providerEventKey := codeUnits ("event:" ++ id)
        payload := event
        routingAccountIdentifier := truthy (asString (prop body "destination")) }

/-- The key of an event is the one LINE gives it. -/
theorem exists_of_mem_extractEvents {payload : Json} {e : ExtractedEvent}
    (h : e ∈ extractEvents payload) :
    ∃ id, truthy (asString (prop e.payload "webhookEventId")) = some id ∧
      e.providerEventKey = codeUnits ("event:" ++ id) := by
  obtain ⟨raw, _, h⟩ := List.mem_filterMap.mp h
  obtain ⟨id, hid, rfl⟩ := Option.map_eq_some_iff.mp h
  exact ⟨id, hid, rfl⟩

/-! ## Content -/

/-- The media types that are named like messages, with their MIME types. -/
def MEDIA_KINDS : List (String × MediaType × String) :=
  [("image", .image, "image/jpeg"), ("video", .video, "video/mp4"), ("audio", .audio, "audio/m4a")]

def locationContent (message : Record) : InboundMessageContent :=
  .location (.finite ((asNumber (prop message "latitude")).getD 0))
    (.finite ((asNumber (prop message "longitude")).getD 0)) (asString (prop message "title"))
    (asString (prop message "address"))

/-- The content of a file. -/
def fileContent (message : Record) : MediaContent where
  mediaType := .own .document
  mimeType := .own "application/octet-stream"
  providerMediaId := asString (prop message "id")
  filename := asString (prop message "fileName")
  sizeBytes := asNumber (prop message "fileSize")

/-- The content of another medium. -/
def mediaContent (message : Record) (kind : String × MediaType × String) : MediaContent where
  mediaType := .own kind.2.1
  mimeType := .own kind.2.2
  providerMediaId := asString (prop message "id")

def normalizeLineContent (message : Record) : InboundMessageContent :=
  let type := (asString (prop message "type")).getD "unknown"
  match MEDIA_KINDS.find? fun kind => kind.1 = type with
  | some kind => .media (mediaContent message kind)
  | none =>
      if type = "text" then .text ((asString (prop message "text")).getD "")
      else if type = "file" then .media (fileContent message)
      else if type = "location" then locationContent message
      else if type = "sticker" then .unsupported "sticker" (some (.own "Sent a LINE sticker")) none
      else .unsupported type (some (.own "Unsupported LINE message")) none

/-! ## Results -/

section Normalize

variable (payload : Record) (context : NormalizeContext) (account : AdapterAccount)
  (profile : Option ContactProfile) (now : Date)

/-- What an event has to say: its id, its content and the message replied to. -/
structure Said where
  providerMessageId : String
  content : InboundMessageContent
  replyTarget : Option String := none

/-- What an event of a type says, or why it is ignored. -/
def said (type : Option String) : Said ⊕ String :=
  if type = some "message" then
    let message := asRecord (prop payload "message")
    match truthy (asString (prop message "id")) with
    | none => .inr "Message without ID."
    | some id => .inl
        { providerMessageId := id
          content := normalizeLineContent message
          replyTarget := truthy (asString (prop message "quotedMessageId")) }
  else if type = some "postback" then
    let data := asString (prop (asRecord (prop payload "postback")) "data")
    .inl
      { providerMessageId := "postback:" ++ shown (asString (prop payload "webhookEventId"))
        content := .interactive .buttonReply (data.getD "") (data.getD "Button pressed") none }
  else .inr ("LINE \"" ++ type.getD "unknown" ++ "\" events are not synced.")

/-- The message of an event. -/
def inboundMessage (userId : String) (timestamp : Date) (s : Said) : NormalizedInboundMessage where
  context := context
  channelType := .line
  provider := .lineMessaging
  providerMessageId := s.providerMessageId
  sender :=
    { identifier := userId
      displayName := some ((profile.bind ContactProfile.displayName).getD
        ("LINE user " ++ lastFour userId))
      avatarUrl := truthy (profile.bind ContactProfile.avatarUrl) }
  recipient :=
    { identifier := account.accountIdentifier, displayName := some account.displayIdentifier }
  timestamp := .iso timestamp
  content := s.content
  replyTarget := s.replyTarget

def normalizeInbound : Except Thrown (List NormalizedInboundResult) :=
  let source := asRecord (prop payload "source")
  if asString (prop source "type") = some "user" then
    match truthy (asString (prop source "userId")) with
    | none => .ok [.ignored "Event without user."]
    | some userId =>
        match said payload (asString (prop payload "type")) with
        | .inr reason => .ok [.ignored reason]
        | .inl s =>
            (toIsoTimestamp (prop payload "timestamp") .milliseconds now).map fun timestamp =>
              [.message (inboundMessage context account profile userId timestamp s)]
  else .ok [.ignored "Group and room chats are not supported yet."]

end Normalize

end Vynor.Adapters.Line
